/-!
Boxes of text and their layout in lines of bounded width.

A document is a list of words, breaks and boxes. A box that fits on the rest of its line is written
without line ends. Otherwise a *consistent* box ends the line at each of its own breaks, and an
inconsistent one only where the text up to the next break would not fit. The room a box or a break
needs reaches to the next break after it, so a closing bracket or semicolon is never pushed over
the margin. Widths are counted in bytes.
-/
set_option autoImplicit false

namespace Statechart.Target.Layout

def margin : Int := 89

/-- The room after an indentation is never taken to be less than this. -/
def leastRoom : Int := 60

def step : Int := 4

def endless : Nat := 0xFFFF

structure Break where
  /-- Added to the indentation of the next line. -/
  offset : Int := 0
  /-- Blanks written if the line goes on. -/
  blank : Nat := 0
  /-- Written before the line end. -/
  atEnd : Option Char := none
  /-- Written at the start of the next line. -/
  atStart : String := ""
  /-- Written if the line goes on. -/
  inLine : Option Char := none
  /-- Dropped at the end of a box. -/
  ifMore : Bool := false
  /-- The line always goes on. -/
  never : Bool := false

inductive Doc where
  | text (s : String)
  | brk (b : Break)
  | box (offset : Int) (consistent : Bool) (kids : List Doc)
  /-- Nothing, but too wide for a line. -/
  | overflow

def word (s : String) : List Doc := [.text s]
def nbsp : List Doc := [.text " "]
def zerobreak : List Doc := [.brk {}]
def space : List Doc := [.brk { blank := 1 }]
def hardbreak : List Doc := [.brk { blank := endless }]
def neverbreak : List Doc := [.brk { never := true }]
def spaceIfMore : List Doc := [.brk { blank := 1, ifMore := true }]
def hardbreakIfMore : List Doc := [.brk { blank := endless, ifMore := true }]

/-- After an element: a comma, which the last one has only at a line end. -/
def comma (last : Bool) : List Doc :=
  if last then [.brk { atEnd := some ',' }] else word "," ++ space

/-- The same with a blank after the last element if the line goes on. -/
def commaOrSpace (last : Bool) : List Doc :=
  if last then [.brk { blank := 1, atEnd := some ',' }] else word "," ++ space

def shiftLast (n : Int) : List Doc → List Doc
  | [] => []
  | [.brk b] => [.brk { b with offset := b.offset + n }]
  | d :: ds => d :: shiftLast n ds

def outdent (ds : List Doc) : List Doc := shiftLast (-step) ds

/-- A closing break that only stands for more to come is dropped. -/
def dropIfMore : List Doc → List Doc
  | [] => []
  | [.brk b] => if b.ifMore then [] else [.brk b]
  | d :: ds => d :: dropIfMore ds

/-- A box; one that holds a single break is nothing at all. -/
def box (offset : Int) (consistent : Bool) (kids : List Doc) : List Doc :=
  match kids with
  | [.brk _] => []
  | _ => [.box offset consistent (dropIfMore kids)]

def cbox (offset : Int) (kids : List Doc) : List Doc := box offset true kids
def ibox (offset : Int) (kids : List Doc) : List Doc := box offset false kids

mutual

def Doc.width : Doc → Nat
  | .text s => s.utf8ByteSize
  | .brk b => b.blank
  | .box _ _ kids => widthOf kids
  | .overflow => endless

def widthOf : List Doc → Nat
  | [] => 0
  | d :: ds => d.width + widthOf ds

end

/-- A consistent box that never goes on one line if its contents are wider than `limit`. -/
def cboxAtMost (limit : Nat) (offset : Int) (kids : List Doc) : List Doc :=
  cbox offset (if limit < widthOf kids then kids ++ [.overflow] else kids)

def eachLast {α : Type} (f : Bool → α → List Doc) : List α → List Doc
  | [] => []
  | [a] => f true a
  | a :: as => f false a ++ eachLast f as

/-- Elements with `between` in front of all but the first. -/
def interleaved {α : Type} (between : List Doc) (f : α → List Doc) : List α → List Doc
  | [] => []
  | [a] => f a
  | a :: as => f a ++ between ++ interleaved between f as

/-- The text so far and the state of its last line. -/
structure Page where
  out : String
  /-- Columns left on the line. -/
  room : Int
  /-- Indentation of the lines to come. -/
  indent : Int
  /-- Blanks that are written before the next word, and not before a line end. -/
  pending : Nat

namespace Page

def blank : Page := ⟨"", margin, 0, 0⟩

def flush (p : Page) : Page :=
  { p with out := p.out ++ String.ofList (List.replicate p.pending ' '), pending := 0 }

def write (p : Page) (s : String) : Page :=
  let p := p.flush
  { p with out := p.out ++ s, room := p.room - s.utf8ByteSize }

def goOn (p : Page) (b : Break) : Page :=
  let p := { p with pending := p.pending + b.blank, room := p.room - b.blank }
  match b.inLine with
  | some c => { p with out := p.out.push c, room := p.room - c.utf8Size }
  | none => p

def newLine (p : Page) (b : Break) : Page :=
  let p :=
    match b.atEnd with
    | some c =>
      let p := p.flush
      { p with out := p.out.push c }
    | none => p
  let indent := p.indent + b.offset
  let p := { p with
    out := p.out.push '\n', pending := indent.toNat, room := max (margin - indent) leastRoom }
  if b.atStart.isEmpty then p else p.write b.atStart

end Page

inductive Frame where
  | fits
  | consistent
  | inconsistent

/-- Columns up to the next break among `ds`, or beyond their end. -/
def toBreak (beyond : Nat) : List Doc → Nat
  | [] => beyond
  | .brk _ :: _ => 0
  | d :: ds => d.width + toBreak beyond ds

def Break.put (b : Break) (frame : Frame) (size : Nat) (p : Page) : Page :=
  let fits := b.never ||
    match frame with
    | .fits => true
    | .consistent => false
    | .inconsistent => (size : Int) ≤ p.room
  if fits then p.goOn b else p.newLine b

mutual

def Doc.put (frame : Frame) (beyond : Nat) : Doc → Page → Page
  | .text s, p => p.write s
  | .brk b, p => b.put frame (b.blank + beyond) p
  | .overflow, p => p
  | .box offset consistent kids, p =>
    if p.room < (widthOf kids + beyond : Nat) then
      let inner := putAll (if consistent then .consistent else .inconsistent) beyond kids
        { p with indent := p.indent + offset }
      { inner with indent := p.indent }
    else putAll .fits beyond kids p

def putAll (frame : Frame) (beyond : Nat) : List Doc → Page → Page
  | [], p => p
  | d :: ds, p => putAll frame beyond ds (d.put frame (toBreak beyond ds) p)

end

def render (ds : List Doc) : String :=
  (putAll .inconsistent 0 ds Page.blank).out

end Statechart.Target.Layout
