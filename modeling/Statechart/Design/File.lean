import Statechart.Design.Section

/-!
Design files: sections read from lines.

A line that is blank or begins with `#` or `;` says nothing. An indented line goes on with the last
entry of the current section, if that section has one. Every other line is a header or an entry. A
header that was there before makes its section current again.
-/
set_option autoImplicit false

namespace Statechart.Design

inductive Line where
  | header (name : String)
  | entry (key value : String)
  | faulty (fault : LineFault)
  deriving DecidableEq, Repr

namespace Line

def ofHeader (rest : String) : Line :=
  match Text.dropTail? "]" rest with
  | some name => header (Text.trim name)
  | none => faulty .unclosedHeader

def ofEntry (text : String) : Line :=
  match Text.cut? (fun c => c = ':' || c = '=') text with
  | some (key, value) =>
    let key := Text.lower (Text.trim key)
    if key.isEmpty then faulty .emptyKey else entry key (Text.trim value)
  | none => faulty .noSeparator

def ofText (text : String) : Line :=
  match Text.dropHead? "[" text with
  | some rest => ofHeader rest
  | none => ofEntry text

end Line

/-- The sections read so far and the name of the current one. -/
structure Progress where
  sections : List Section
  current : Option String
  deriving DecidableEq, Repr

namespace Progress

def start : Progress := ⟨[], none⟩

def section? (r : Progress) (name : String) : Option Section :=
  r.sections.find? (·.name == name)

def enter (r : Progress) (name : String) : Progress :=
  if (r.section? name).isSome then ⟨r.sections, some name⟩
  else ⟨r.sections ++ [⟨name, []⟩], some name⟩

def update (r : Progress) (name : String) (f : Section → Section) : Progress :=
  { r with sections := r.sections.map fun s => if s.name == name then f s else s }

def continued? (r : Progress) : Option String :=
  r.current.filter fun name => (r.section? name).any (!·.items.isEmpty)

def take (r : Progress) : Line → Except LineFault Progress
  | .header name => .ok (r.enter name)
  | .entry key value =>
    match r.current with
    | some name => .ok (r.update name (·.put key value))
    | none => .error .outsideSection
  | .faulty .unclosedHeader => .error .unclosedHeader
  | .faulty fault => .error (if r.current.isSome then fault else .outsideSection)

def isComment (text : String) : Bool :=
  Text.startsWith "#" text || Text.startsWith ";" text

def isIndented (text : String) : Bool :=
  text.toList.head?.any Text.isBlank

def line (r : Progress) (text : String) : Except LineFault Progress :=
  if Text.isBlankText text || isComment text then .ok r
  else
    match if isIndented text then r.continued? else none with
    | some name => .ok (r.update name (·.continueLast (Text.trim text)))
    | none => r.take (Line.ofText (Text.trim text))

def lines (label : String) : Nat → Progress → List String → Except Error Progress
  | _, r, [] => .ok r
  | n, r, text :: texts =>
    match r.line text with
    | .ok r => lines label (n + 1) r texts
    | .error fault => .error (.malformedLine label n fault)

end Progress

/-- A design file: its label, its lines and its sections in order of first appearance. -/
structure File where
  label : String
  lines : List String
  sections : List Section
  deriving DecidableEq, Repr

namespace File

def parse (label text : String) : Except Error File :=
  let lines := Text.lines text
  (Progress.lines label 1 .start lines).map fun r => ⟨label, lines, r.sections⟩

def section? (f : File) (name : String) : Option Section :=
  f.sections.find? (·.name == name)

def requireSection (f : File) (name : String) : Except Error Section :=
  match f.section? name with
  | some s => .ok s
  | none => .error (.missingSection f.label name)

end File

end Statechart.Design
