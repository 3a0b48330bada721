import Statechart.Target.Tree
import Statechart.Text.Split

/-!
Parsing expressions over token streams.

A parsing expression is read from the front of a stream: a sequence in order, an alternative by its
first member that fits, repetitions as often as they fit. A node step extends the tree to its left,
which is how operators and trailers that associate to the left are read. Every loop reads at least
one token per round, so the length of the stream bounds it.
-/
set_option autoImplicit false

namespace Statechart.Target

/-- Reserved words, which are no identifiers unless spelled raw. -/
def keywords : List String :=
  ["abstract", "as", "async", "await", "become", "box", "break", "const", "continue", "crate",
   "do", "dyn", "else", "enum", "extern", "false", "final", "fn", "for", "if", "impl", "in", "let",
   "loop", "macro", "match", "mod", "move", "mut", "override", "priv", "pub", "ref", "return",
   "Self", "self", "static", "struct", "super", "trait", "true", "try", "type", "typeof", "unsafe",
   "unsized", "use", "virtual", "where", "while", "yield"]

def isIdentifier (text : String) : Bool :=
  text != "_" && !keywords.contains text

inductive Level where
  | assign | or | and | compare | bitOr | bitXor | bitAnd | shift | sum | product
  deriving DecidableEq, Repr

def operators : List (String × Level) :=
  [("+=", .assign), ("-=", .assign), ("*=", .assign), ("/=", .assign), ("%=", .assign),
   ("^=", .assign), ("&=", .assign), ("|=", .assign), ("<<=", .assign), (">>=", .assign),
   ("&&", .and), ("||", .or), ("<<", .shift), (">>", .shift), ("==", .compare), ("<=", .compare),
   ("!=", .compare), (">=", .compare), ("+", .sum), ("-", .sum), ("*", .product), ("/", .product),
   ("%", .product), ("^", .bitXor), ("&", .bitAnd), ("|", .bitOr), ("<", .compare),
   (">", .compare)]

/-- What follows the characters of an operator; all but its last one are joined to the next. -/
def dropOp : List Char → List Token → Option (List Token)
  | [], ts => some ts
  | [c], .punct p _ :: ts => if p = c then some ts else none
  | c :: cs, .punct p joint :: ts => if p = c && joint then dropOp cs ts else none
  | _, _ => none

def operator? (ts : List Token) : List (String × Level) → Option (String × Level × List Token)
  | [] => none
  | (text, level) :: others =>
    match dropOp text.toList ts with
    | some rest => some (text, level, rest)
    | none => operator? ts others

inductive Terminal where
  | word (text : String)
  | ident
  /-- An identifier or a reserved word. -/
  | anyIdent
  | op (text : String)
  | operator (level : Level)
  | literal
  | lifetime
  /-- The position of a member in a tuple. -/
  | position
  /-- Two positions that were read together as one number. -/
  | positions
  /-- A group whose contents are kept as tokens. -/
  | raw
  | rawBrace
  /-- Tokens from an angle bracket to the one that closes it, skipped. -/
  | angles
  | atEnd

def isPosition (text : String) : Bool :=
  !text.isEmpty && text.toList.all fun c => '0' ≤ c && c ≤ '9'

def positions? (text : String) : Option (String × String) :=
  match Text.split '.' text with
  | [a, b] => if isPosition a && isPosition b then some (a, b) else none
  | _ => none

/-- What follows the bracket that closes `depth` open ones. Those of arrows do not count. -/
def afterAngles : (depth : Nat) → List Token → Option (List Token)
  | depth, .punct '-' true :: .punct '>' _ :: ts => afterAngles depth ts
  | depth, .punct '=' true :: .punct '>' _ :: ts => afterAngles depth ts
  | depth, .punct '<' _ :: ts => afterAngles (depth + 1) ts
  | 0, _ => none
  | 1, .punct '>' _ :: ts => some ts
  | depth + 2, .punct '>' _ :: ts => afterAngles (depth + 1) ts
  | depth + 1, _ :: ts => afterAngles (depth + 1) ts
  | _ + 1, [] => none

abbrev Parser := List Token → Option (List Tree × List Token)

namespace Terminal

def read (t : Terminal) (ts : List Token) : Option (List Tree × List Token) :=
  match t, ts with
  | word text, .ident i :: rest => if i = text then some ([.leaf [.ident i]], rest) else none
  | ident, .ident i :: rest => if isIdentifier i then some ([.leaf [.ident i]], rest) else none
  | anyIdent, .ident i :: rest => some ([.leaf [.ident i]], rest)
  | op text, ts => (dropOp text.toList ts).map fun rest => ([.leaf (Token.op text)], rest)
  | operator level, ts =>
    match operator? ts operators with
    | some (text, found, rest) => if found = level then some ([.leaf (Token.op text)], rest) else none
    | none => none
  | literal, .literal l :: rest => some ([.leaf [.literal l]], rest)
  | literal, .ident i :: rest =>
    if i = "true" || i = "false" then some ([.leaf [.ident i]], rest) else none
  | lifetime, .punct '\'' true :: .ident i :: rest => some ([.leaf (Token.lifetime i)], rest)
  | position, .literal l :: rest =>
    if isPosition l then some ([.leaf [.literal l]], rest) else none
  | positions, .literal l :: rest =>
    (positions? l).map fun halves =>
      ([.leaf [.literal halves.1], .leaf (Token.op "."), .leaf [.literal halves.2]], rest)
  | raw, .group d inner :: rest => some ([.leaf [.group d inner]], rest)
  | rawBrace, .group .brace inner :: rest => some ([.leaf [.group .brace inner]], rest)
  | angles, .punct '<' _ :: rest => (afterAngles 1 rest).map fun rest => ([], rest)
  | atEnd, [] => some ([], [])
  | _, _ => none

end Terminal

inductive Peg (R : Type) where
  | term (t : Terminal)
  | call (r : R)
  | seq (ps : List (Peg R))
  | alt (ps : List (Peg R))
  /-- What `p` reads, as one list. -/
  | list (p : Peg R)
  | many (p : Peg R)
  /-- Members with separators between them, and after the last one if `trailing`. -/
  | sepBy (trailing : Bool) (sep p : Peg R)
  /-- A group read by `p` to its end. -/
  | group (d : Delim) (p : Peg R)
  | ahead (p : Peg R)
  | never (p : Peg R)
  | node (k : Kind) (p : Peg R)
  /-- A tree, extended to the left as often as `step` fits, or at most once. -/
  | grow (often : Bool) (base step : Peg R)

namespace Peg

/-- Trees of as many rounds of `p` as fit, each of which reads something. -/
def rounds (p : Parser) : Nat → List Token → List Tree × List Token
  | 0, ts => ([], ts)
  | n + 1, ts =>
    match p ts with
    | some (trees, rest) =>
      if rest.length < ts.length then
        let (more, rest) := rounds p n rest
        (trees ++ more, rest)
      else ([], ts)
    | none => ([], ts)

def separated (trailing : Bool) (sep p : Parser) : Nat → List Token → List Tree × List Token
  | 0, ts => ([], ts)
  | n + 1, ts =>
    match sep ts with
    | some (comma, rest) =>
      match p rest with
      | some (trees, rest) =>
        let (more, rest) := separated trailing sep p n rest
        (comma ++ trees ++ more, rest)
      | none => if trailing then (comma, rest) else ([], ts)
    | none => ([], ts)

/-- The tree to the left becomes the first child of the node that was read. -/
def attach (left : Tree) : List Tree → Tree
  | [.node k kids] => .node k (left :: kids)
  | _ => left

def isRange : Tree → Bool
  | .node .range _ => true
  | .node .rangeTo _ => true
  | _ => false

def growing (step : Parser) : Nat → Tree → List Token → Tree × List Token
  | 0, left, ts => (left, ts)
  | n + 1, left, ts =>
    if isRange left then (left, ts)
    else
      match step ts with
      | some (trees, rest) => growing step n (attach left trees) rest
      | none => (left, ts)

mutual

def run {R : Type} (call : R → Parser) : Peg R → List Token → Option (List Tree × List Token)
  | term t, ts => t.read ts
  | .call r, ts => call r ts
  | seq ps, ts => runSeq call ps ts
  | alt ps, ts => runAlt call ps ts
  | list p, ts => (run call p ts).map fun found => ([.list found.1], found.2)
  | many p, ts =>
    let found := rounds (run call p) ts.length ts
    some ([.list found.1], found.2)
  | sepBy trailing sep p, ts =>
    match run call p ts with
    | some (trees, rest) =>
      let found := separated trailing (run call sep) (run call p) rest.length rest
      some ([.list (trees ++ found.1)], found.2)
    | none => some ([.list []], ts)
  | group d p, ts =>
    match ts with
    | .group d' inner :: rest =>
      if d = d' then
        match run call p inner with
        | some (kids, []) => some ([.group d kids], rest)
        | _ => none
      else none
    | _ => none
  | ahead p, ts => (run call p ts).map fun _ => ([], ts)
  | never p, ts =>
    match run call p ts with
    | some _ => none
    | none => some ([], ts)
  | node k p, ts => (run call p ts).map fun found => ([.node k found.1], found.2)
  | grow often base step, ts =>
    match run call base ts with
    | some ([left], rest) =>
      let found := growing (run call step) (if often then rest.length else 1) left rest
      some ([found.1], found.2)
    | _ => none

def runSeq {R : Type} (call : R → Parser) :
    List (Peg R) → List Token → Option (List Tree × List Token)
  | [], ts => some ([], ts)
  | p :: ps, ts =>
    match run call p ts with
    | some (trees, rest) =>
      (runSeq call ps rest).map fun found => (trees ++ found.1, found.2)
    | none => none

def runAlt {R : Type} (call : R → Parser) :
    List (Peg R) → List Token → Option (List Tree × List Token)
  | [], _ => none
  | p :: ps, ts =>
    match run call p ts with
    | some found => some found
    | none => runAlt call ps ts

end

/-- Reads rule `r` of a grammar; rules may refer to each other `fuel` deep. -/
def parse {R : Type} (grammar : R → Peg R) : Nat → R → List Token → Option (List Tree × List Token)
  | 0, _, _ => none
  | fuel + 1, r, ts => run (parse grammar fuel) (grammar r) ts

/-- Reads the whole stream as one tree of rule `r`. The depth allowed exceeds what any stream of
this size can reach. -/
def parseAll {R : Type} (grammar : R → Peg R) (r : R) (ts : List Token) : Option Tree :=
  match parse grammar (64 * (Token.sizeAll ts + 2)) r ts with
  | some ([tree], []) => some tree
  | _ => none

section

variable {R : Type}

def word (text : String) : Peg R := term (.word text)
def op (text : String) : Peg R := term (.op text)
def ident : Peg R := term .ident
def nothing : Peg R := seq []

def opt (p : Peg R) : Peg R := alt [list p, list nothing]

def commas (p : Peg R) : Peg R := sepBy true (op ",") p
def parens (p : Peg R) : Peg R := group .paren p
def brackets (p : Peg R) : Peg R := group .bracket p
def braces (p : Peg R) : Peg R := group .brace p

end

end Peg

end Statechart.Target
