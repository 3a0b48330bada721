import Statechart.Design.File

/-!
Families of numbered sections.

A family comes in chunks. The first holds `STATE_1`, `STATE_2`, …, the next ones `STATE_1_1`, … and
`STATE_2_1`, … and so on, up to the first chunk that is empty. The first chunk may be empty.
-/
set_option autoImplicit false

namespace Statechart.Design.File

def chunk (f : File) (base : String) : List Section :=
  numberedRun f.sections.length fun n => f.section? s!"{base}{n}"

/-- The chunks with numbers from `c` on, up to the first empty one. -/
def chunksFrom (f : File) (family : String) : (limit c : Nat) → List Section
  | 0, _ => []
  | limit + 1, c =>
    match f.chunk s!"{family}{c}_" with
    | [] => []
    | found => found ++ chunksFrom f family limit (c + 1)

def family (f : File) (family : String) : List Section :=
  f.chunk family ++ f.chunksFrom family f.sections.length 1

def isNumberedHeader (family line : String) : Bool :=
  match Text.dropHead? ("[" ++ family) (Text.trimStart line) with
  | some rest => rest.toList.head?.any Text.isDigit
  | none => false

def headerCount (f : File) (family : String) : Nat :=
  (f.lines.filter (isNumberedHeader family)).length

/-- Reads a family and warns if its size differs from the number of its headers. -/
def readFamily {σ : Type} (f : File) (family : String) : Work Error σ (List Section) := do
  let found := f.family family
  let headers := f.headerCount family
  if headers ≠ found.length then
    Work.warn .sectionCountMismatch
      (s!"{headers} [{family}*] headers in {f.label} but {found.length} sections collected, " ++
        "check for duplicated or misnumbered sections")
  return found

def requireFamily {σ : Type} (f : File) (family : String) : Work Error σ (List Section) := do
  match ← f.readFamily family with
  | [] => Work.fail (.missingSection f.label s!"{family}1")
  | found => return found

end Statechart.Design.File
