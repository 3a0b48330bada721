import Statechart.Report.Work
import Statechart.Text.Blank
import Statechart.Text.Letter
import Statechart.Text.Split

/-!
Sections of a design: named lists of entries.

Keys are compared without regard to the case of ASCII letters and kept in lower case. A key that is
not there itself may be given as a numbered run `key_1`, `key_2`, ….
-/
set_option autoImplicit false

namespace Statechart.Design

/-- The values of `get` at `n`, `n + 1`, … up to the first gap, `limit` of them at most. -/
def runFrom {α : Type} (get : Nat → Option α) : (limit n : Nat) → List α
  | 0, _ => []
  | limit + 1, n =>
    match get n with
    | some a => a :: runFrom get limit (n + 1)
    | none => []

def numberedRun {α : Type} (limit : Nat) (get : Nat → Option α) : List α :=
  runFrom get limit 1

structure Item where
  key : String
  value : String
  deriving DecidableEq, Repr

structure Section where
  name : String
  items : List Item
  deriving DecidableEq, Repr

inductive Value where
  | scalar (text : String)
  | list (texts : List String)
  deriving DecidableEq, Repr

namespace Value

def text : Value → String
  | scalar text => text
  | list texts => Text.unlines texts

def texts : Value → List String
  | scalar text => [text]
  | list texts => texts

end Value

def isAbsent (text : String) : Bool :=
  let text := Text.trim text
  text.isEmpty || text == "None"

def present? (text : String) : Option String :=
  if isAbsent text then none else some (Text.trim text)

def isSet (text : String) : Bool :=
  let text := Text.trim text
  Text.sameLetters text "true" || text == "1"

def codeWords : List String :=
  ["param.", "println!", "print!", "eprintln!", "return", "tracing::", "log::"]

def beginsAsCode (text : String) : Bool :=
  codeWords.any fun w => Text.startsWith w (Text.trimStart text)

namespace Section

def get? (s : Section) (key : String) : Option String :=
  (s.items.find? fun i => i.key == Text.lower key).map Item.value

def has (s : Section) (key : String) : Bool :=
  (s.get? key).isSome

/-- Gives a key its value. A key that is there already keeps its position. -/
def put (s : Section) (key value : String) : Section :=
  if s.items.any (·.key == key) then
    { s with items := s.items.map fun i => if i.key == key then ⟨key, value⟩ else i }
  else { s with items := s.items ++ [⟨key, value⟩] }

def continueLast (s : Section) (line : String) : Section :=
  match s.items.getLast? with
  | some last =>
    { s with items := s.items.dropLast ++ [⟨last.key, last.value ++ "\n" ++ line⟩] }
  | none => s

/-- The values of `key_1`, `key_2`, … up to the first gap. -/
def run (s : Section) (key : String) : List String :=
  numberedRun s.items.length fun n => s.get? s!"{key}_{n}"

/-- The value of a key, or its numbered run if that is not empty. -/
def value? (s : Section) (key : String) : Option Value :=
  match s.get? key with
  | some text => some (.scalar text)
  | none =>
    match s.run key with
    | [] => none
    | texts => some (.list texts)

/-- What follows the first semicolon of a value, if it is neither empty nor known code. -/
def looseEnd? (value : String) : Option String :=
  match Text.cut? (· = ';') value with
  | some (_, rest) =>
    let rest := Text.trim rest
    if rest.isEmpty || beginsAsCode rest then none else some rest
  | none => none

def separatorWarning? (s : Section) (key value : String) : Option String :=
  (looseEnd? value).map fun rest =>
    s!"[{s.name}] {key}: ';' before '{rest}' is neither a comment nor known code, check the value"

/-- Warnings on the values of a run, the first of which has number `n`. -/
def runWarnings (s : Section) (key : String) : Nat → List String → List String
  | _, [] => []
  | n, text :: texts =>
    (s.separatorWarning? s!"{key}_{n}" text).toList ++ runWarnings s key (n + 1) texts

def valueWarnings (s : Section) (key : String) : Value → List String
  | .scalar text => (s.separatorWarning? key text).toList
  | .list texts => runWarnings s key 1 texts

section

variable {σ : Type}

def read? (s : Section) (key : String) : Work Error σ (Option Value) :=
  match s.value? key with
  | some value => do
    Work.warnAll .ambiguousSeparator (s.valueWarnings key value)
    return some value
  | none => return none

def read (s : Section) (file key : String) : Work Error σ Value := do
  match ← s.read? key with
  | some value => return value
  | none => Work.fail (.missingKey file s.name key)

/-- Reads keys in order, up to the first that is missing. -/
def readAll (s : Section) (file : String) (keys : List String) : Work Error σ (List Value) :=
  Work.collect (s.read file) keys

end

def isDisabled (s : Section) : Bool :=
  (s.get? "disable").any isSet

end Section

end Statechart.Design
