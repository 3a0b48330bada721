import Statechart.Compile.Settings
import Statechart.Text.Split

/-!
The arguments of the command line.

An option takes the next argument as its value, or what is attached to it: `-dlamp.ini`,
`-d=lamp.ini`, `--design=lamp.ini`. An option is settled when the next one begins, so its faults
come to light there. After `--` nothing may follow.
-/
set_option autoImplicit false

namespace Statechart

/-- Why the command line cannot be used, or what it asks for instead. -/
inductive Usage where
  | missingRequired
  | unknownArgument
  | invalidValue
  | repeated
  | tooManyValues
  | help
  | version
  deriving DecidableEq, Repr

structure Arguments where
  settings : Settings
  /-- The chart is printed as JSON. -/
  dumpModel : Bool
  deriving DecidableEq, Repr

namespace Arguments

inductive Parameter where
  | design
  | output
  | callbacks
  deriving DecidableEq, Repr

inductive Flag where
  | check
  | dumpModel
  | help
  | version
  deriving DecidableEq, Repr

structure Draft where
  values : List (Parameter × String) := []
  flags : List Flag := []
  /-- An option that is not settled, with its value once that is there. -/
  pending : Option (Parameter × Option String) := none

namespace Draft

def put (p : Draft) (o : Parameter) (value : String) : Except Usage Draft :=
  if (p.values.lookup o).isSome then .error .repeated
  else if value.isEmpty then .error .invalidValue
  else .ok { p with values := (o, value) :: p.values }

def settle (p : Draft) : Except Usage Draft :=
  match p.pending with
  | none => .ok p
  | some (_, none) => .error .invalidValue
  | some (o, some value) => { p with pending := none }.put o value

def option (p : Draft) (o : Parameter) (attached : Option String) : Except Usage Draft := do
  let p ← p.settle
  match attached with
  | some value => p.put o value
  | none => return { p with pending := some (o, none) }

def flag (p : Draft) (f : Flag) : Except Usage Draft := do
  let p ← p.settle
  match f with
  | .help => .error .help
  | .version => .error .version
  | f => if p.flags.contains f then .error .repeated else return { p with flags := f :: p.flags }

end Draft

def longOption? : String → Option Parameter
  | "design" => some .design
  | "output" => some .output
  | "callbacks" => some .callbacks
  | _ => none

def longFlag? : String → Option Flag
  | "check" => some .check
  | "dump-model" => some .dumpModel
  | "help" => some .help
  | "version" => some .version
  | _ => none

def long (p : Draft) (text : String) : Except Usage Draft :=
  let (name, attached) :=
    match Text.cut? (· = '=') text with
    | some (name, value) => (name, some value)
    | none => (text, none)
  match longOption? name, longFlag? name with
  | some o, _ => p.option o attached
  | none, some f => if attached.isSome then .error .tooManyValues else p.flag f
  | none, none => .error .unknownArgument

def shortOption? : Char → Option Parameter
  | 'd' => some .design
  | 'o' => some .output
  | 'c' => some .callbacks
  | _ => none

def shortFlag? : Char → Option Flag
  | 'h' => some .help
  | 'V' => some .version
  | _ => none

/-- What follows the letter of an option, without an equals sign at its beginning. -/
def attached? : List Char → Option String
  | [] => none
  | '=' :: cs => some (String.ofList cs)
  | cs => some (String.ofList cs)

def short (p : Draft) : List Char → Except Usage Draft
  | [] => .ok p
  | c :: cs =>
    match shortOption? c, shortFlag? c with
    | some o, _ => p.option o (attached? cs)
    | none, some f => do short (← p.flag f) cs
    | none, none => .error .unknownArgument

/-- An argument that is no option: the value of the one before it. -/
def value (p : Draft) (text : String) : Except Usage Draft :=
  match p.pending with
  | some (o, none) => .ok { p with pending := some (o, some text) }
  | _ => .error .unknownArgument

def one (p : Draft) (arg : String) : Except Usage Draft :=
  match arg.toList with
  | '-' :: '-' :: cs => long p (String.ofList cs)
  | '-' :: c :: cs => short p (c :: cs)
  | _ => value p arg

def all : Draft → List String → Except Usage Draft
  | p, [] => p.settle
  | p, ["--"] => p.settle
  | _, "--" :: _ => .error .unknownArgument
  | p, arg :: args => do all (← one p arg) args

def parse (args : List String) : Except Usage Arguments := do
  let p ← all {} args
  match p.values.lookup .design with
  | none => .error .missingRequired
  | some design =>
    return {
      settings := {
        design := ⟨design⟩
        output := (p.values.lookup .output).map Path.mk
        callbacks := (p.values.lookup .callbacks).map Path.mk
        checkOnly := p.flags.contains .check }
      dumpModel := p.flags.contains .dumpModel }

end Arguments

end Statechart
