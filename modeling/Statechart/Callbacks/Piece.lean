import Statechart.Callbacks.Routine
import Statechart.Report.Work

/-!
The pieces of a structured callback.

A piece that begins with an event or a port is a list of words; any other piece is literal code,
commas included.
-/
set_option autoImplicit false

namespace Statechart

open Target (Tree Ident)

def readIdent (origin text : String) : Except Error Ident :=
  match Target.Fragment.ident? (Text.trim text) with
  | some i => .ok i
  | none => .error (.invalidIdentifier origin (Text.trim text))

inductive Word where
  | event (resolved : Resolved)
  | port (name : String)
  | literal
  deriving DecidableEq, Repr

namespace Word

/-- Tells events and ports from code. A name found in several groups is an error. -/
def classify (c : Chart) (context word : String) : Except Error Word :=
  let word := Text.trim word
  match lookupEvent c.groups context word with
  | .ok resolved => .ok (event resolved)
  | .error (.unresolved ..) =>
    .ok (if (c.enabledPort? word).isSome then port word else literal)
  | .error e => .error e

def ofPiece (c : Chart) (context piece : String) : Except Error (List String) := do
  let parts := Text.split ',' piece
  match ← classify c context (parts.headD "") with
  | literal => return [Text.trim piece]
  | _ => return (parts.map Text.trim).filter (!·.isEmpty)

def split (c : Chart) (context : String) : List String → Except Error (List String)
  | [] => .ok []
  | piece :: pieces => do
    let words ← ofPiece c context piece
    return words ++ (← split c context pieces)

end Word

def EventPath.read (origin qualified : String) : Except Error EventPath :=
  match Text.cut? (· = '.') qualified with
  | some (group, event) => do
    return ⟨← readIdent origin group, ← readIdent origin event⟩
  | none => .error (.unresolved origin .event qualified)

/-- A word that is no expression stands for its own text. -/
def Datum.ofWord (word : String) : Datum :=
  match Target.Fragment.expr? word with
  | some tree => .expr tree
  | none => .text word

namespace Embedded

def blockText (word : String) : String :=
  let code := Text.trim word
  let code := if Text.startsWith "send_event(" code then "param." ++ code else code
  if Text.endsWith ";" code || Text.endsWith "\x7d" code then code else code ++ ";"

def statements {σ : Type} (callback word : String) (limited : Bool) :
    Work Error σ (List Tree) := do
  if limited then Work.fail (.refusedCode callback word .limited)
  else
    let code := blockText word
    match Target.Fragment.block? ("\x7b " ++ code ++ " \x7d") with
    | none => Work.fail (.refusedCode callback word .unparsable)
    | some block =>
      if !Design.beginsAsCode code then
        Work.warn .embeddedCode s!"{callback}: '{Text.trim word}' copied as embedded code"
      return Target.Fragment.stmts block

end Embedded

end Statechart
