import Statechart.Chart
import Statechart.Design.Section

/-!
The settings of a design, read from its section.
-/
set_option autoImplicit false

namespace Statechart.Reading

open Design

def flag (s : Section) (key : String) (default : Bool) : Bool :=
  match s.get? key with
  | some text => isSet text
  | none => default

/-- The file with hand-written callbacks; `false` stands for none as well. -/
def overrides? (s : Section) : Option Path :=
  ((s.get? "insertcb").bind present?).bind fun text =>
    if Text.sameLetters text "false" then none else some ⟨text⟩

def options {σ : Type} (s : Section) : Work Error σ Options := do
  let defaults : Options := {}
  let options : Options := {
    debug := flag s "debug" defaults.debug
    print := flag s "print" defaults.print
    limitActions := flag s "limitaction" defaults.limitActions
    genCode := flag s "gencode" defaults.genCode
    genCallbacks := flag s "gencallbacks" defaults.genCallbacks
    interpret := flag s "interpret" defaults.interpret
    overrides := overrides? s
    runtime := ((s.get? "runtime").bind present?).getD defaults.runtime }
  if options.interpret then
    Work.warn .ignoredOption
      "Interpret is set but the interactive shell is not part of this tool, ignoring"
  return options

end Statechart.Reading
