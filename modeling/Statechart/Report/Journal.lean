import Statechart.Report.Warning

/-!
The journal of a compilation: warnings and notes in the order in which they were made.

A warning has no number of its own. Its number is its position among the warnings, so journals of
successive steps are joined by appending them.
-/
set_option autoImplicit false

namespace Statechart

inductive Level where
  | debug
  | info
  | warn
  | error
  deriving DecidableEq, Repr

namespace Level

def name : Level → String
  | debug => "DEBUG"
  | info => "INFO"
  | warn => "WARN"
  | error => "ERROR"

end Level

structure Note where
  level : Level
  message : String
  fields : List (String × String) := []
  deriving DecidableEq, Repr

inductive Entry where
  | warning (w : Warning)
  | note (n : Note)
  deriving DecidableEq, Repr

abbrev Journal := List Entry

namespace Journal

def warnings : Journal → List Warning
  | [] => []
  | .warning w :: j => w :: warnings j
  | .note _ :: j => warnings j

def notesFrom (count : Nat) : Journal → List Note
  | [] => []
  | .warning w :: j =>
    ⟨.warn, w.message, [("number", toString (count + 1)), ("kind", w.concern.name)]⟩ ::
      notesFrom (count + 1) j
  | .note n :: j => n :: notesFrom count j

def notes (j : Journal) : List Note :=
  notesFrom 0 j

@[simp] theorem warnings_append (j k : Journal) :
    (j ++ k : Journal).warnings = j.warnings ++ k.warnings := by
  induction j with
  | nil => rfl
  | cons e j ih => cases e <;> simp [warnings, ih]

end Journal

end Statechart
