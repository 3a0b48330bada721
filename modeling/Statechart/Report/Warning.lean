/-!
Warnings: findings that do not stop a compilation.
-/
set_option autoImplicit false

namespace Statechart

inductive Concern where
  /-- Questionable but legal. -/
  | designSmell
  /-- Disabled because something it depends on is disabled. -/
  | cascadingDisable
  | autoAssignedBase
  | autoQualifiedEvent
  | embeddedCode
  | ambiguousSeparator
  | sectionCountMismatch
  | missingOptional
  | orphanedOverride
  | ignoredOption
  deriving DecidableEq, Repr

namespace Concern

def name : Concern → String
  | designSmell => "DesignSmell"
  | cascadingDisable => "CascadingDisable"
  | autoAssignedBase => "AutoAssignedBase"
  | autoQualifiedEvent => "AutoQualifiedEvent"
  | embeddedCode => "EmbeddedCode"
  | ambiguousSeparator => "AmbiguousSeparator"
  | sectionCountMismatch => "SectionCountMismatch"
  | missingOptional => "MissingOptional"
  | orphanedOverride => "OrphanedOverride"
  | ignoredOption => "IgnoredOption"

end Concern

structure Warning where
  concern : Concern
  message : String
  deriving DecidableEq, Repr

/-- A warning with its place in the order of a compilation, counted from one. -/
structure NumberedWarning where
  number : Nat
  warning : Warning
  deriving DecidableEq, Repr

namespace NumberedWarning

def text (w : NumberedWarning) : String :=
  s!"warning {w.number}: {w.warning.message}"

end NumberedWarning

namespace Warning

def numberedFrom (first : Nat) : List Warning → List NumberedWarning
  | [] => []
  | w :: ws => ⟨first, w⟩ :: numberedFrom (first + 1) ws

def numbered (ws : List Warning) : List NumberedWarning :=
  numberedFrom 1 ws

def countOf (c : Concern) (ws : List Warning) : Nat :=
  (ws.filter (·.concern = c)).length

end Warning

end Statechart
