import Statechart.Chart.Callback

/-!
States and their kinds.
-/
set_option autoImplicit false

namespace Statechart

inductive StateKind where
  | simple
  | hierarchical
  | concurrent
  | history
  deriving DecidableEq, Repr

namespace StateKind

def accepted : String := "State, HierarchicalState, ConcurrentState or HistoryState"

def ofText? (text : String) : Option StateKind :=
  match Text.trim text with
  | "State" => some simple
  | "Simple" => some simple
  | "SimpleState" => some simple
  | "HierarchicalState" => some hierarchical
  | "Hierarchical" => some hierarchical
  | "ConcurrentState" => some concurrent
  | "Concurrent" => some concurrent
  | "HistoryState" => some history
  | "History" => some history
  | _ => none

def name : StateKind → String
  | simple => "Simple"
  | hierarchical => "Hierarchical"
  | concurrent => "Concurrent"
  | history => "History"

def isComposite : StateKind → Bool
  | hierarchical => true
  | concurrent => true
  | _ => false

end StateKind

structure State where
  /-- The section it was read from. -/
  origin : String
  name : String
  /-- None for a top-level state. -/
  parent : Option String
  kind : StateKind
  entry : Callback
  during : Callback
  exit : Callback
  disabled : Bool
  deriving DecidableEq, Repr

end Statechart
