import Statechart.Chart.Event
import Statechart.Chart.Port
import Statechart.Chart.State
import Statechart.Chart.Transition
import Statechart.Path

/-!
Charts: everything that a design says about one statechart.
-/
set_option autoImplicit false

namespace Statechart

structure Options where
  /-- Stubs print the transition they belong to. -/
  debug : Bool := false
  /-- The generated module is printed as well. -/
  print : Bool := false
  /-- Literal code in callbacks is an error. -/
  limitActions : Bool := false
  /-- Without it the design is only checked. -/
  genCode : Bool := true
  /-- The callbacks are written to a file of their own as well. -/
  genCallbacks : Bool := false
  interpret : Bool := false
  overrides : Option Path := none
  /-- The library that the generated module imports. -/
  runtime : String := "scb_runtime"
  deriving DecidableEq, Repr

structure Chart where
  name : String
  options : Options := {}
  /-- Source lines that stand at the front of the generated module. -/
  initial : List String := []
  states : List State := []
  groups : List EventGroup := []
  /-- Events that are not traced. -/
  suppressed : List String := []
  transitions : List Transition := []
  transport : Option Transport := none
  ports : List Port := []
  deriving DecidableEq, Repr

namespace Chart

def state? (c : Chart) (name : String) : Option State :=
  c.states.find? (·.name == name)

def enabledState? (c : Chart) (name : String) : Option State :=
  (c.state? name).filter (!·.disabled)

def enabledStates (c : Chart) : List State :=
  c.states.filter (!·.disabled)

def enabledTransitions (c : Chart) : List Transition :=
  c.transitions.filter (!·.disabled)

def group? (c : Chart) (name : String) : Option EventGroup :=
  c.groups.find? (·.name == name)

def port? (c : Chart) (name : String) : Option Port :=
  c.ports.find? (·.name == name)

def enabledPort? (c : Chart) (name : String) : Option Port :=
  (c.port? name).filter (!·.disabled)

def enabledPorts (c : Chart) : List Port :=
  c.ports.filter (!·.disabled)

end Chart

end Statechart
