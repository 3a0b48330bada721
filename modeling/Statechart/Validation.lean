import Statechart.Validation.Transitions

/-!
All checks of a chart, in the order of a compilation.
-/
set_option autoImplicit false

namespace Statechart.Validation

def events : Check Unit := do
  allocateEventIds
  resolveSuppressed
  verifyPorts

def starts : Check Unit := do
  verifyStateParents
  verifyTransitionStates
  verifyStartTransitions

def all : Check Unit := do
  events
  starts
  checkTransitions

end Statechart.Validation
