import Statechart.Chart.Callback

/-!
Transitions between states, from the start of a chart and to its end.
-/
set_option autoImplicit false

namespace Statechart

inductive Endpoint where
  | start
  | stop
  | state (name : String)
  deriving DecidableEq, Repr

namespace Endpoint

def ofText (text : String) : Endpoint :=
  let text := Text.trim text
  if Text.sameLetters text "start" then start
  else if Text.sameLetters text "end" then stop
  else state text

def state? : Endpoint → Option String
  | state name => some name
  | _ => none

def label : Endpoint → String
  | start => "Start"
  | stop => "End"
  | state name => name

end Endpoint

structure Transition where
  /-- The name of its section. -/
  name : String
  source : Endpoint
  target : Endpoint
  event : Option String
  guard : Callback
  action : Callback
  disabled : Bool
  deriving DecidableEq, Repr

namespace Transition

def arrow (t : Transition) : String :=
  s!"{t.source.label} -> {t.target.label}"

end Transition

end Statechart
