import Statechart.Module.Tables

/-!
The constructor of a chart: a list of wirings.

Each wiring adds a state, declares a start or the end, or adds a transition. States come first, each
after its parent. The start of a parent is declared before the first transition out of it.
-/
set_option autoImplicit false

namespace Statechart.Module

open Target

def takeReady (ordered : List State) : List State → List State
  | [] => ordered
  | s :: ss =>
    let ready :=
      match s.parent with
      | none => true
      | some parent => ordered.any (·.name == parent)
    if !ordered.any (·.name == s.name) && ready then takeReady (ordered ++ [s]) ss
    else takeReady ordered ss

def orderFrom (enabled : List State) : (rounds : Nat) → List State → List State
  | 0, ordered => ordered
  | rounds + 1, ordered =>
    let next := takeReady ordered enabled
    if next.length = ordered.length then ordered else orderFrom enabled rounds next

/-- Enabled states, each after its parent, in declaration order otherwise. A round that is not the
last adds a state, so there are no more rounds than states. -/
def parentFirst (c : Chart) : List State :=
  let enabled := c.enabledStates
  orderFrom enabled enabled.length []

inductive Wiring where
  | addState (binding parent : Ident) (name : String) (kind : StateKind) (hooks : StateHooks)
  | startState (binding owner : Ident)
  | endState (binding : Ident)
  | addTransition (source target : Ident) (event : Option EventPath) (hooks : TransitionHooks)
  deriving Repr

def topName : Ident := ⟨false, "top"⟩

def endName : Ident := ⟨false, "end"⟩

def startTopName : Ident := ⟨false, "start_top"⟩

structure Scope where
  /-- For each state by name. -/
  states : List (String × Ident) := []
  /-- For each parent with a declared start. -/
  starts : List (Option String × Ident) := []
  ended : Bool := false

def missing {α : Type} (referent : Referent) (reference : String) : Except Fault α :=
  .error (.rejected (.unresolved "build_statechart" referent reference))

def found {α : Type} (referent : Referent) (reference : String) : Option α → Except Fault α
  | some a => .ok a
  | none => missing referent reference

def rejecting {α : Type} (r : Except Error α) : Except Fault α :=
  r.mapError .rejected

def checkHooks (hooks : List Hook) : Except Fault Unit := do
  let _ ← mapAll Hook.tokens hooks

def parentVariable (scope : Scope) : Option String → Except Fault Ident
  | none => .ok topName
  | some parent => found .parentState parent (scope.states.lookup parent)

def addState (callbacks : Callbacks) (scope : Scope) (s : State) :
    Except Fault (Scope × Wiring) := do
  let binding := (← rejecting (readIdent s.origin s.name)).within "st_"
  let parent ← parentVariable scope s.parent
  let hooks ← found .stateCallbacks s.name (callbacks.states.lookup s.name)
  checkHooks [hooks.entry, hooks.during, hooks.exit]
  return ({ scope with states := (s.name, binding) :: scope.states },
    .addState binding parent s.name s.kind hooks)

def addStates (callbacks : Callbacks) :
    Scope → List State → Except Fault (Scope × List Wiring)
  | scope, [] => .ok (scope, [])
  | scope, s :: ss => do
    let (scope, w) ← addState callbacks scope s
    let (scope, ws) ← addStates callbacks scope ss
    return (scope, w :: ws)

def endpointVariable (scope : Scope) : Endpoint → Except Fault Ident
  | .stop => .ok endName
  | .state name => found .state name (scope.states.lookup name)
  | .start => missing .state Endpoint.start.label

/-- Where a start transition comes from, declared if it is not yet. -/
def startVariable (c : Chart) (scope : Scope) (t : Transition) :
    Except Fault (Scope × Ident × List Wiring) := do
  let target ← found .state t.target.label (t.target.state?.bind c.state?)
  match scope.starts.lookup target.parent with
  | some binding => return (scope, binding, [])
  | none =>
    let binding ←
      match target.parent with
      | none => .ok startTopName
      | some parent => (rejecting (readIdent t.name parent)).map (Ident.within "start_")
    let owner ← parentVariable scope target.parent
    return ({ scope with starts := (target.parent, binding) :: scope.starts }, binding,
      [.startState binding owner])

def sourceVariable (c : Chart) (scope : Scope) (t : Transition) :
    Except Fault (Scope × Ident × List Wiring) :=
  match t.source with
  | .start => startVariable c scope t
  | endpoint => do return (scope, ← endpointVariable scope endpoint, [])

/-- The end is declared before its first use as a target. -/
def declareEnd (scope : Scope) (t : Transition) : Scope × List Wiring :=
  if t.target = .stop && !scope.ended then ({ scope with ended := true }, [.endState endName])
  else (scope, [])

def eventOf (t : Transition) : Except Fault (Option EventPath) :=
  match t.event with
  | none => .ok none
  | some event => (rejecting (EventPath.read t.name event)).map some

def addTransition (c : Chart) (callbacks : Callbacks) (scope : Scope) (t : Transition) :
    Except Fault (Scope × List Wiring) := do
  let (scope, source, start) ← sourceVariable c scope t
  let (scope, stop) := declareEnd scope t
  let target ← endpointVariable scope t.target
  let event ← eventOf t
  let hooks ← found .transitionCallbacks t.name (callbacks.transitions.lookup t.name)
  checkHooks [hooks.guard, hooks.action]
  return (scope, start ++ stop ++ [.addTransition source target event hooks])

def addTransitions (c : Chart) (callbacks : Callbacks) :
    Scope → List Transition → Except Fault (List Wiring)
  | _, [] => .ok []
  | scope, t :: ts => do
    let (scope, ws) ← addTransition c callbacks scope t
    return ws ++ (← addTransitions c callbacks scope ts)

def wirings (c : Chart) (callbacks : Callbacks) : Except Fault (List Wiring) := do
  let (scope, states) ← addStates callbacks {} (parentFirst c)
  return states ++ (← addTransitions c callbacks scope c.enabledTransitions)

def letCall (binding : Ident) (method : String) (arguments : List (List Token)) : List Token :=
  code "let" ++ binding.tokens ++ code "= sc ." ++ Token.word method ++
    Token.parens (Token.commaSeparated arguments) ++ Token.op ";"

namespace Wiring

def tokens : Wiring → Except Fault (List Token)
  | addState binding parent name kind hooks => do
    return letCall binding "add_state" [
      parent.tokens, stringLiteral name, code "StateKind ::" ++ Token.word kind.name,
      ← hooks.entry.tokens, ← hooks.during.tokens, ← hooks.exit.tokens]
  | startState binding owner => return letCall binding "start_state" [owner.tokens]
  | endState binding => return letCall binding "end_state" []
  | addTransition source target event hooks => do
    let event :=
      match event with
      | some path => code "Some" ++ Token.parens path.tokens
      | none => code "None"
    return code "sc . add_transition" ++ Token.parens (Token.commaSeparated [
      source.tokens, target.tokens, event, ← hooks.guard.tokens, ← hooks.action.tokens]) ++
      Token.op ";"

end Wiring

def buildStatechart (c : Chart) (callbacks : Callbacks) (chart : Ident) :
    Except Fault (List Token) := do
  let body ← mapAll Wiring.tokens (← wirings c callbacks)
  return code "pub fn build_statechart () -> Statechart <" ++ chart.tokens ++ Token.op ">" ++
    Token.braces (
      code "let mut sc = Statechart :: new" ++ Token.parens (chart.tokens ++ code ":: NAME") ++
      code "; let top = sc . root () ;" ++ body.flatten ++ code "sc")

end Statechart.Module
