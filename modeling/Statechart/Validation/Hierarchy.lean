import Statechart.Validation.Events

/-!
The hierarchy of states, and what disabled states take with them.
-/
set_option autoImplicit false

namespace Statechart.Validation

def disableState (i : Nat) (c : Chart) : Chart :=
  { c with states := c.states.modify i fun s => { s with disabled := true } }

/-- Disables the state at `i` if its parent is disabled, and tells whether it did. -/
def cascadeAt (i : Nat) : Check Bool := do
  let c ← Work.get
  match (c.states[i]?).filter (!·.disabled) with
  | none => return false
  | some s =>
    match s.parent with
    | none => return false
    | some parent =>
      match c.state? parent with
      | none => Work.fail (.unresolved s.origin .parentState parent)
      | some p =>
        if p.disabled then
          Work.modify (disableState i)
          Work.warn .cascadingDisable
            s!"state {s.name} disabled because its parent {p.name} is disabled"
          return true
        else return false

/-- Goes through the states until nothing changes, `rounds` times at most. Each round but the last
disables a state, so one more round than there are states is enough. -/
def cascade : (rounds : Nat) → Check Unit
  | 0 => return ()
  | rounds + 1 => do
    let changes ← Work.collect cascadeAt (List.range (← Work.get).states.length)
    if changes.any id then cascade rounds

inductive Ancestry where
  /-- The state, its parent and so on, up to a top-level state. -/
  | complete (names : List String)
  /-- A disabled state was met on the way. -/
  | disabled (name : String)
  deriving DecidableEq, Repr

/-- Goes up from `current`, after the states `names`. More steps than there are states mean that
the state `name` is its own ancestor. -/
def ancestryFrom (c : Chart) (name : String) :
    (steps : Nat) → (names : List String) → (current : String) → Except Error Ancestry
  | steps, names, current =>
    match c.state? current with
    | none => .error (.unresolved "hierarchy" .state current)
    | some s =>
      if s.disabled then .ok (.disabled s.name)
      else
        match steps with
        | 0 => .error (.parentCycle name)
        | steps + 1 =>
          match s.parent with
          | none => .ok (.complete (names ++ [s.name]))
          | some parent => ancestryFrom c name steps (names ++ [s.name]) parent

def ancestry (c : Chart) (name : String) : Except Error Ancestry :=
  ancestryFrom c name (c.states.length + 1) [] name

def verifyStateParents : Check Unit := do
  cascade ((← Work.get).states.length + 1)
  let c ← Work.get
  Work.each (fun s => do let _ ← Work.ofExcept (ancestry c s.name)) c.enabledStates

def disableTransition (i : Nat) (c : Chart) : Chart :=
  { c with transitions := c.transitions.modify i fun t => { t with disabled := true } }

/-- A disabled state among the ends of a transition; the target counts before the source. -/
def disabledEnd (c : Chart) (t : Transition) : Except Error (Option String) := do
  let source ← one t.source
  let target ← one t.target
  return target.or source
where
  one (e : Endpoint) : Except Error (Option String) :=
    match e.state? with
    | none => .ok none
    | some name =>
      match c.state? name with
      | none => .error (.unresolved t.name .state name)
      | some s => .ok (if s.disabled then some s.name else none)

def disableAt (i : Nat) (t : Transition) (state : String) : Check Unit := do
  Work.modify (disableTransition i)
  Work.warn .cascadingDisable s!"{t.name} disabled because state {state} is disabled"

def eachEnabled (f : Nat → Transition → Check Unit) : Check Unit := do
  Work.each (fun i => do
    match ((← Work.get).transitions[i]?).filter (!·.disabled) with
    | some t => f i t
    | none => return ()) (List.range (← Work.get).transitions.length)

def verifyTransitionStates : Check Unit :=
  eachEnabled fun i t => do
    match ← Work.ofExcept (disabledEnd (← Work.get) t) with
    | some state => disableAt i t state
    | none => return ()

def startsInto (c : Chart) (name : String) : Bool :=
  c.enabledTransitions.any fun t => t.source = .start && t.target.state? = some name

def siblings (c : Chart) (s : State) : List String :=
  (c.enabledStates.filter (·.parent = s.parent)).map State.name

def startWarnings (c : Chart) : List String :=
  (c.enabledStates.filter fun s => s.kind.isComposite && !startsInto c s.name).map fun s =>
    s!"no Start transition into composite state {s.name}, it is never entered by default"

/-- The first of the states that is not composite and has no sibling, nor itself, to start with.
Siblings are looked at once: `checked` has the parents of those that were. -/
def unstartedAmong (c : Chart) : (checked : List (Option String)) → List State → Option State
  | _, [] => none
  | checked, s :: rest =>
    if s.kind.isComposite || checked.contains s.parent then unstartedAmong c checked rest
    else if (siblings c s).any (startsInto c) then unstartedAmong c (s.parent :: checked) rest
    else some s

def unstarted? (c : Chart) : Option State :=
  unstartedAmong c [] c.enabledStates

/-- Among states that are not composite and their siblings, one has to be started. -/
def verifyStartTransitions : Check Unit := do
  let c ← Work.get
  Work.warnAll .designSmell (startWarnings c)
  match unstarted? c with
  | some s =>
    let disabled := c.transitions.filter fun t => t.disabled && t.source = .start
    Work.note .debug "disabled Start transitions in design"
      [("disabled", toString disabled.length)]
    Work.fail (.missingStart (siblings c s))
  | none => Work.note .info "start transitions verified" []

end Statechart.Validation
