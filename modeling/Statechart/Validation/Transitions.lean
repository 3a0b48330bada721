import Statechart.Validation.Hierarchy

/-!
The consistency of transitions.

The checks have a fixed order. Events are compared before they are qualified, so the comparisons
see through the different ways to write one event.
-/
set_option autoImplicit false

namespace Statechart.Validation

/-- A source that is not hierarchical, below an enabled parent that is not either. -/
def untriggerable? (c : Chart) (name : String) : Option String :=
  match c.enabledState? name with
  | none => none
  | some s =>
    if s.kind = .hierarchical then none
    else
      match s.parent.bind c.enabledState? with
      | none => none
      | some p =>
        if p.kind = .hierarchical then none
        else some (s!"state {s.name} is not hierarchical, nor its parent {p.name}. " ++
          "Transition will not trigger")

/-- The members of a list without repetitions, in order of first appearance. -/
def firstUses : List String → List String
  | [] => []
  | a :: as => a :: (firstUses as).filter (· ≠ a)

def sources (c : Chart) : List String :=
  firstUses (c.enabledTransitions.filterMap (·.source.state?))

def warnUntriggerableSources : Check Unit := do
  let c ← Work.get
  Work.warnAll .designSmell ((sources c).filterMap (untriggerable? c))

/-- The event as it would be qualified, or as written if it cannot be. -/
def normalizedEvent (c : Chart) (event : String) : String :=
  match lookupEvent c.groups "" event with
  | .ok resolved => resolved.qualified
  | .error _ => Text.trim event

/-- An enabled transition to a state that the given end event drives as well. -/
def reuse? (c : Chart) (event : String) : Option Transition :=
  c.enabledTransitions.find? fun t =>
    t.target ≠ .stop && t.event.any fun e => normalizedEvent c e == event

/-- The first end transition whose event is reused, as the error it is. -/
def endEventReuse? (c : Chart) : List Transition → Option Error
  | [] => none
  | t :: ts =>
    match t.event.map (normalizedEvent c) with
    | none => endEventReuse? c ts
    | some event =>
      match reuse? c event with
      | some other => some (.reusedEndEvent other.name event other.source.label)
      | none => endEventReuse? c ts

def endTransitions (c : Chart) : List Transition :=
  c.enabledTransitions.filter (·.target = .stop)

/-- Whether the chart has an end. An event that ends it may drive no other transition. -/
def checkEndEventReuse : Check Bool := do
  let c ← Work.get
  match endEventReuse? c (endTransitions c) with
  | some e => Work.fail e
  | none => return !(endTransitions c).isEmpty

def isEventless (t : Transition) : Bool :=
  t.event.isNone && t.source ≠ .start

/-- A transition that leaves a state where the chart, or a part of it, starts. -/
def leavesDefault (c : Chart) (t : Transition) : Bool :=
  c.enabledTransitions.any fun u => u.source = .start && u.target = t.source

/-- Where a chart has an end, a transition without event out of a default state would fire on the
way to it. -/
def checkEventless (hasEnd : Bool) : Check Unit := do
  let c ← Work.get
  let found := c.enabledTransitions.filter isEventless
  match found.find? fun t => hasEnd && leavesDefault c t with
  | some t => Work.fail (.missingEvent t.name t.source.label t.target.label)
  | none =>
    Work.warnAll .designSmell (found.map fun t => s!"{t.name}: transition {t.arrow} has no event")

def setEvent (i : Nat) (event : String) (c : Chart) : Chart :=
  { c with transitions := c.transitions.modify i fun t => { t with event := some event } }

def resolveTransitionEvents : Check Unit :=
  eachEnabled fun i t => do
    match t.event with
    | none => return ()
    | some event =>
      let qualified ← resolveEvent t.name event
      Work.modify (setEvent i qualified)

/-- Goes through common ancestors from the inside out: a hierarchical one accepts, a concurrent one
refuses, and at the top the chart itself accepts. -/
def acceptedBy (c : Chart) : List String → Bool
  | [] => true
  | name :: names =>
    match (c.state? name).map State.kind with
    | some .hierarchical => true
    | some .concurrent => false
    | _ => acceptedBy c names

/-- The members of the first way up that are on the second. -/
def common (source target : List String) : List String :=
  source.filter target.contains

/-- A transition from a state to itself leaves it, so it lies in the parent. -/
def sharesAncestor (c : Chart) (s t : String) (source target : List String) : Bool :=
  let skip := if s = t then 1 else 0
  acceptedBy c (common (source.drop skip) (target.drop skip))

def checkCommonAncestors : Check Unit :=
  eachEnabled fun i t => do
    let c ← Work.get
    match t.source.state?, t.target.state? with
    | some source, some target =>
      match ← Work.ofExcept (ancestry c source), ← Work.ofExcept (ancestry c target) with
      | .complete up, .complete other =>
        if !sharesAncestor c source target up other then
          Work.fail (.noCommonAncestor t.name source target)
      | .disabled state, _ => disableAt i t state
      | _, .disabled state => disableAt i t state
    | _, _ => return ()

def isNested (c : Chart) (name : String) : Bool :=
  (c.state? name).any (·.parent.isSome)

/-- The chart has the only end, so transitions to it leave top-level states. -/
def verifyEndTransitions : Check Unit := do
  let c ← Work.get
  match (endTransitions c).findSome? fun t =>
      (t.source.state?.filter (isNested c)).map fun s => Error.nestedEnd t.name s with
  | some e => Work.fail e
  | none => return ()

def reportDisabledTransitions : Check Unit := do
  Work.warnAll .designSmell (((← Work.get).transitions.filter (·.disabled)).map fun t =>
    s!"{t.name} ({t.arrow}) is disabled and will not be generated")

def checkTransitions : Check Unit := do
  warnUntriggerableSources
  checkEventless (← checkEndEventReuse)
  resolveTransitionEvents
  checkCommonAncestors
  verifyEndTransitions
  reportDisabledTransitions
  Work.note .info "transitions verified" []

end Statechart.Validation
