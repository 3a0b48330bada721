import Statechart.Callbacks.Piece

/-!
Generation of routines.

The fields of a chart are gone through one kind after the other: all entries, then all `do` fields,
exits, guards and actions. The first use of a name makes its routine, later ones refer to it. A name
has one role.
-/
set_option autoImplicit false

namespace Statechart

structure Generator where
  /-- The names that were given a role. -/
  declared : List (String × Role) := []
  out : Callbacks := {}
  deriving Repr

abbrev Generate := Work Error Generator

inductive Site where
  | state (s : State)
  | transition (t : Transition)

namespace Site

def context : Site → String
  | state s => s.origin
  | transition t => t.name

def traceLine : Site → String
  | state s => s!"-> {s.name}"
  | transition t => t.arrow

end Site

namespace Generator

def resume (previous : Callbacks) : Generator :=
  ⟨previous.routines.map fun r => (r.name, r.role), previous⟩

def declare (name : String) (role : Role) : Generate Bool := do
  match (← Work.get).declared.lookup name with
  | some other => if other = role then return false else Work.fail (.roleConflict name)
  | none =>
    Work.modify fun g => { g with declared := (name, role) :: g.declared }
    return true

def add (r : Routine) : Generate Unit :=
  Work.modify fun g => { g with out := { g.out with routines := g.out.routines ++ [r] } }

/-- A routine without code from the design; it may print a line. -/
def stub (name : String) (role : Role) (site : Site) (traced : Bool) : Generate Hook := do
  let _ ← Work.ofExcept (readIdent site.context name)
  if ← declare name role then
    add { name, role, body := if traced then [.trace site.traceLine] else [] }
  return .named name

def absent (c : Chart) (role : Role) (site : Site) : Generate Hook :=
  match role, site with
  | .action, .transition t =>
    if c.options.debug then stub s!"trace_{t.name}" role site true
    else stub "do_nothing" role site false
  | .action, .state _ => stub "do_nothing" role site false
  | .guard, _ => stub "always_true" role site false

/-- Only a guard may be a call with arguments. -/
def bare (c : Chart) (text : String) (role : Role) (site : Site) : Generate Hook :=
  let name := Callback.dropCall text
  if role = .guard && Text.containsChar '(' name then
    match Target.Fragment.expr? name with
    | some tree => return .builtin tree
    | none => Work.fail (.invalidIdentifier site.context name)
  else stub name role site c.options.debug

/-- The statements for the words of a structured callback. An event ends them: the words after it
are its data. `port` is where it goes, and `chosen` tells whether a word named that port. -/
def statements (c : Chart) (name context : String) :
    (port : Option String) → (chosen : Bool) → List String → Generate (List Statement)
  | some port, true, [] => Work.fail (.unresolved context .eventOnPort port)
  | _, _, [] => return []
  | port, chosen, word :: words => do
    match ← Work.ofExcept (Word.classify c context word) with
    | .event resolved =>
      if resolved.unqualified then
        Work.warn .autoQualifiedEvent s!"{context}: event {word} resolved to {resolved.qualified}"
      let path ← Work.ofExcept (EventPath.read context resolved.qualified)
      return [.send port path (words.map Datum.ofWord)]
    | .port via => statements c name context (some via) true words
    | .literal =>
      let code ← Embedded.statements name word c.options.limitActions
      return code.map Statement.embedded ++ (← statements c name context port chosen words)

/-- The body of a structured callback. One that is named like a port sends through it. -/
def body (c : Chart) (name context : String) (pieces : List String) :
    Generate (List Statement) := do
  let words ← Work.ofExcept (Word.split c context pieces)
  statements c name context ((c.enabledPort? name).map Port.name) false words

def structured (c : Chart) (name : String) (pieces : List String) (role : Role) (site : Site) :
    Generate Hook := do
  let _ ← Work.ofExcept (readIdent site.context name)
  if ← declare name role then
    let body ← body c name site.context pieces
    add { name, role, body }
  else if !pieces.isEmpty then
    Work.warn .designSmell
      (s!"{site.context}: callback {name} is already generated, " ++
        "its arguments here are ignored")
  return .named name

def reference (c : Chart) (role : Role) (site : Site) : Callback → Generate Hook
  | .absent => absent c role site
  | .bare text => bare c text role site
  | .structured name pieces => structured c name pieces role site

def stateField (c : Chart) (field : State → Callback) (s : State) : Generate Hook :=
  reference c .action (.state s) (field s)

def transitionField (c : Chart) (role : Role) (field : Transition → Callback) (t : Transition) :
    Generate Hook :=
  reference c role (.transition t) (field t)

def stateHooks (c : Chart) : Generate Unit := do
  let states := c.enabledStates
  let entries ← Work.collect (stateField c State.entry) states
  let durings ← Work.collect (stateField c State.during) states
  let exits ← Work.collect (stateField c State.exit) states
  let hooks := (entries.zip (durings.zip exits)).map fun (e, d, x) => (⟨e, d, x⟩ : StateHooks)
  Work.modify fun g => { g with out := { g.out with
    states := Callbacks.insertAll ((states.map State.name).zip hooks) g.out.states } }
  Work.note .debug "state hooks generated" [
    ("states", toString states.length),
    ("callbacks", toString (← Work.get).out.routines.length)]

def transitionHooks (c : Chart) : Generate Unit := do
  let transitions := c.enabledTransitions
  let guards ← Work.collect (transitionField c .guard Transition.guard) transitions
  let actions ← Work.collect (transitionField c .action Transition.action) transitions
  let hooks := (guards.zip actions).map fun (g, a) => (⟨g, a⟩ : TransitionHooks)
  Work.modify fun g => { g with out := { g.out with
    transitions :=
      Callbacks.insertAll ((transitions.map Transition.name).zip hooks) g.out.transitions } }
  Work.note .debug "transition hooks generated" [
    ("transitions", toString transitions.length),
    ("callbacks", toString (← Work.get).out.routines.length)]

end Generator

end Statechart
