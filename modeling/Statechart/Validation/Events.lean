import Statechart.Chart
import Statechart.Report.Work

/-!
Identifiers of events, and references to them.

A group without a base begins where the group before it ends. No two groups may claim the same
identifier, and none may claim zero.
-/
set_option autoImplicit false

namespace Statechart

abbrev Check := Work Error Chart

namespace Validation

def withBase (previous : Option Nat) (g : EventGroup) : EventGroup :=
  { g with base := some (g.base.getD (previous.getD 1)) }

def fillBases : (previous : Option Nat) → List EventGroup → List EventGroup
  | _, [] => []
  | previous, g :: gs =>
    let g := withBase previous g
    g :: fillBases g.stop? gs

def baseWarnings : (previous : Option Nat) → List EventGroup → List String
  | _, [] => []
  | previous, g :: gs =>
    let filled := withBase previous g
    let rest := baseWarnings filled.stop? gs
    if g.base.isNone then
      s!"event group {g.name} has no base, using {filled.range.base}" :: rest
    else rest

/-- Goes through ranges in the order of their bases. A range that begins before the end of the
widest one so far collides with it. -/
def sweep : (widest : Option EventRange) → List EventRange → Option (EventRange × EventRange)
  | _, [] => none
  | none, r :: rs => sweep (some r) rs
  | some widest, r :: rs =>
    if r.base < widest.stop then some (widest, r)
    else if r.stop ≤ widest.stop then sweep (some widest) rs
    else sweep (some r) rs

def collision? (groups : List EventGroup) : Option (EventRange × EventRange) :=
  let ranges := (groups.filter (!·.isEmpty)).map EventGroup.range
  sweep none (ranges.mergeSort fun a b => a.base ≤ b.base)

def numbered (g : EventGroup) : EventGroup :=
  let r := g.range
  { g with ids := List.range' r.base (r.stop - r.base) }

def allocateEventIds : Check Unit := do
  let before := (← Work.get).groups
  let groups := fillBases none before
  Work.modify fun c => { c with groups }
  Work.warnAll .autoAssignedBase (baseWarnings none before)
  match collision? groups with
  | some (first, second) => Work.fail (.rangeCollision first second)
  | none =>
    match groups.find? (·.base = some 0) with
    | some g => Work.fail (.zeroBase g.name)
    | none =>
      let groups := groups.map numbered
      Work.modify fun c => { c with groups }
      Work.note .info "event ids allocated" [
        ("groups", toString groups.length),
        ("events", toString (groups.flatMap (·.ids)).length)]

/-- The qualified form of a reference; a warning tells if its group had to be found. -/
def resolveEvent (context reference : String) : Check String := do
  let resolved ← Work.ofExcept (lookupEvent (← Work.get).groups context reference)
  if resolved.unqualified then
    Work.warn .autoQualifiedEvent
      s!"{context}: event {Text.trim reference} resolved to {resolved.qualified}"
  return resolved.qualified

/-- Qualifies the suppressed events. They are taken out first, so a failure leaves none. -/
def resolveSuppressed : Check Unit := do
  let references := (← Work.get).suppressed
  Work.modify fun c => { c with suppressed := [] }
  let suppressed ← Work.collect (resolveEvent "SUPPRESS_PRINT") references
  Work.modify fun c => { c with suppressed }

/-- An output port for a group that the chart does not have. -/
def portWarning? (c : Chart) (p : Port) : Option String :=
  if p.direction.isInput then none
  else
    (p.filter.filter fun group => (c.group? group).isNone).map fun group =>
      s!"output port {p.name} filters on unknown event group {group}"

/-- The group of a port may live elsewhere, so an unknown one is no fault. -/
def verifyPorts : Check Unit := do
  let c ← Work.get
  Work.warnAll .designSmell (c.ports.filterMap (portWarning? c))

end Validation

end Statechart
