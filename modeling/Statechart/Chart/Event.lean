import Statechart.Report.Error
import Statechart.Text.Blank
import Statechart.Text.Split

/-!
Groups of events, their identifiers, and references to events.

The identifiers of a group follow each other from its base. They are 32-bit words, so the end of a
group is cut off at the largest of them.
-/
set_option autoImplicit false

namespace Statechart

def maxWord : Nat := 0xFFFFFFFF

structure EventGroup where
  /-- The section it was read from. -/
  origin : String
  name : String
  base : Option Nat
  events : List String
  /-- One identifier per event, once they are given out. -/
  ids : List Nat
  deriving DecidableEq, Repr

namespace EventGroup

def size (g : EventGroup) : Nat :=
  min g.events.length maxWord

def stopFrom (g : EventGroup) (base : Nat) : Nat :=
  min (base + g.size) maxWord

def stop? (g : EventGroup) : Option Nat :=
  g.base.map g.stopFrom

def isEmpty (g : EventGroup) : Bool :=
  g.events.isEmpty

def contains (g : EventGroup) (event : String) : Bool :=
  g.events.contains event

def range (g : EventGroup) : EventRange :=
  let base := g.base.getD 0
  ⟨g.name, base, g.stop?.getD base⟩

end EventGroup

structure Resolved where
  /-- The form `Group.event`. -/
  qualified : String
  /-- Whether the reference was written without its group. -/
  unqualified : Bool
  deriving DecidableEq, Repr

/-- Finds the event that a reference means. A reference without a group has to be an event of
exactly one group. -/
def lookupEvent (groups : List EventGroup) (context reference : String) :
    Except Error Resolved :=
  let reference := Text.trim reference
  match Text.cut? (· = '.') reference with
  | some (group, event) =>
    let group := Text.trim group
    let event := Text.trim event
    if groups.any fun g => g.name == group && g.contains event then
      .ok ⟨group ++ "." ++ event, false⟩
    else .error (.unresolved context .event reference)
  | none =>
    match groups.filter (·.contains reference) with
    | [] => .error (.unresolved context .event reference)
    | [g] => .ok ⟨g.name ++ "." ++ reference, true⟩
    | owners => .error (.ambiguous context reference (owners.map EventGroup.name))

end Statechart
