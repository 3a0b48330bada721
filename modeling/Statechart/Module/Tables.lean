import Statechart.Callbacks.Piece

/-!
The declarations of events and ports in the generated module.
-/
set_option autoImplicit false

namespace Statechart.Module

open Target

structure EventConstant where
  name : Ident
  id : Nat
  deriving DecidableEq, Repr

structure GroupType where
  name : Ident
  constants : List EventConstant
  deriving DecidableEq, Repr

namespace EventConstant

def tokens (e : EventConstant) : List Token :=
  code "pub const" ++ e.name.tokens ++ code ": EventId = EventId" ++
    Token.parens (numberLiteral e.id) ++ Token.op ";"

end EventConstant

namespace GroupType

def tokens (g : GroupType) : List Token :=
  code "# [derive (Debug , Clone , Copy , PartialEq , Eq)] pub struct" ++ g.name.tokens ++
    code "; impl" ++ g.name.tokens ++ Token.braces (g.constants.flatMap EventConstant.tokens)

/-- Constants for events and their identifiers; one without the other is left out. -/
def readConstants (origin : String) :
    List String → List Nat → Except Error (List EventConstant)
  | event :: events, id :: ids => do
    let name ← readIdent origin event
    return ⟨name, id⟩ :: (← readConstants origin events ids)
  | _, _ => .ok []

def ofGroup (g : EventGroup) : Except Error GroupType := do
  return ⟨← readIdent g.origin g.name, ← readConstants g.origin g.events g.ids⟩

end GroupType

/-- The values of a fallible function on every member, up to the first failure. -/
def mapAll {ε α β : Type} (f : α → Except ε β) : List α → Except ε (List β)
  | [] => .ok []
  | a :: as => do
    let b ← f a
    return b :: (← mapAll f as)

def groupTypes (c : Chart) : Except Error (List GroupType) :=
  mapAll GroupType.ofGroup c.groups

def eventGroups (c : Chart) : Except Error (List Token) := do
  return (← groupTypes c).flatMap GroupType.tokens

def slice (elements : List (List Token)) : List Token :=
  Token.op "&" ++ Token.brackets (Token.commaSeparated elements)

def groupInfo (g : EventGroup) : List Token :=
  code "EventGroupInfo" ++ Token.braces (
    code "name :" ++ stringLiteral g.name ++
    code ", base :" ++ numberLiteral (g.base.getD 0) ++
    code ", events :" ++ slice (g.events.map stringLiteral))

def eventTables (c : Chart) : Except Error (List Token) := do
  let suppressed ← mapAll (EventPath.read "SUPPRESS_PRINT") c.suppressed
  return code "pub const EVENT_GROUPS : & [EventGroupInfo] =" ++ slice (c.groups.map groupInfo) ++
    code "; pub const SUPPRESSED_EVENTS : & [EventId] =" ++
    slice (suppressed.map EventPath.tokens) ++ Token.op ";"

def portConfig (p : Port) : List Token :=
  let events :=
    match p.filter with
    | some group => code "Some" ++ Token.parens (stringLiteral group)
    | none => code "None"
  code "PortConfig" ++ Token.braces (
    code "name :" ++ stringLiteral p.name ++
    code ", host :" ++ stringLiteral p.host ++
    code ", port :" ++ numberLiteral p.number ++
    code ", direction : PortDirection ::" ++ Token.word p.direction.name ++
    code ", format : PortFormat ::" ++ Token.word p.format.name ++
    code ", events :" ++ events ++ Token.op ",")

/-- The tables of the transport and of enabled ports; nothing without a transport. -/
def portTables (c : Chart) : List Token :=
  match c.transport with
  | none => []
  | some t =>
    code "pub const PORT_TRANSPORT : Transport = Transport" ++
      Token.braces (
        code "kind :" ++ stringLiteral t.kind ++ code ", module :" ++ stringLiteral t.module) ++
      code "; pub const PORTS : & [PortConfig] =" ++ slice (c.enabledPorts.map portConfig) ++
      Token.op ";"

end Statechart.Module
