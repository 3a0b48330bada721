import Statechart.Chart
import Statechart.Target.Fragment

/-!
Routines: the functions that carry out the callbacks of a chart.

The body of a routine is data. Its text is made only when the module is written, so what a routine
does can be told without reading code.
-/
set_option autoImplicit false

namespace Statechart

open Target (Token Tree Ident code)

inductive Role where
  | action
  | guard
  deriving DecidableEq, Repr

namespace Role

def marker : Role → String
  | action => "action"
  | guard => "guard"

end Role

structure EventPath where
  group : Ident
  event : Ident
  deriving DecidableEq, Repr

namespace EventPath

def tokens (p : EventPath) : List Token :=
  p.group.tokens ++ Token.op "::" ++ p.event.tokens

end EventPath

inductive Datum where
  | expr (tree : Tree)
  | text (value : String)
  deriving Repr

namespace Datum

def tokens : Datum → List Token
  | expr tree => tree.tokens
  | text value => Target.stringLiteral value

def optionTokens : List Datum → List Token
  | [] => code "None"
  | [d] => some d.tokens
  | ds => some (Token.parens (Token.commaSeparated (ds.map tokens)))
where
  some (inner : List Token) : List Token :=
    code "Some" ++ Token.parens (code "EventData :: from" ++ Token.parens inner)

end Datum

inductive Statement where
  /-- Prints a line. -/
  | trace (line : String)
  /-- Sends an event, through a port if one is given. -/
  | send (port : Option String) (event : EventPath) (data : List Datum)
  /-- Code copied from the design. -/
  | embedded (tree : Tree)
  deriving Repr

namespace Statement

def tokens : Statement → List Token
  | trace line =>
    code "println !" ++
      Token.parens (Target.stringLiteral "\x7b\x7d" ++ Token.op "," ++ Target.stringLiteral line) ++
      Token.op ";"
  | send none event data =>
    code "param . send_event" ++
      Token.parens (Token.commaSeparated [event.tokens, Datum.optionTokens data]) ++ Token.op ";"
  | send (some port) event data =>
    code "param . send_event_as_msg" ++
      Token.parens (Token.commaSeparated
        [Target.stringLiteral port, event.tokens, Datum.optionTokens data]) ++ Token.op ";"
  | embedded tree => tree.tokens

end Statement

structure Routine where
  name : String
  role : Role
  body : List Statement
  override : Option Tree := none
  deriving Repr

inductive Hook where
  | named (name : String)
  /-- A guard of the runtime, called with arguments. -/
  | builtin (tree : Tree)
  deriving Repr

/-- A name that can stand in the generated module as it is. One that is an identifier only thanks to
a comment beside it cannot. -/
def isPrintable (name : String) : Bool :=
  (Target.Fragment.ident? name).any (·.text == name)

inductive Fault where
  | rejected (error : Error)
  /-- Something that has no place in source text. -/
  | unprintable (text : String)
  deriving DecidableEq, Repr

def printed (name : String) : Except Fault (List Token) :=
  if isPrintable name then .ok (Token.word name) else .error (.unprintable name)

namespace Hook

def tokens : Hook → Except Fault (List Token)
  | named name => printed name
  | builtin tree => .ok tree.tokens

end Hook

namespace Routine

def isOverridden (r : Routine) : Bool :=
  r.override.isSome

def generated (r : Routine) (chart : Ident) : Except Fault (List Token) := do
  let name ← printed r.name
  let body := r.body.flatMap Statement.tokens
  match r.role with
  | .action =>
    return code "pub fn" ++ name ++ Token.parens (code "param : & mut" ++ chart.tokens) ++
      Token.braces body
  | .guard =>
    return code "pub fn" ++ name ++ Token.parens (code "param : &" ++ chart.tokens) ++
      code "-> bool" ++ Token.braces (body ++ code "true")

def tokens (r : Routine) (chart : Ident) : Except Fault (List Token) :=
  match r.override with
  | some tree => .ok tree.tokens
  | none => r.generated chart

def markedTokens (r : Routine) (chart : Ident) : Except Fault (List Token) := do
  return Token.op "#" ++ Token.brackets (Token.word r.role.marker) ++ (← r.generated chart)

end Routine

structure StateHooks where
  entry : Hook
  during : Hook
  exit : Hook
  deriving Repr

structure TransitionHooks where
  guard : Hook
  action : Hook
  deriving Repr

/-- The routines of a chart in the order of their first use, and what its fields refer to. -/
structure Callbacks where
  routines : List Routine := []
  states : List (String × StateHooks) := []
  transitions : List (String × TransitionHooks) := []
  deriving Repr

namespace Callbacks

/-- Gives a key its value in a list of pairs; a key that is there already keeps its place. -/
def insert {α : Type} (key : String) (value : α) : List (String × α) → List (String × α)
  | [] => [(key, value)]
  | (k, v) :: rest => if k = key then (key, value) :: rest else (k, v) :: insert key value rest

def insertAll {α : Type} (pairs : List (String × α)) (into : List (String × α)) :
    List (String × α) :=
  pairs.foldl (fun into p => insert p.1 p.2 into) into

def routine? (c : Callbacks) (name : String) : Option Routine :=
  c.routines.find? (·.name == name)

end Callbacks

end Statechart
