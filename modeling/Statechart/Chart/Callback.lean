import Statechart.Design.Section

/-!
Callbacks as a design writes them.

A callback is absent, a bare reference such as `ready()`, or a name with pieces in brackets:
`[tick(), count += 1; Evt.go, 2]`. The name ends at the first comma and the pieces are separated by
semicolons.
-/
set_option autoImplicit false

namespace Statechart

inductive Callback where
  | absent
  /-- Kept as written, so that a call with arguments survives. -/
  | bare (text : String)
  | structured (name : String) (pieces : List String)
  deriving DecidableEq, Repr

namespace Callback

def dropCall (text : String) : String :=
  Text.trim ((Text.dropTail? "()" text).getD text)

def flatten (cs : List Char) : List Char :=
  cs.map fun c => if c = '\n' then ' ' else c

def pieces (text : String) : List String :=
  ((Text.split ';' text).map Text.trim).filter (!·.isEmpty)

def ofBody (body : String) : Callback :=
  let body := String.ofList (flatten body.toList)
  match Text.cut? (· = ',') body with
  | some (head, rest) => structured (dropCall (Text.trim head)) (pieces rest)
  | none => structured (dropCall (Text.trim body)) []

def ofText (text : String) : Callback :=
  let text := Text.trim text
  if Design.isAbsent text then absent
  else
    match Text.dropHead? "[" text with
    | some body => ofBody ((Text.dropTail? "]" body).getD body)
    | none => bare text

def isAbsent : Callback → Bool
  | absent => true
  | _ => false

end Callback

end Statechart
