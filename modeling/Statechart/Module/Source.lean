import Statechart.Module.Wrapper
import Statechart.Target.Layout

/-!
The texts of the generated module and of the callbacks file.
-/
set_option autoImplicit false

namespace Statechart.Module

open Target

def callbackFns (callbacks : Callbacks) (chart : Ident) : Except Fault (List Token) := do
  return (← mapAll (Routine.tokens · chart) callbacks.routines).flatten

def chartIdent (c : Chart) : Except Error Ident :=
  readIdent "STATECHART" c.name

def checkTypeNames (c : Chart) : Except Error Unit :=
  match c.group? c.name with
  | some g => .error (.duplicate .typeName g.name)
  | none => .ok ()

def declarations (c : Chart) (callbacks : Callbacks) : Except Fault (List Token) := do
  let chart ← rejecting (chartIdent c)
  rejecting (checkTypeNames c)
  let groups ← rejecting (eventGroups c)
  let tables ← rejecting (eventTables c)
  let fns ← callbackFns callbacks chart
  let build ← buildStatechart c callbacks chart
  return groups ++ tables ++ portTables c ++ fns ++ build

def initialItems (c : Chart) : Except Error (List Token) :=
  let text := Text.unlines c.initial
  if Text.isBlankText text then .ok []
  else
    match Fragment.file? text with
    | some (.node .file [.list [], items]) => .ok items.tokens
    | some _ => .error (.refusedInitializer .innerAttributes)
    | none => .error (.refusedInitializer .unparsable)

def laidOut (ts : List Token) : Except Fault String :=
  match Fragment.fileOf? ts with
  | none => .error (.rejected .refusedModule)
  | some file =>
    match layout? file with
    | some text => .ok text
    | none => .error (.unprintable (Token.streamText ts))

def allowAttribute : List Token :=
  code ("# ! [allow (dead_code , non_snake_case , non_upper_case_globals , unused_imports , " ++
    "unused_variables)]")

def source (c : Chart) (declarations : List Token) : Except Fault String := do
  let chart ← rejecting (chartIdent c)
  let runtime ←
    match Fragment.path? c.options.runtime with
    | some path => .ok path.tokens
    | none =>
      rejecting (.error (.invalidValue "OPTIONS" "runtime" c.options.runtime "a Rust crate path"))
  let initial ← rejecting (initialItems c)
  let text ← laidOut (
    allowAttribute ++ code "use" ++ runtime ++ code ":: prelude :: * ;" ++ initial ++
      declarations ++ wrapper c chart)
  return s!"// @generated by scb for statechart {c.name}. Do not edit by hand.\n\n{text}"

def callbacksSource (c : Chart) (callbacks : Callbacks) : Except Fault (Option String) := do
  if !c.options.genCode || !c.options.genCallbacks then return none
  else
    let chart ← rejecting (chartIdent c)
    let text ← laidOut (← mapAll (Routine.markedTokens · chart) callbacks.routines).flatten
    return some
      (s!"// Callbacks for statechart {c.name}. " ++
        s!"Edit the bodies and pass this file with -c.\n\n{text}")

end Statechart.Module
