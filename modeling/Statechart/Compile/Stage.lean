/-!
The stages of a compilation.
-/
set_option autoImplicit false

namespace Statechart

inductive Stage where
  | parseDesign
  | allocateEvents
  | validateStart
  | validateTransitions
  | generateStateHooks
  | generateTransitionHooks
  | mergeOverrides
  | emitDeclarations
  | emitWrapper
  deriving DecidableEq, Repr

namespace Stage

def all : List Stage :=
  [parseDesign, allocateEvents, validateStart, validateTransitions, generateStateHooks,
    generateTransitionHooks, mergeOverrides, emitDeclarations, emitWrapper]

def name : Stage → String
  | parseDesign => "ParseDesign"
  | allocateEvents => "AllocateEvents"
  | validateStart => "ValidateStart"
  | validateTransitions => "ValidateTransitions"
  | generateStateHooks => "GenerateStateHooks"
  | generateTransitionHooks => "GenerateTransitionHooks"
  | mergeOverrides => "MergeOverrides"
  | emitDeclarations => "EmitDeclarations"
  | emitWrapper => "EmitWrapper"

def text : Stage → String
  | parseDesign => "parsing the design"
  | allocateEvents => "allocating events"
  | validateStart => "validating start transitions"
  | validateTransitions => "validating transitions"
  | generateStateHooks => "generating state callbacks"
  | generateTransitionHooks => "generating transition callbacks"
  | mergeOverrides => "merging override callbacks"
  | emitDeclarations => "emitting declarations"
  | emitWrapper => "emitting the wrapper"

def next? : Stage → Option Stage
  | parseDesign => some allocateEvents
  | allocateEvents => some validateStart
  | validateStart => some validateTransitions
  | validateTransitions => some generateStateHooks
  | generateStateHooks => some generateTransitionHooks
  | generateTransitionHooks => some mergeOverrides
  | mergeOverrides => some emitDeclarations
  | emitDeclarations => some emitWrapper
  | emitWrapper => none

def generates : Stage → Bool
  | parseDesign => false
  | allocateEvents => false
  | validateStart => false
  | validateTransitions => false
  | _ => true

end Stage

end Statechart
