import Statechart.Path

/-!
The causes that end a compilation, and their wording.
-/
set_option autoImplicit false

namespace Statechart

inductive FileFault where
  | notFound
  | isDirectory
  | notDirectory
  | nameTooLong
  | nulByte
  | notText
  /-- Any other fault, in the words of the system. -/
  | other (text : String)
  deriving DecidableEq, Repr

namespace FileFault

def message : FileFault → String
  | notFound => "No such file or directory (os error 2)"
  | isDirectory => "Is a directory (os error 21)"
  | notDirectory => "Not a directory (os error 20)"
  | nameTooLong => "File name too long (os error 36)"
  | nulByte => "file name contained an unexpected NUL byte"
  | notText => "stream did not contain valid UTF-8"
  | other text => text

end FileFault

inductive LineFault where
  | unclosedHeader
  | outsideSection
  | noSeparator
  | emptyKey
  deriving DecidableEq, Repr

namespace LineFault

def message : LineFault → String
  | unclosedHeader => "unterminated section header"
  | outsideSection => "entry outside of any section"
  | noSeparator => "expected 'key = value'"
  | emptyKey => "empty key"

end LineFault

inductive Refusal where
  /-- It does not parse; the wording of the parser is left open. -/
  | unparsable
  /-- Literal code where only events and ports are allowed. -/
  | limited
  | innerAttributes
  deriving DecidableEq, Repr

namespace Refusal

def message : Refusal → String
  | unparsable => "<parser>"
  | limited => "literal code is not allowed while LimitAction is set"
  | innerAttributes => "inner attributes are not supported"

end Refusal

inductive Referent where
  | state
  | parentState
  | startState
  | event
  | eventGroup
  | eventOnPort
  | port
  | stateCallbacks
  | transitionCallbacks
  | overrideFunction
  | typeName
  deriving DecidableEq, Repr

namespace Referent

def text : Referent → String
  | state => "state"
  | parentState => "parent state"
  | startState => "start state"
  | event => "event"
  | eventGroup => "event group"
  | eventOnPort => "event to send on port"
  | port => "port"
  | stateCallbacks => "state callbacks"
  | transitionCallbacks => "transition callbacks"
  | overrideFunction => "override function"
  | typeName => "type name"

end Referent

/-- Identifiers of a group of events: from `base` up to but not including `stop`. -/
structure EventRange where
  group : String
  base : Nat
  stop : Nat
  deriving DecidableEq, Repr

namespace EventRange

def text (r : EventRange) : String :=
  s!"{r.group} [{r.base}, {r.stop})"

end EventRange

inductive Error where
  | inaccessible (path : Path) (fault : FileFault)
  | malformedLine (file : String) (line : Nat) (fault : LineFault)
  | missingSection (file name : String)
  | missingKey (file name key : String)
  | invalidValue (name key value expected : String)
  | invalidIdentifier (name value : String)
  | duplicate (referent : Referent) (name : String)
  | unresolved (context : String) (referent : Referent) (reference : String)
  | rangeCollision (first second : EventRange)
  | zeroBase (group : String)
  | ambiguous (context event : String) (groups : List String)
  | missingStart (candidates : List String)
  | reusedEndEvent (transition event state : String)
  | missingEvent (transition source target : String)
  | parentCycle (state : String)
  | noCommonAncestor (transition source target : String)
  | nestedEnd (transition state : String)
  | eventDeclaration (transition event : String)
  | refusedCode (callback code : String) (refusal : Refusal)
  | roleConflict (name : String)
  | refusedInitializer (refusal : Refusal)
  | refusedOverrides (path : Path)
  | refusedModule
  deriving DecidableEq, Repr

inductive Category where
  | io
  | missingSection
  | missingKey
  | unresolvedReference
  | rangeCollision
  | ambiguousReference
  | structuralInconsistency
  | generation
  deriving DecidableEq, Repr

namespace Error

def message : Error → String
  | inaccessible path fault => s!"cannot access {path.text}: {fault.message}"
  | malformedLine file line fault => s!"{file}:{line}: {fault.message}"
  | missingSection file name => s!"{file}: missing section [{name}]"
  | missingKey file name key => s!"{file}: section [{name}] is missing key '{key}'"
  | invalidValue name key value expected =>
    s!"[{name}] {key} = '{value}' is invalid, expected {expected}"
  | invalidIdentifier name value => s!"[{name}] '{value}' is not a valid Rust identifier"
  | duplicate referent name => s!"duplicate {referent.text} '{name}'"
  | unresolved context referent reference =>
    s!"{context}: cannot resolve {referent.text} '{reference}'"
  | rangeCollision first second =>
    s!"event range collision: {first.text} overlaps {second.text}"
  | zeroBase group => s!"event group {group} has base 0, event ids must start at 1 or above"
  | ambiguous context event groups =>
    s!"{context}: event '{event}' is defined in several groups: " ++ ", ".intercalate groups
  | missingStart candidates =>
    "no Start transition into any of [" ++ ", ".intercalate candidates ++ "]"
  | reusedEndEvent transition event state =>
    s!"{transition}: reused end event {event} from state {state} prevents the end transition"
  | missingEvent transition source target =>
    s!"{transition}: missing event causes {source} -> {target} to fire on the end transition"
  | parentCycle state => s!"state {state} is its own ancestor"
  | noCommonAncestor transition source target =>
    s!"{transition}: {source} and {target} share no hierarchical ancestor"
  | nestedEnd transition state =>
    s!"{transition}: only one end state is permitted, {state} is not a top-level state"
  | eventDeclaration transition event =>
    s!"{transition}: events cannot be declared inside a transition ('{event}')"
  | refusedCode callback code refusal =>
    s!"{callback}: embedded code '{code}' rejected: {refusal.message}"
  | roleConflict name => s!"callback '{name}' is used both as a guard and as an action"
  | refusedInitializer refusal => s!"invalid initializer: {refusal.message}"
  | refusedOverrides path =>
    s!"cannot parse override file {path.text}: {Refusal.unparsable.message}"
  | refusedModule => s!"generated code is not valid Rust: {Refusal.unparsable.message}"

def category : Error → Category
  | inaccessible .. => .io
  | missingSection .. => .missingSection
  | malformedLine .. => .missingKey
  | missingKey .. => .missingKey
  | invalidValue .. => .missingKey
  | invalidIdentifier .. => .missingKey
  | duplicate .. => .missingKey
  | unresolved .. => .unresolvedReference
  | rangeCollision .. => .rangeCollision
  | zeroBase .. => .rangeCollision
  | ambiguous .. => .ambiguousReference
  | missingStart .. => .structuralInconsistency
  | reusedEndEvent .. => .structuralInconsistency
  | missingEvent .. => .structuralInconsistency
  | parentCycle .. => .structuralInconsistency
  | noCommonAncestor .. => .structuralInconsistency
  | nestedEnd .. => .structuralInconsistency
  | eventDeclaration .. => .structuralInconsistency
  | roleConflict .. => .structuralInconsistency
  | refusedCode .. => .generation
  | refusedInitializer .. => .generation
  | refusedOverrides .. => .generation
  | refusedModule => .generation

end Error

end Statechart
