import Statechart.Chart
import Statechart.Design.Family
import Statechart.Reading.Options

/-!
Charts read from design files.

The parts of a chart are read in a fixed order, and the first fault ends the reading. Within a part
the sections are read in the order of their family.
-/
set_option autoImplicit false

namespace Statechart.Reading

open Design

abbrev FileReader := Path → Except FileFault String

abbrev Read := Work Error Unit

def text (f : File) (s : Section) (key : String) : Read String := do
  return (← s.read f.label key).text

def initialFile? (s : Section) (base : Path) : Option Path :=
  ((s.get? "file").bind present?).map fun file => base.join ⟨file⟩

def initial (f : File) (base : Path) (read : FileReader) : Read (List String) := do
  match f.section? "INITIAL" with
  | none =>
    Work.warn .missingOptional "no [INITIAL] section"
    return []
  | some s =>
    let code := (← s.read? "code").elim [] Value.texts
    match initialFile? s base with
    | none => return code
    | some path =>
      if !code.isEmpty then
        Work.warn .designSmell "[INITIAL] has both code lines and a file, using both"
      match read path with
      | .ok text => return code ++ Text.lines text
      | .error fault => Work.fail (.inaccessible path fault)

def state (f : File) (before : List State) (s : Section) : Read State := do
  let name := Text.trim (← text f s "name")
  let parent ← text f s "parent"
  let kind ← text f s "type"
  let entry ← text f s "entry"
  let during ← text f s "do"
  let exit ← text f s "exit"
  if name == "None" || name.isEmpty then
    Work.fail (.invalidValue s.name "name" name "a state name other than None")
  else if before.any (·.name == name) then Work.fail (.duplicate .state name)
  else
    match StateKind.ofText? kind with
    | none => Work.fail (.invalidValue s.name "type" kind StateKind.accepted)
    | some kind =>
      return {
        origin := s.name
        name
        parent := present? parent
        kind
        entry := .ofText entry
        during := .ofText during
        exit := .ofText exit
        disabled := s.isDisabled }

/-- Reads the members of a part one after the other, each knowing those before it. -/
def inTurn {α : Type} (one : List α → Section → Read α) :
    List α → List Section → Read (List α)
  | before, [] => return before
  | before, s :: ss => do
    let a ← one before s
    inTurn one (before ++ [a]) ss

def states (f : File) : Read (List State) := do
  let states ← inTurn (state f) [] (← f.requireFamily "STATE_")
  let disabled := (states.filter (·.disabled)).length
  Work.note .info "states loaded" [
    ("total", toString states.length),
    ("enabled", toString (states.length - disabled)),
    ("disabled", toString disabled),
    ("top_level", toString (states.filter (·.parent.isNone)).length)]
  return states

def repeated? : List String → List String → Option String
  | _, [] => none
  | before, e :: es => if before.contains e then some e else repeated? (before ++ [e]) es

def events (f : File) (s : Section) : Read (List String) := do
  if !s.has "event" && !s.has "event_1" then Work.fail (.missingKey f.label s.name "event_1")
  else return ((← s.read? "event").elim [] Value.texts).map Text.trim

def base (s : Section) (text : String) : Read (Option Nat) :=
  match present? text with
  | none => return none
  | some number =>
    match Text.decimal? maxWord number with
    | some base => return some base
    | none => Work.fail (.invalidValue s.name "base" text "an integer or None")

def group (f : File) (before : List EventGroup) (s : Section) : Read EventGroup := do
  let baseText ← text f s "base"
  let name := Text.trim (← text f s "name")
  let events ← events f s
  if before.any (·.name == name) then Work.fail (.duplicate .eventGroup name)
  else
    match repeated? [] events with
    | some event => Work.fail (.duplicate .event s!"{name}.{event}")
    | none =>
      let base ← base s baseText
      return { origin := s.name, name, base, events, ids := [] }

def groups (f : File) : Read (List EventGroup) := do
  let sections ← f.readFamily "EVENTS_"
  if sections.isEmpty then Work.warn .missingOptional "no [EVENTS_1] section"
  let groups ← inTurn (group f) [] sections
  Work.note .info "event groups loaded" [
    ("groups", toString groups.length),
    ("events", toString (groups.flatMap (·.events)).length)]
  return groups

def suppressed (f : File) : Read (List String) := do
  match f.section? "SUPPRESS_PRINT" with
  | none => return []
  | some s =>
    let events := ((← s.read? "event").elim [] Value.texts).filterMap present?
    if !events.isEmpty then
      Work.note .info "suppressed events loaded" [("count", toString events.length)]
    return events

def transition (f : File) (s : Section) : Read Transition := do
  let source ← text f s "start"
  let target ← text f s "end"
  let event := present? (← text f s "event")
  let guard ← text f s "guard"
  let action ← text f s "action"
  match event.filter (Text.contains "Event(") with
  | some event => Work.fail (.eventDeclaration s.name event)
  | none =>
    return {
      name := s.name
      source := .ofText source
      target := .ofText target
      event
      guard := .ofText guard
      action := .ofText action
      disabled := s.isDisabled }

def transitions (f : File) : Read (List Transition) := do
  let transitions ← Work.collect (transition f) (← f.requireFamily "TRANSITION_")
  let disabled := (transitions.filter (·.disabled)).length
  Work.note .info "transitions loaded" [
    ("total", toString transitions.length),
    ("enabled", toString (transitions.length - disabled)),
    ("disabled", toString disabled)]
  return transitions

def maxPort : Nat := 0xFFFF

def port (f : File) (before : List Port) (s : Section) : Read Port := do
  let host ← text f s "host"
  let number ← text f s "port"
  let name := Text.trim (← text f s "name")
  let direction ← text f s "type"
  let format ← text f s "format"
  let events ← text f s "events"
  match Text.decimal? maxPort (Text.trim number), Direction.ofText? direction,
    Format.ofText? format with
  | none, _, _ => Work.fail (.invalidValue s.name "port" number "a port number")
  | _, none, _ => Work.fail (.invalidValue s.name "type" direction Direction.accepted)
  | _, _, none => Work.fail (.invalidValue s.name "format" format Format.accepted)
  | some number, some direction, some format =>
    if before.any (·.name == name) then Work.fail (.duplicate .port name)
    else
      return {
        origin := s.name
        host := Text.trim host
        number
        name
        direction
        format
        filter := present? events
        disabled := s.isDisabled }

def transport (f : File) (s : Section) : Read Transport := do
  let kind ← text f s "import_type"
  let module ← text f s "import_name"
  return ⟨Text.trim kind, Text.trim module⟩

def ports (f : File) : Read (Option Transport × List Port) := do
  let sections ← f.readFamily "PORT_"
  match f.section? "PORT_INIT", sections with
  | none, [] => return (none, [])
  | none, _ => Work.fail (.missingSection f.label "PORT_INIT")
  | some _, [] => Work.fail (.missingSection f.label "PORT_1")
  | some s, sections =>
    let transport ← transport f s
    let ports ← inTurn (port f) [] sections
    Work.note .info "ports loaded" [
      ("total", toString ports.length),
      ("disabled", toString (ports.filter (·.disabled)).length)]
    return (some transport, ports)

def chart (f : File) (base : Path) (read : FileReader) : Read Chart := do
  let heading ← Work.ofExcept (f.requireSection "STATECHART")
  let name := (← heading.read f.label "name").text
  let options ← options (← Work.ofExcept (f.requireSection "OPTIONS"))
  let initial ← initial f base read
  let states ← states f
  let groups ← groups f
  let suppressed ← suppressed f
  let transitions ← transitions f
  let (transport, ports) ← ports f
  return { name, options, initial, states, groups, suppressed, transitions, transport, ports }

end Reading

/-- Reads a design text; files it names are sought from `base`. -/
def Chart.read (label text : String) (base : Path) (read : Reading.FileReader) :
    Reading.Read Chart := do
  Reading.chart (← Work.ofExcept (Design.File.parse label text)) base read

end Statechart
