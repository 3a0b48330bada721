import Statechart.Chart
import Statechart.Json

/-!
Charts as JSON.
-/
set_option autoImplicit false

namespace Statechart

def Json.strings (texts : List String) : Json :=
  .array (texts.map .string)

def Json.optional {α : Type} (f : α → Json) : Option α → Json
  | some a => f a
  | none => .null

def Callback.json : Callback → Json
  | absent => .string "Absent"
  | bare text => .object [("BareRef", .string text)]
  | structured name pieces =>
    .object [("Structured", .object [("name", .string name), ("args", .strings pieces)])]

def Endpoint.json : Endpoint → Json
  | start => .string "Start"
  | stop => .string "End"
  | state name => .object [("State", .string name)]

def Options.json (o : Options) : Json :=
  .object [
    ("debug", .bool o.debug),
    ("print", .bool o.print),
    ("limit_actions", .bool o.limitActions),
    ("gen_code", .bool o.genCode),
    ("gen_callbacks", .bool o.genCallbacks),
    ("interpret", .bool o.interpret),
    ("override_file", .optional (fun p => .string p.text) o.overrides),
    ("runtime", .string o.runtime)]

def State.json (s : State) : Json :=
  .object [
    ("section", .string s.origin),
    ("name", .string s.name),
    ("parent", .optional .string s.parent),
    ("kind", .string s.kind.name),
    ("entry", s.entry.json),
    ("during", s.during.json),
    ("exit", s.exit.json),
    ("disabled", .bool s.disabled)]

def EventGroup.json (g : EventGroup) : Json :=
  .object [
    ("section", .string g.origin),
    ("name", .string g.name),
    ("base", .optional .number g.base),
    ("events", .strings g.events),
    ("ids", .array (g.ids.map .number))]

def Transition.json (t : Transition) : Json :=
  .object [
    ("name", .string t.name),
    ("start", t.source.json),
    ("end", t.target.json),
    ("event", .optional .string t.event),
    ("guard", t.guard.json),
    ("action", t.action.json),
    ("disabled", .bool t.disabled)]

def Transport.json (t : Transport) : Json :=
  .object [("transport", .string t.kind), ("module", .string t.module)]

def Port.json (p : Port) : Json :=
  .object [
    ("section", .string p.origin),
    ("host", .string p.host),
    ("port", .number p.number),
    ("name", .string p.name),
    ("direction", .string p.direction.name),
    ("format", .string p.format.name),
    ("event_filter", .optional .string p.filter),
    ("disabled", .bool p.disabled)]

def Chart.json (c : Chart) : Json :=
  .object [
    ("name", .string c.name),
    ("options", c.options.json),
    ("initial", .strings c.initial),
    ("states", .array (c.states.map State.json)),
    ("groups", .array (c.groups.map EventGroup.json)),
    ("suppressed", .strings c.suppressed),
    ("transitions", .array (c.transitions.map Transition.json)),
    ("port_init", .optional Transport.json c.transport),
    ("ports", .array (c.ports.map Port.json))]

end Statechart
