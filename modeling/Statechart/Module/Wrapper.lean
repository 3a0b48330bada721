import Statechart.Module.Constructor

/-!
The type that wraps a chart: its construction, the events sent to it, and its ports.
-/
set_option autoImplicit false

namespace Statechart.Module

open Target

def hasPorts (c : Chart) : Bool :=
  c.transport.isSome && !c.enabledPorts.isEmpty

structure Route where
  first : Nat
  last : Nat
  port : String
  deriving DecidableEq, Repr

/-- The route of an enabled output port that is for one group of events. -/
def route? (c : Chart) (p : Port) : Option Route := do
  let group ← p.filter.bind c.group?
  return ⟨← group.ids.head?, ← group.ids.getLast?, p.name⟩

def routes (c : Chart) : List Route :=
  (c.enabledPorts.filter (!·.direction.isInput)).filterMap (route? c)

namespace Route

def tokens (r : Route) : List Token :=
  numberLiteral r.first ++ Token.op "..=" ++ numberLiteral r.last ++ code "=> Some" ++
    Token.parens (stringLiteral r.port) ++ Token.op ","

end Route

def routeFn (c : Chart) : List Token :=
  docAttribute " Output port capturing the group of `event`, if any." ++
    code "fn route (event : EventId) -> Option < & 'static str >" ++
    Token.braces (
      code "match event . 0" ++
      Token.braces ((routes c).flatMap Route.tokens ++ code "_ => None ,"))

def listenCalls (p : Port) : List Token :=
  let subscribe :=
    if p.direction = .subscribe then
      code "self . ports . subscribe" ++
        Token.parens (Token.commaSeparated
          [stringLiteral p.name, stringLiteral (p.filter.getD "")]) ++ code "? ;"
    else []
  subscribe ++ code "self . ports . listen" ++ Token.parens (stringLiteral p.name) ++ code "? ;"

def nameConst (c : Chart) : List Token :=
  code "pub const NAME : & 'static str =" ++ stringLiteral c.name ++ Token.op ";"

def statechartFn : List Token :=
  code "pub fn statechart () -> Statechart < Self > \x7b build_statechart () \x7d"

def defaultImpl (chart : Ident) : List Token :=
  code "impl Default for" ++ chart.tokens ++
    Token.braces (code "fn default () -> Self \x7b Self :: new () \x7d")

def localWrapper (c : Chart) (chart : Ident) : List Token :=
  code "pub struct" ++ chart.tokens ++ Token.braces (code "queue : EventQueue ,") ++
    code "impl" ++ chart.tokens ++ Token.braces (
      nameConst c ++
      code ("pub fn new () -> Self \x7b " ++
        "Self \x7b queue : EventQueue :: new (EVENT_GROUPS , SUPPRESSED_EVENTS) , \x7d \x7d") ++
      statechartFn ++
      code ("pub fn send_event (& self , event : EventId , data : Option < EventData >) \x7b " ++
        "self . queue . push (event , data) ; \x7d") ++
      code "pub fn shutdown (& self) \x7b self . queue . close () ; \x7d") ++
    defaultImpl chart

def portWrapper (c : Chart) (chart : Ident) : List Token :=
  let listeners := (c.enabledPorts.filter (·.direction.isInput)).flatMap listenCalls
  routeFn c ++
    code "pub struct" ++ chart.tokens ++
    Token.braces (code "queue : EventQueue , ports : PortSet ,") ++
    code "impl" ++ chart.tokens ++ Token.braces (
      nameConst c ++
      code ("pub fn new () -> Self \x7b " ++
        "Self \x7b queue : EventQueue :: new (EVENT_GROUPS , SUPPRESSED_EVENTS) , " ++
        "ports : PortSet :: new (& PORT_TRANSPORT , PORTS) , \x7d \x7d") ++
      statechartFn ++
      docAttribute " Queues `event` locally unless an output port captures its group." ++
      code ("pub fn send_event (& self , event : EventId , data : Option < EventData >) \x7b " ++
        "match route (event) \x7b " ++
        "Some (port) => self . send_event_as_msg (port , event , data) , " ++
        "None => self . queue . push (event , data) , \x7d \x7d") ++
      code ("pub fn send_event_as_msg " ++
        "(& self , port : & str , event : EventId , data : Option < EventData >) \x7b " ++
        "if let Err (err) = self . ports . send (port , event , data) \x7b " ++
        "eprintln ! (\"\x7b\x7d: cannot send \x7b:?\x7d on port \x7b\x7d: \x7b\x7d\" , " ++
        "Self :: NAME , event , port , err) ; \x7d \x7d") ++
      docAttribute " Starts listening on every input port." ++
      code "pub fn subscribe (& self) -> Result < () , PortError >" ++
      Token.braces (listeners ++ code "Ok (())") ++
      docAttribute " Decodes a message received on `port` and queues its event locally." ++
      code ("pub fn on_port_message " ++
        "(& self , port : & str , message : & [u8]) -> Result < () , PortError > \x7b " ++
        "let (event , data) = self . ports . decode (port , message) ? ; " ++
        "self . queue . push (event , data) ; Ok (()) \x7d") ++
      code ("pub fn shutdown (& self) \x7b " ++
        "self . ports . close () ; self . queue . close () ; \x7d")) ++
    defaultImpl chart

def wrapper (c : Chart) (chart : Ident) : List Token :=
  if hasPorts c then portWrapper c chart else localWrapper c chart

end Statechart.Module
