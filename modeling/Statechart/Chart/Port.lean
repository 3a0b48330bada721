import Statechart.Text.Blank
import Statechart.Text.Letter

/-!
Ports: the network connections of a chart.
-/
set_option autoImplicit false

namespace Statechart

inductive Direction where
  | reply
  | pull
  | subscribe
  | request
  | push
  | publish
  deriving DecidableEq, Repr

namespace Direction

def accepted : String := "reply, pull, subscribe, request, push or publish"

def ofText? (text : String) : Option Direction :=
  match Text.lower (Text.trim text) with
  | "reply" => some reply
  | "pull" => some pull
  | "subscribe" => some subscribe
  | "request" => some request
  | "push" => some push
  | "publish" => some publish
  | _ => none

def isInput : Direction → Bool
  | reply => true
  | pull => true
  | subscribe => true
  | _ => false

def name : Direction → String
  | reply => "Reply"
  | pull => "Pull"
  | subscribe => "Subscribe"
  | request => "Request"
  | push => "Push"
  | publish => "Publish"

end Direction

inductive Format where
  | anyEvent
  | jsonData
  | yamlData
  deriving DecidableEq, Repr

namespace Format

def accepted : String := "AnyEvent, JsonData or YamlData"

def name : Format → String
  | anyEvent => "AnyEvent"
  | jsonData => "JsonData"
  | yamlData => "YamlData"

def ofText? (text : String) : Option Format :=
  match Text.trim text with
  | "AnyEvent" => some anyEvent
  | "JsonData" => some jsonData
  | "YamlData" => some yamlData
  | _ => none

end Format

structure Port where
  /-- The section it was read from. -/
  origin : String
  host : String
  number : Nat
  name : String
  direction : Direction
  format : Format
  /-- The event group that the port is for, if not all of them. -/
  filter : Option String
  disabled : Bool
  deriving DecidableEq, Repr

structure Transport where
  kind : String
  module : String
  deriving DecidableEq, Repr

end Statechart
