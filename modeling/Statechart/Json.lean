import Statechart.Text.Quoted

/-!
JSON values and their indented text.
-/
set_option autoImplicit false

namespace Statechart

inductive Json where
  | null
  | bool (b : Bool)
  | number (n : Nat)
  | string (s : String)
  | array (members : List Json)
  /-- Fields keep their order. -/
  | object (fields : List (String × Json))

namespace Json

def escapeChar (c : Char) : List Char :=
  match c with
  | '"' => ['\\', '"']
  | '\\' => ['\\', '\\']
  | '\n' => ['\\', 'n']
  | '\r' => ['\\', 'r']
  | '\t' => ['\\', 't']
  | c =>
    if c.toNat = 8 then ['\\', 'b']
    else if c.toNat = 12 then ['\\', 'f']
    else if c.toNat < 32 then
      ['\\', 'u', '0', '0', Text.hexDigit (c.toNat / 16), Text.hexDigit (c.toNat % 16)]
    else [c]

def quoted (s : String) : String :=
  "\"" ++ String.ofList (s.toList.flatMap escapeChar) ++ "\""

def indent (depth : Nat) : String :=
  String.ofList (List.replicate (2 * depth) ' ')

mutual

def pretty (depth : Nat) : Json → String
  | null => "null"
  | bool b => if b then "true" else "false"
  | number n => toString n
  | string s => quoted s
  | array [] => "[]"
  | array members => "[" ++ prettyMembers (depth + 1) members ++ "\n" ++ indent depth ++ "]"
  | object [] => "\x7b\x7d"
  | object fields =>
    "\x7b" ++ prettyFields (depth + 1) fields ++ "\n" ++ indent depth ++ "\x7d"

def prettyMembers (depth : Nat) : List Json → String
  | [] => ""
  | [m] => "\n" ++ indent depth ++ pretty depth m
  | m :: ms => "\n" ++ indent depth ++ pretty depth m ++ "," ++ prettyMembers depth ms

def prettyFields (depth : Nat) : List (String × Json) → String
  | [] => ""
  | [(key, value)] => "\n" ++ indent depth ++ quoted key ++ ": " ++ pretty depth value
  | (key, value) :: rest =>
    "\n" ++ indent depth ++ quoted key ++ ": " ++ pretty depth value ++ "," ++
      prettyFields depth rest

end

def text (j : Json) : String :=
  pretty 0 j

end Json

end Statechart
