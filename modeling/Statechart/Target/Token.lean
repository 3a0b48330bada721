/-!
Tokens of the target language and their text.

A token stream is a list of trees: identifiers, single punctuation characters, literals and
delimited groups. A punctuation character is *joint* when it belongs together with the next one,
as in `::` or `+=`.
-/
set_option autoImplicit false

namespace Statechart.Target

inductive Delim where
  | paren
  | bracket
  | brace
  deriving DecidableEq, Repr

inductive Token where
  /-- An identifier or keyword as spelled, with the mark of a raw identifier. -/
  | ident (text : String)
  | punct (char : Char) (joint : Bool)
  /-- A literal as spelled. -/
  | literal (text : String)
  | group (delim : Delim) (inner : List Token)
  deriving Repr

namespace Delim

def opening : Delim → String
  | paren => "("
  | bracket => "["
  | brace => "\x7b"

def closing : Delim → String
  | paren => ")"
  | bracket => "]"
  | brace => "\x7d"

end Delim

namespace Token

mutual

def size : Token → Nat
  | ident _ => 1
  | punct _ _ => 1
  | literal _ => 1
  | group _ inner => sizeAll inner + 1

def sizeAll : List Token → Nat
  | [] => 0
  | t :: ts => size t + sizeAll ts

end

def joined : Token → Bool
  | punct _ joint => joint
  | _ => false

mutual

/-- Text of one token. A brace group is padded inside, the others are not. -/
def text : Token → String
  | ident text => text
  | punct c _ => c.toString
  | literal text => text
  | group d inner =>
    match d, inner with
    | .brace, [] => d.opening ++ " " ++ d.closing
    | .brace, t :: ts => d.opening ++ " " ++ text t ++ textAfter t.joined ts ++ " " ++ d.closing
    | _, [] => d.opening ++ d.closing
    | _, t :: ts => d.opening ++ text t ++ textAfter t.joined ts ++ d.closing

def textAfter : Bool → List Token → String
  | _, [] => ""
  | joined, t :: ts => (if joined then "" else " ") ++ text t ++ textAfter t.joined ts

end

def streamText : List Token → String
  | [] => ""
  | t :: ts => text t ++ textAfter t.joined ts

def word (text : String) : List Token :=
  [ident text]

def opChars : List Char → List Token
  | [] => []
  | [c] => [punct c false]
  | c :: cs => punct c true :: opChars cs

def op (text : String) : List Token :=
  opChars text.toList

def lifetime (name : String) : List Token :=
  [punct '\'' true, ident name]

def parens (inner : List Token) : List Token :=
  [group .paren inner]

def brackets (inner : List Token) : List Token :=
  [group .bracket inner]

def braces (inner : List Token) : List Token :=
  [group .brace inner]

def commaSeparated : List (List Token) → List Token
  | [] => []
  | [ts] => ts
  | ts :: rest => ts ++ op "," ++ commaSeparated rest

end Token

end Statechart.Target
