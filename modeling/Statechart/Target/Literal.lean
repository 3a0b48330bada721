import Statechart.Target.Token

/-!
Values of string literals and the classes of literals that layout tells apart.
-/
set_option autoImplicit false

namespace Statechart.Target.Literal

def hexDigit? (c : Char) : Option Nat :=
  if '0' ≤ c && c ≤ '9' then some (c.toNat - '0'.toNat)
  else if 'a' ≤ c && c ≤ 'f' then some (c.toNat - 'a'.toNat + 10)
  else if 'A' ≤ c && c ≤ 'F' then some (c.toNat - 'A'.toNat + 10)
  else none

def hexValue (cs : List Char) : Nat :=
  (cs.filterMap hexDigit?).foldl (fun n d => 16 * n + d) 0

def isLineBlank (c : Char) : Bool :=
  c = ' ' || c = '\t' || c = '\n' || c = '\r'

def cooked : Nat → List Char → Option (List Char)
  | 0, _ => none
  | _, [] => none
  | _, '"' :: _ => some []
  | fuel + 1, '\\' :: 'x' :: a :: b :: cs => (cooked fuel cs).map (Char.ofNat (hexValue [a, b]) :: ·)
  | fuel + 1, '\\' :: 'u' :: cs =>
    let digits := cs.takeWhile (· ≠ '\x7d')
    (cooked fuel (cs.drop (digits.length + 1))).map (Char.ofNat (hexValue digits) :: ·)
  | fuel + 1, '\\' :: 'n' :: cs => (cooked fuel cs).map ('\n' :: ·)
  | fuel + 1, '\\' :: 'r' :: cs => (cooked fuel cs).map ('\r' :: ·)
  | fuel + 1, '\\' :: 't' :: cs => (cooked fuel cs).map ('\t' :: ·)
  | fuel + 1, '\\' :: '0' :: cs => (cooked fuel cs).map (Char.ofNat 0 :: ·)
  | fuel + 1, '\\' :: '\r' :: cs => cooked fuel (cs.dropWhile isLineBlank)
  | fuel + 1, '\\' :: '\n' :: cs => cooked fuel (cs.dropWhile isLineBlank)
  | fuel + 1, '\\' :: c :: cs => (cooked fuel cs).map (c :: ·)
  | fuel + 1, '\r' :: '\n' :: cs => (cooked fuel cs).map ('\n' :: ·)
  | fuel + 1, c :: cs => (cooked fuel cs).map (c :: ·)

def upTo (close : List Char) : List Char → Option (List Char)
  | [] => none
  | c :: cs => if close.isPrefixOf (c :: cs) then some [] else (upTo close cs).map (c :: ·)

def string? (text : String) : Option String :=
  match text.toList with
  | '"' :: cs => (cooked (cs.length + 1) cs).map String.ofList
  | 'r' :: cs =>
    let marks := cs.takeWhile (· = '#')
    match cs.drop marks.length with
    | '"' :: cs => (upTo ('"' :: marks) cs).map String.ofList
    | _ => none
  | _ => none

def isFraction (cs : List Char) : Bool :=
  match cs with
  | '0' :: 'x' :: _ => false
  | '0' :: 'o' :: _ => false
  | '0' :: 'b' :: _ => false
  | _ =>
    match cs.dropWhile fun c => ('0' ≤ c && c ≤ '9') || c = '_' with
    | '.' :: _ => true
    | 'e' :: _ => true
    | 'E' :: _ => true
    | _ => false

def isPlain (text : String) : Bool :=
  match text.toList with
  | '\'' :: _ => true
  | 'b' :: '\'' :: _ => true
  | c :: cs =>
    if '0' ≤ c && c ≤ '9' then !isFraction (c :: cs) else text = "true" || text = "false"
  | [] => false

end Statechart.Target.Literal
