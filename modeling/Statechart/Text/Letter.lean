/-!
ASCII letters and digits: case folding for keys and keywords, and decimal numbers.

Only ASCII letters have a case here; every other character is left as it is.
-/
set_option autoImplicit false

namespace Statechart.Text

def lowerChar (c : Char) : Char :=
  if 'A' ≤ c ∧ c ≤ 'Z' then Char.ofNat (c.toNat + 32) else c

def lower (s : String) : String :=
  String.ofList (s.toList.map lowerChar)

def sameLetters (a b : String) : Bool :=
  lower a == lower b

def isDigit (c : Char) : Bool :=
  '0' ≤ c && c ≤ '9'

def decimalFrom? : Nat → List Char → Option Nat
  | n, [] => some n
  | n, c :: cs => if isDigit c then decimalFrom? (10 * n + (c.toNat - 48)) cs else none

/-- A decimal number of at most `limit`: digits, with an optional plus sign before them. -/
def decimal? (limit : Nat) (s : String) : Option Nat :=
  let digits :=
    match s.toList with
    | '+' :: rest => rest
    | cs => cs
  if digits.isEmpty then none
  else (decimalFrom? 0 digits).filter (· ≤ limit)

end Statechart.Text
