/-!
Cutting a text: at its head, at its tail, at a character, at every occurrence of a character, and
into lines.

A line ends at a line feed, and one carriage return before that line feed belongs to the ending.
A last line without a line feed keeps its carriage return; a text that ends in a line feed has no
empty line after it.
-/
set_option autoImplicit false

namespace Statechart.Text

def dropHeadChars? : List Char → List Char → Option (List Char)
  | [], cs => some cs
  | _ :: _, [] => none
  | h :: head, c :: cs => if h = c then dropHeadChars? head cs else none

def dropHead? (head s : String) : Option String :=
  (dropHeadChars? head.toList s.toList).map String.ofList

def dropTail? (tail s : String) : Option String :=
  (dropHeadChars? tail.toList.reverse s.toList.reverse).map fun cs => String.ofList cs.reverse

def startsWith (head s : String) : Bool :=
  (dropHead? head s).isSome

def endsWith (tail s : String) : Bool :=
  (dropTail? tail s).isSome

/-- The two sides of the first character that satisfies `p`; the character itself is dropped. -/
def cutChars? (p : Char → Bool) : List Char → Option (List Char × List Char)
  | [] => none
  | c :: cs =>
    if p c then some ([], cs)
    else (cutChars? p cs).map fun sides => (c :: sides.1, sides.2)

def cut? (p : Char → Bool) (s : String) : Option (String × String) :=
  (cutChars? p s.toList).map fun sides => (String.ofList sides.1, String.ofList sides.2)

/-- The pieces between the occurrences of `sep`; always one more than there are occurrences. -/
def splitChars (sep : Char) : List Char → List (List Char)
  | [] => [[]]
  | c :: cs =>
    if c = sep then [] :: splitChars sep cs
    else
      match splitChars sep cs with
      | [] => [[c]]
      | piece :: pieces => (c :: piece) :: pieces

def split (sep : Char) (s : String) : List String :=
  (splitChars sep s.toList).map String.ofList

def occursIn (piece : List Char) : List Char → Bool
  | [] => piece.isEmpty
  | c :: cs => (dropHeadChars? piece (c :: cs)).isSome || occursIn piece cs

def contains (piece s : String) : Bool :=
  occursIn piece.toList s.toList

def containsChar (c : Char) (s : String) : Bool :=
  s.toList.contains c

def dropReturn (cs : List Char) : List Char :=
  match cs.reverse with
  | '\r' :: rest => rest.reverse
  | _ => cs

/-- Lines of `cs`, where `line` holds the characters of the line being read, last one first. -/
def linesFrom : List Char → List Char → List (List Char)
  | line, [] => if line.isEmpty then [] else [line.reverse]
  | line, c :: cs =>
    if c = '\n' then dropReturn line.reverse :: linesFrom [] cs
    else linesFrom (c :: line) cs

def lines (s : String) : List String :=
  (linesFrom [] s.toList).map String.ofList

def unlines (ls : List String) : String :=
  "\n".intercalate ls

end Statechart.Text
