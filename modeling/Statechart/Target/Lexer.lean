import Statechart.Text.Blank
import Statechart.Text.Identifier
import Statechart.Text.Quoted
import Statechart.Text.Split
import Statechart.Target.Token

/-!
Reading text of the target language into tokens.

Each recognizer takes the characters that are left and gives back what follows its lexeme, or
nothing if no such lexeme stands there. Comments and blanks separate tokens; documentation
comments are attributes and become tokens themselves.
-/
set_option autoImplicit false

namespace Statechart.Target.Lexer

open Statechart.Text

abbrev Recognizer := List Char → Option (List Char)

def firstOf : List Recognizer → Recognizer
  | [], _ => none
  | r :: rs, cs =>
    match r cs with
    | some rest => some rest
    | none => firstOf rs cs

def consumed (cs rest : List Char) : String :=
  String.ofList (cs.take (cs.length - rest.length))

def hasHead (head : String) (cs : List Char) : Bool :=
  (dropHeadChars? head.toList cs).isSome

def isSeparator (c : Char) : Bool :=
  isBlank c || c.toNat == 0x200E || c.toNat == 0x200F

def restOfLine : List Char → List Char
  | [] => []
  | '\n' :: cs => '\n' :: cs
  | '\r' :: '\n' :: cs => '\n' :: cs
  | _ :: cs => restOfLine cs

def lineText : List Char → List Char
  | [] => []
  | '\n' :: _ => []
  | '\r' :: '\n' :: _ => []
  | c :: cs => c :: lineText cs

/-- What follows a block comment that is open `depth` times; comments nest. -/
def closeComment : Nat → List Char → Option (List Char)
  | depth, '/' :: '*' :: cs => closeComment (depth + 1) cs
  | depth, '*' :: '/' :: cs =>
    match depth with
    | 0 => none
    | 1 => some cs
    | d + 2 => closeComment (d + 1) cs
  | depth, _ :: cs => closeComment depth cs
  | _, [] => none

def blockComment : Recognizer
  | '/' :: '*' :: cs => closeComment 1 cs
  | _ => none

def plainComment (cs : List Char) : Option (List Char) :=
  if hasHead "//" cs && (!hasHead "///" cs || hasHead "////" cs) && !hasHead "//!" cs then
    some (restOfLine cs)
  else if hasHead "/**/" cs then some (cs.drop 4)
  else if hasHead "/*" cs && (!hasHead "/**" cs || hasHead "/***" cs) && !hasHead "/*!" cs then
    blockComment cs
  else none

def skip : Nat → List Char → List Char
  | 0, cs => cs
  | fuel + 1, cs =>
    match plainComment cs with
    | some rest => skip fuel rest
    | none =>
      match cs with
      | c :: rest => if isSeparator c then skip fuel rest else cs
      | [] => []

def identPlain : Recognizer
  | c :: cs => if isIdentStart c then some (cs.dropWhile isIdentContinue) else none
  | [] => none

def neverRaw : List String := ["_", "super", "self", "Self", "crate"]

def identAny (cs : List Char) : Option (List Char) :=
  match cs with
  | 'r' :: '#' :: rest =>
    match identPlain rest with
    | some after => if neverRaw.contains (consumed rest after) then none else some after
    | none => none
  | _ => identPlain cs

def quotedOpenings : List String :=
  ["r\"", "r#\"", "r##", "b\"", "b'", "br\"", "br#", "c\"", "cr\"", "cr#"]

def ident (cs : List Char) : Option (List Char) :=
  if quotedOpenings.any (hasHead · cs) then none else identAny cs

def suffix (cs : List Char) : List Char :=
  (identPlain cs).getD cs

def isHex (c : Char) : Bool :=
  ('0' ≤ c && c ≤ '9') || ('a' ≤ c && c ≤ 'f') || ('A' ≤ c && c ≤ 'F')

def hexValue (c : Char) : Nat :=
  if '0' ≤ c && c ≤ '9' then c.toNat - 48
  else if 'a' ≤ c && c ≤ 'f' then c.toNat - 87
  else c.toNat - 55

def isScalar (n : Nat) : Bool :=
  n < 0xD800 || (0xE000 ≤ n && n ≤ 0x10FFFF)

def closeNumbered : Nat → Nat → List Char → Option (Nat × List Char)
  | _, _, [] => none
  | value, digits, c :: cs =>
    if isHex c then
      if digits = 6 then none else closeNumbered (value * 16 + hexValue c) (digits + 1) cs
    else if c = '_' && 0 < digits then closeNumbered value digits cs
    else if c = '\x7d' && 0 < digits then if isScalar value then some (value, cs) else none
    else none

structure Form where
  /-- Only ASCII characters stand for themselves. -/
  ascii : Bool
  /-- Characters may be given by number. -/
  numbered : Bool
  /-- Two hexadecimal digits name any byte, not only an ASCII one. -/
  bytes : Bool
  /-- A null may occur. -/
  null : Bool

def Form.str : Form := ⟨false, true, false, true⟩
def Form.bytestr : Form := ⟨true, false, true, true⟩
def Form.cstr : Form := ⟨false, true, true, false⟩

def escape (form : Form) : Recognizer
  | 'x' :: a :: b :: cs =>
    if isHex a && isHex b && (form.bytes || a.toNat < 56) &&
        (form.null || hexValue a + hexValue b ≠ 0) then some cs
    else none
  | 'u' :: '\x7b' :: cs =>
    if form.numbered then
      match closeNumbered 0 0 cs with
      | some (value, rest) => if form.null || value ≠ 0 then some rest else none
      | none => none
    else none
  | '0' :: cs => if form.null then some cs else none
  | c :: cs =>
    if c = 'n' || c = 'r' || c = 't' || c = '\\' || c = '\'' || c = '"' then some cs else none
  | [] => none

def lineContinuation : List Char → Option (List Char)
  | [] => none
  | '\r' :: '\n' :: cs => lineContinuation cs
  | '\r' :: _ => none
  | c :: cs => if c = ' ' || c = '\t' || c = '\n' then lineContinuation cs else some (c :: cs)

def closeQuoted (form : Form) : Nat → List Char → Option (List Char)
  | 0, _ => none
  | fuel + 1, cs =>
    match cs with
    | '"' :: rest => some (suffix rest)
    | '\r' :: '\n' :: rest => closeQuoted form fuel rest
    | '\r' :: _ => none
    | '\\' :: '\n' :: rest => (lineContinuation rest).bind (closeQuoted form fuel)
    | '\\' :: '\r' :: '\n' :: rest => (lineContinuation rest).bind (closeQuoted form fuel)
    | '\\' :: rest => (escape form rest).bind (closeQuoted form fuel)
    | c :: rest =>
      if (form.ascii && 128 ≤ c.toNat) || (!form.null && c.toNat = 0) then none
      else closeQuoted form fuel rest
    | [] => none

def rawOpening : Nat → List Char → Option (Nat × List Char)
  | hashes, '#' :: cs => rawOpening (hashes + 1) cs
  | hashes, '"' :: cs => if hashes ≤ 255 then some (hashes, cs) else none
  | _, _ => none

def dropHashes : Nat → List Char → Option (List Char)
  | 0, cs => some cs
  | n + 1, '#' :: cs => dropHashes n cs
  | _ + 1, _ => none

def closeRaw (form : Form) (hashes : Nat) : List Char → Option (List Char)
  | [] => none
  | '\r' :: '\n' :: cs => closeRaw form hashes cs
  | '\r' :: _ => none
  | '"' :: cs =>
    match dropHashes hashes cs with
    | some rest => some (suffix rest)
    | none => closeRaw form hashes cs
  | c :: cs =>
    if (form.ascii && 128 ≤ c.toNat) || (!form.null && c.toNat = 0) then none
    else closeRaw form hashes cs

def rawQuoted (form : Form) (cs : List Char) : Option (List Char) :=
  (rawOpening 0 cs).bind fun opened => closeRaw form opened.1 opened.2

def string : Recognizer
  | '"' :: cs => closeQuoted .str (cs.length + 1) cs
  | 'r' :: cs => rawQuoted .str cs
  | _ => none

def byteString : Recognizer
  | 'b' :: '"' :: cs => closeQuoted .bytestr (cs.length + 1) cs
  | 'b' :: 'r' :: cs => rawQuoted .bytestr cs
  | _ => none

def nullString : Recognizer
  | 'c' :: '"' :: cs => closeQuoted .cstr (cs.length + 1) cs
  | 'c' :: 'r' :: cs => rawQuoted .cstr cs
  | _ => none

def closeCharacter (form : Form) (cs : List Char) : Option (List Char) :=
  let inside :=
    match cs with
    | '\\' :: rest => escape form rest
    | c :: rest => if form.ascii && 128 ≤ c.toNat then none else some rest
    | [] => none
  match inside with
  | some ('\'' :: rest) => some (suffix rest)
  | _ => none

def byte : Recognizer
  | 'b' :: '\'' :: cs => closeCharacter .bytestr cs
  | _ => none

def character : Recognizer
  | '\'' :: cs => closeCharacter .str cs
  | _ => none

def isDecimal (c : Char) : Bool :=
  '0' ≤ c && c ≤ '9'

/-- A number is followed by its suffix, if any, and by no further identifier character. -/
def numberEnd (cs : List Char) : Option (List Char) :=
  let rest :=
    match cs with
    | c :: _ => if isIdentStart c then suffix cs else cs
    | [] => []
  match rest with
  | c :: _ => if isIdentContinue c then none else some rest
  | [] => some []

/-- The exponent after its letter. Without digits the number ends before the letter, where that
is possible. -/
def exponent (before : Option (List Char)) : Bool → Bool → List Char → Option (List Char)
  | sign, value, c :: cs =>
    if c = '+' || c = '-' then
      if value then some (c :: cs)
      else if sign then before
      else exponent before true value cs
    else if isDecimal c then exponent before sign true cs
    else if c = '_' then exponent before sign value cs
    else if value then some (c :: cs)
    else before
  | _, value, [] => if value then some [] else before

def floatDigits : Recognizer
  | [] => none
  | c :: cs =>
    if !isDecimal c then none
    else
      match cs.dropWhile fun d => isDecimal d || d = '_' with
      | '.' :: rest =>
        match rest with
        | d :: _ =>
          if d = '.' || isIdentStart d then none
          else fraction (rest.dropWhile fun d => isDecimal d || d = '_')
        | [] => some []
      | d :: rest => if d = 'e' || d = 'E' then exponent none false false rest else none
      | [] => none
where
  fraction : Recognizer
    | d :: rest =>
      if d = 'e' || d = 'E' then exponent (some (d :: rest)) false false rest else some (d :: rest)
    | [] => some []

def float (cs : List Char) : Option (List Char) :=
  (floatDigits cs).bind numberEnd

/-- Digits of a number in `base`, where `some` tells whether a digit was read already. -/
def digits (base : Nat) : Bool → Recognizer
  | read, [] => if read then some [] else none
  | read, c :: cs =>
    if isDecimal c then
      if base ≤ hexValue c then none else digits base true cs
    else if isHex c then
      if base ≤ hexValue c then if read then some (c :: cs) else none else digits base true cs
    else if c = '_' then
      if !read && base == 10 then none else digits base read cs
    else if read then some (c :: cs)
    else none

def int (cs : List Char) : Option (List Char) :=
  let rest :=
    match cs with
    | '0' :: 'x' :: rest => digits 16 false rest
    | '0' :: 'o' :: rest => digits 8 false rest
    | '0' :: 'b' :: rest => digits 2 false rest
    | _ => digits 10 false cs
  rest.bind numberEnd

def literal : Recognizer :=
  firstOf [string, byteString, nullString, byte, character, float, int]

def punctuation : List Char :=
  "~!@#$%^&*-=+|;:,<.>/?'".toList

def isPunct (cs : List Char) : Bool :=
  match cs with
  | c :: _ => !(hasHead "//" cs || hasHead "/*" cs) && punctuation.contains c
  | [] => false

def punct? (cs : List Char) : Option (Token × List Char) :=
  match cs with
  | '\'' :: rest =>
    match identAny rest with
    | some after =>
      match after with
      | '\'' :: _ => none
      | '#' :: _ => if hasHead "r#" rest then some (.punct '\'' true, rest) else none
      | _ => some (.punct '\'' true, rest)
    | none => none
  | c :: rest => if isPunct cs then some (.punct c (isPunct rest), rest) else none
  | [] => none

/-- A carriage return may stand only before a line feed. -/
def noBareReturn : List Char → Bool
  | [] => true
  | '\r' :: '\n' :: cs => noBareReturn cs
  | '\r' :: _ => false
  | _ :: cs => noBareReturn cs

/-- The text between the three opening and the two closing characters of a block comment. -/
def blockText (cs rest : List Char) : List Char :=
  (cs.take (cs.length - rest.length - 2)).drop 3

/-- A documentation comment: its text, whether it speaks about what encloses it, and what
follows it. -/
def docComment? (cs : List Char) : Option (List Char × Bool × List Char) :=
  if hasHead "//!" cs then some (lineText (cs.drop 3), true, restOfLine (cs.drop 3))
  else if hasHead "/*!" cs then (blockComment cs).map fun rest => (blockText cs rest, true, rest)
  else if hasHead "///" cs then
    if hasHead "////" cs then none
    else some (lineText (cs.drop 3), false, restOfLine (cs.drop 3))
  else if hasHead "/**" cs && !hasHead "/***" cs then
    (blockComment cs).map fun rest => (blockText cs rest, false, rest)
  else none

def docTokens (text : List Char) (inner : Bool) : List Token :=
  Token.op "#" ++ (if inner then Token.op "!" else []) ++
    Token.brackets
      (Token.word "doc" ++ Token.op "=" ++ [.literal (quoted (String.ofList text))])

abbrev Frame := List Token × Delim

def opens : Char → Option Delim
  | '(' => some .paren
  | '[' => some .bracket
  | '\x7b' => some .brace
  | _ => none

def closes : Char → Option Delim
  | ')' => some .paren
  | ']' => some .bracket
  | '\x7d' => some .brace
  | _ => none

def leaf? (cs : List Char) : Option (Token × List Char) :=
  match literal cs with
  | some rest => some (.literal (consumed cs rest), rest)
  | none =>
    match punct? cs with
    | some found => some found
    | none =>
      match ident cs with
      | some rest => some (.ident (consumed cs rest), rest)
      | none => none

/-- Reads tokens until the text ends; `done` holds those of the innermost open group, last one
first. -/
def run : Nat → List Frame → List Token → List Char → Option (List Token)
  | 0, _, _, _ => none
  | fuel + 1, frames, done, cs =>
    let cs := skip (cs.length + 1) cs
    match docComment? cs with
    | some (text, inner, rest) =>
      if noBareReturn text then
        run fuel frames ((docTokens text inner).reverse ++ done) rest
      else none
    | none =>
      match cs with
      | [] => if frames.isEmpty then some done.reverse else none
      | c :: rest =>
        match opens c with
        | some d => run fuel ((done, d) :: frames) [] rest
        | none =>
          match closes c with
          | some d =>
            match frames with
            | (before, opened) :: outer =>
              if opened = d then run fuel outer (.group d done.reverse :: before) rest else none
            | [] => none
          | none =>
            match leaf? cs with
            | some (t, rest) => run fuel frames (t :: done) rest
            | none => none

/-- The tokens of a text, unless it holds something that is no token or a delimiter without its
partner. A byte order mark at the front is skipped. -/
def tokens? (text : String) : Option (List Token) :=
  let cs :=
    match text.toList with
    | c :: cs => if c.toNat = 0xFEFF then cs else c :: cs
    | [] => []
  run (cs.length + 1) [] [] cs

end Statechart.Target.Lexer
