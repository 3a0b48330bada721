import Statechart.Target.Grammar.Rule
import Statechart.Target.Lexer
import Statechart.Text.Quoted

/-!
Fragments of the target language read from text: identifiers, expressions, blocks, paths, files.

A fragment is accepted when the whole text is read, blanks and comments around it apart.
-/
set_option autoImplicit false

namespace Statechart.Target

/-- An identifier; a raw one is spelled with a mark in front of its name. -/
structure Ident where
  raw : Bool
  name : String
  deriving DecidableEq, Repr

namespace Ident

def ofText (text : String) : Ident :=
  match text.toList with
  | 'r' :: '#' :: cs => ⟨true, String.ofList cs⟩
  | _ => ⟨false, text⟩

def text (i : Ident) : String :=
  if i.raw then "r#" ++ i.name else i.name

def tokens (i : Ident) : List Token :=
  Token.word i.text

/-- An identifier with something before its name; the result is never raw. -/
def within (head : String) (i : Ident) : Ident :=
  ⟨false, head ++ i.name⟩

end Ident

namespace Fragment

def ident? (text : String) : Option Ident :=
  match Lexer.tokens? text with
  | some [.ident i] => if isIdentifier i then some (Ident.ofText i) else none
  | _ => none

def read? (r : Rule) (text : String) : Option Tree :=
  (Lexer.tokens? text).bind (Peg.parseAll Grammar.rules r)

def expr? : String → Option Tree := read? (.expr true)
def path? : String → Option Tree := read? .path

def block? (text : String) : Option Tree :=
  (read? .block text).filter fun block =>
    match block with
    | .node .block [.group .brace [.list [], _]] => true
    | _ => false

/-- A first line that names an interpreter is skipped, its line feed left in place. -/
def dropInterpreter (cs : List Char) : List Char :=
  match cs with
  | '#' :: '!' :: rest =>
    match Lexer.skip (rest.length + 1) rest with
    | '[' :: _ => cs
    | _ => cs.dropWhile (· ≠ '\n')
  | _ => cs

def dropMark (cs : List Char) : List Char :=
  match cs with
  | c :: rest => if c.toNat = 0xFEFF then rest else cs
  | [] => []

def file? (text : String) : Option Tree :=
  read? .file (String.ofList (dropInterpreter (dropMark text.toList)))

def fileOf? (ts : List Token) : Option Tree :=
  Peg.parseAll Grammar.rules .file ts

def stmts : Tree → List Tree
  | .node .block [.group .brace [_, .list stmts]] => stmts
  | _ => []

end Fragment

/-- The tokens of a template, which is written with a blank between any two tokens that do not
belong together. -/
def code (template : String) : List Token :=
  (Lexer.tokens? template).getD []

def stringLiteral (text : String) : List Token :=
  [.literal (Text.quoted text)]

def numberLiteral (n : Nat) : List Token :=
  [.literal (toString n)]

def docAttribute (text : String) : List Token :=
  Token.op "#" ++ Token.brackets (code "doc =" ++ [.literal ("r\"" ++ text ++ "\"")])

end Statechart.Target
