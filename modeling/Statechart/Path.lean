import Statechart.Text.Split

/-!
Paths of files.

A path keeps its spelling. Its components leave out repeated separators, inner dots and a trailing
separator; two paths are the same if their components are.
-/
set_option autoImplicit false

namespace Statechart

structure Path where
  text : String
  deriving DecidableEq, Repr

namespace Path

inductive Component where
  | root
  /-- A dot at the front of the path. -/
  | here
  | up
  | name (text : String)
  deriving DecidableEq, Repr

def isAbsolute (p : Path) : Bool :=
  p.text.toList.head? = some '/'

def startsHere (p : Path) : Bool :=
  match p.text.toList with
  | ['.'] => true
  | '.' :: '/' :: _ => true
  | _ => false

/-- The characters in front of the names: the root, a leading dot, or nothing. -/
def head (p : Path) : List Char :=
  if p.isAbsolute || p.startsHere then p.text.toList.take 1 else []

def pieces (p : Path) : List (List Char) :=
  Text.splitChars '/' (p.text.toList.drop p.head.length)

def isIdle (piece : List Char) : Bool :=
  piece = [] || piece = ['.']

def components (p : Path) : List Component :=
  (if p.isAbsolute then [.root] else if p.startsHere then [.here] else []) ++
    (p.pieces.filter (!isIdle ·)).map fun piece =>
      if piece = ['.', '.'] then .up else .name (String.ofList piece)

def same (p q : Path) : Bool :=
  p.components == q.components

/-- A path from its head and its pieces, the last piece first. -/
def ofReversed (head : List Char) (pieces : List (List Char)) : Path :=
  ⟨String.ofList (head ++ List.intercalate ['/'] pieces.reverse)⟩

def parent? (p : Path) : Option Path :=
  match p.pieces.reverse.dropWhile isIdle with
  | _ :: rest => some (ofReversed p.head (rest.dropWhile isIdle))
  | [] => if p.startsHere then some ⟨""⟩ else none

def parent (p : Path) : Path :=
  p.parent?.getD ⟨""⟩

/-- `q` seen from `p`; an absolute path is seen as itself. -/
def join (p q : Path) : Path :=
  if q.isAbsolute || p.text.isEmpty then q
  else if p.text.toList.getLast? = some '/' then ⟨p.text ++ q.text⟩
  else ⟨p.text ++ "/" ++ q.text⟩

def fileName? (p : Path) : Option String :=
  match p.components.getLast? with
  | some (.name text) => some text
  | _ => none

/-- The file name up to its last dot; a dot at its beginning does not count. -/
def stem? (p : Path) : Option String :=
  p.fileName?.map fun file =>
    match (Text.splitChars '.' file.toList).reverse with
    | _ :: rest =>
      let before := List.intercalate ['.'] rest.reverse
      if before.isEmpty then file else String.ofList before
    | [] => file

def withFileName (p : Path) (file : String) : Path :=
  match p.fileName? with
  | some _ => p.parent.join ⟨file⟩
  | none => p.join ⟨file⟩

end Path

end Statechart
