import Statechart.Report.Error

/-!
Files, and a tree of files held in memory.

A path is walked from the working directory, or from the root if it is absolute, one piece after the
other. A name may be a link, which leads to another place. What lies outside the working directory
is empty until something is written there, but for the link that every process has to it.
-/
set_option autoImplicit false

namespace Statechart

/-- Access to files that are in a state `σ`. A write that fails has no effect. -/
structure Disk (σ : Type) where
  read : σ → Path → Except FileFault String
  /-- Whether there is a file or directory. -/
  has : σ → Path → Bool
  write : σ → Path → String → Except FileFault σ

inductive Content where
  | text (s : String)
  /-- Bytes that are no text. -/
  | bytes
  deriving DecidableEq, Repr

inductive Node where
  | file (content : Content)
  | directory
  deriving DecidableEq, Repr

inductive Anchor where
  | root
  /-- Some levels above the working directory. -/
  | above (levels : Nat)
  deriving DecidableEq, Repr

structure Location where
  anchor : Anchor
  names : List String
  deriving DecidableEq, Repr

namespace Location

def here : Location := ⟨.above 0, []⟩

def child (l : Location) (name : String) : Location :=
  { l with names := l.names ++ [name] }

def up (l : Location) : Location :=
  match l.names, l.anchor with
  | [], .root => l
  | [], .above n => ⟨.above (n + 1), []⟩
  | names, _ => { l with names := names.dropLast }

end Location

/-- Files and directories by location, and the names that lead to another one. The directories where
walks begin are always there. -/
structure Store where
  nodes : List (Location × Node) :=
    [(⟨.root, ["proc"]⟩, .directory), (⟨.root, ["proc", "self"]⟩, .directory)]
  links : List (Location × Location) := [(⟨.root, ["proc", "self", "cwd"]⟩, .here)]
  deriving DecidableEq, Repr

namespace Store

def node? (s : Store) (l : Location) : Option Node :=
  if l.names.isEmpty then some .directory else s.nodes.lookup l

def put (s : Store) (l : Location) (n : Node) : Store :=
  { s with nodes := insert s.nodes }
where
  insert : List (Location × Node) → List (Location × Node)
    | [] => [(l, n)]
    | (k, m) :: rest => if k = l then (l, n) :: rest else (k, m) :: insert rest

def isLongName (piece : List Char) : Bool :=
  255 < (String.ofList piece).utf8ByteSize

def follow (s : Store) (l : Location) : Location :=
  (s.links.lookup l).getD l

/-- The location that pieces of a path lead to from a directory. Only the last piece may be
missing, and only if it is a name. -/
def walk (s : Store) : Location → List (List Char) → Except FileFault Location
  | l, [] => .ok l
  | l, piece :: rest =>
    if Path.isIdle piece then walk s l rest
    else if piece = ['.', '.'] then
      if s.node? l.up = some .directory then walk s l.up rest else .error .notFound
    else if isLongName piece then .error .nameTooLong
    else
      let next := s.follow (l.child (String.ofList piece))
      match s.node? next, rest with
      | _, [] => .ok next
      | some .directory, rest => walk s next rest
      | some (.file _), _ => .error .notDirectory
      | none, _ => .error .notFound

/-- The location that a path names; a path is shorter than 4096 bytes. -/
def locate (s : Store) (p : Path) : Except FileFault Location :=
  if p.text.toList.any (·.toNat = 0) then .error .nulByte
  else if p.text.isEmpty then .error .notFound
  else if 4096 ≤ p.text.utf8ByteSize then .error .nameTooLong
  else
    let start := if p.isAbsolute then ⟨.root, []⟩ else Location.here
    walk s start (Text.splitChars '/' p.text.toList)

def read (s : Store) (p : Path) : Except FileFault String := do
  match s.node? (← s.locate p) with
  | some (.file (.text text)) => .ok text
  | some (.file .bytes) => .error .notText
  | some .directory => .error .isDirectory
  | none => .error .notFound

def has (s : Store) (p : Path) : Bool :=
  match s.locate p with
  | .ok l => (s.node? l).isSome
  | .error _ => false

/-- A path that ends with a separator names a directory, whether it is there or not. -/
def namesDirectory (s : Store) (p : Path) : Bool :=
  match (Text.splitChars '/' p.text.toList).reverse with
  | [] :: rest =>
    match s.locate ⟨String.ofList (List.intercalate ['/'] (rest.dropWhile (· = [])).reverse)⟩ with
    | .ok l => (s.node? l).isNone
    | .error _ => false
  | _ => false

def write (s : Store) (p : Path) (text : String) : Except FileFault Store :=
  if s.namesDirectory p then .error .isDirectory
  else do
    let l ← s.locate p
    match s.node? l with
    | some .directory => .error .isDirectory
    | _ => .ok (s.put l (.file (.text text)))

def seed (s : Store) (names : List String) (n : Node) : Store :=
  let s := (List.range (names.length - 1)).foldl
    (fun s i => s.put ⟨.above 0, names.take (i + 1)⟩ .directory) s
  s.put ⟨.above 0, names⟩ n

def texts (s : Store) : List (String × String) :=
  s.nodes.filterMap fun
    | (⟨.above 0, names⟩, .file (.text text)) => some ("/".intercalate names, text)
    | _ => none

def disk : Disk Store := ⟨read, has, write⟩

end Store

end Statechart
