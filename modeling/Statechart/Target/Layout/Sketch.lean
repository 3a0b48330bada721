import Statechart.Target.Layout.Doc
import Statechart.Target.Tree

/-!
Trees together with their drawings.

How a part is drawn depends on where it stands: at the beginning of a line, in front of a dot, as
the body of a match arm. A sketch of a tree holds the drawing for every place, and the sketches of
its children, so that a parent chooses the place of each child.
-/
set_option autoImplicit false

namespace Statechart.Target.Layout

inductive PathStyle where
  /-- Not at all. -/
  | bare
  | inType
  /-- With a separator in front. -/
  | inExpr
  deriving DecidableEq

inductive Place where
  /-- `first` if at the beginning of a line. -/
  | line (first : Bool)
  /-- In front of a dot, a question mark or an index. -/
  | head (first : Bool)
  /-- The body of a match arm. -/
  | arm
  /-- After the word for the other case of a condition. -/
  | orElse
  | path (style : PathStyle)
  | stmt (last : Bool)

inductive Sketch where
  | mk (tree : Tree) (draw : Place → List Doc) (kids : List Sketch)

namespace Sketch

def tree : Sketch → Tree
  | mk t _ _ => t

def draw : Sketch → Place → List Doc
  | mk _ d _ => d

def kids : Sketch → List Sketch
  | mk _ _ ks => ks

def plain (s : Sketch) : List Doc := s.draw (.line false)

def isLeaf (s : Sketch) : Bool :=
  match s.tree with
  | .leaf _ => true
  | _ => false

def items (s : Sketch) : List Sketch := s.kids.filter (!·.isLeaf)

def isMissing (s : Sketch) : Bool := s.tree.isEmptyList

def is (k : Kind) (s : Sketch) : Bool := s.tree.hasKind k

def text (s : Sketch) : String := s.tree.leafText

def rawGroup (s : Sketch) : Token :=
  match s.tree with
  | .leaf [t] => t
  | _ => .group .paren []

end Sketch

/-- The text of a part if it is there, with a blank after it. -/
def flag (s : Sketch) : List Doc :=
  eachLast (fun _ (k : Sketch) => k.plain ++ nbsp) s.kids

def bracketed (opening closing : String) (members : List Sketch) : List Doc :=
  word opening ++
    cbox step (outdent (zerobreak ++ eachLast (fun last s => s.plain ++ comma last) members)) ++
    word closing

def tupled (members : List Sketch) : List Doc :=
  match members with
  | [s] => word "(" ++
      cbox step (outdent (zerobreak ++ s.plain ++ word "," ++ zerobreak)) ++ word ")"
  | _ => bracketed "(" ")" members

end Statechart.Target.Layout
