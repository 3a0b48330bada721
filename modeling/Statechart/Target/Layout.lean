import Statechart.Target.Layout.Item

/-!
The source text of a file tree.

Every node is drawn once, from the drawings of its children. Items that lack a part, such as a
function without a body outside of traits, can be read but have no layout.
-/
set_option autoImplicit false

namespace Statechart.Target.Layout

def isExprKind (k : Kind) : Bool :=
  [Kind.lit, .pathExpr, .invocation, .structLit, .fieldValue, .fieldInit, .tuple, .array, .repeated,
    .call, .method, .awaiting, .field, .fieldPair, .index, .question, .reference, .rawAddress,
    .unary, .binary, .compound, .assign, .cast, .range, .rangeTo, .closure, .closureTo, .ifElse,
    .whileLoop, .forLoop, .loop, .matching, .letCond, .blockExpr, .blockWith, .asyncBlock,
    .breaking, .continuing, .returning, .yielding, .infer, .block].contains k

def isStmtKind (k : Kind) : Bool :=
  k = .empty || k = .exprStmt || k = .invocationStmt || k = .letStmt

def isTypeKind (k : Kind) : Bool :=
  [Kind.outerAttr, .innerAttr, .metaPath, .metaList, .metaValue, .path, .qpath, .segment, .angle,
    .fnSugar, .lifetimeArg, .assocType, .constraint, .tyPath, .tyInvocation, .tyRef, .tyPtr,
    .tySlice, .tyArray, .tyTuple, .tyNever, .tyInfer, .tyImpl, .tyDyn, .tyFn, .fnPtrArg, .bound,
    .forLifetimes, .ret, .abi, .generics, .lifetimeParam, .typeParam, .constParam, .whereLifetime,
    .whereType, .patAlt, .patWild, .patRest, .patLit, .patRange, .patIdent, .patRef, .patTuple,
    .patSlice, .patPath, .patInvocation, .patStruct, .patTupleStruct, .fieldPat, .fieldShort,
    .patTyped, .patBlock].contains k

def drawNode (k : Kind) (kids : List Sketch) (place : Place) : List Doc :=
  match k, kids with
  | .attributed, [attrs, e] => attrs.plain ++ e.draw place
  | .arm, [attrs, pat, guard, _, body, _] => drawArm attrs pat guard body
  | k, kids =>
    if isExprKind k then drawExpr k kids place
    else if isStmtKind k then drawStmt k kids
    else if isTypeKind k then drawType k kids place
    else drawItem k kids

mutual

def sketch : Tree → Sketch
  | .leaf ts => .mk (.leaf ts) (fun _ => word (Tree.leaf ts).leafText) []
  | .group d kids => .mk (.group d kids) (fun _ => []) (sketches kids)
  | .list kids =>
    let drawn := sketches kids
    .mk (.list kids) (fun place => eachLast (fun _ (s : Sketch) => s.draw place) drawn) drawn
  | .node k kids =>
    let drawn := sketches kids
    .mk (.node k kids) (drawNode k drawn) drawn

def sketches : List Tree → List Sketch
  | [] => []
  | t :: ts => sketch t :: sketches ts

end

mutual

def hasVerbatim : Tree → Bool
  | .leaf _ => false
  | .group _ kids => anyVerbatim kids
  | .list kids => anyVerbatim kids
  | .node k kids => k = .verbatim || anyVerbatim kids

def anyVerbatim : List Tree → Bool
  | [] => false
  | t :: ts => hasVerbatim t || anyVerbatim ts

end

end Layout

/-- The source text of a file, unless it holds something that has no layout. -/
def layout? (file : Tree) : Option String :=
  if Layout.hasVerbatim file then none
  else some (Layout.render (Layout.sketch file).plain)

end Statechart.Target
