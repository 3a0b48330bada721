import Statechart.Target.Layout.Sketch
import Statechart.Target.Layout.Stream
import Statechart.Target.Literal

/-!
Drawing of attributes, paths, types, generics and patterns.
-/
set_option autoImplicit false

namespace Statechart.Target.Layout

def dropEndBlanks (text : String) : String :=
  String.ofList (text.toList.reverse.dropWhile (· = ' ')).reverse

/-- Text without blanks at the end of its lines, the last one apart. -/
def dropInnerBlanks (text : String) : String :=
  match (text.splitOn "\n").reverse with
  | [] => ""
  | last :: lines => String.intercalate "\n" ((lines.map dropEndBlanks).reverse ++ [last])

/-- Comment marks are balanced, so the text may stand in a comment. -/
def balancedComment : Nat → List Char → Bool
  | depth, '/' :: '*' :: cs => balancedComment (depth + 1) cs
  | 0, '*' :: '/' :: _ => false
  | depth + 1, '*' :: '/' :: cs => balancedComment depth cs
  | depth, _ :: cs => balancedComment depth cs
  | depth, [] => depth = 0

def startsWithAny (chars : List Char) (text : String) : Bool :=
  match text.toList with
  | c :: _ => chars.contains c
  | [] => false

/-- A documentation text or comment as a line or a block, if it can be one. -/
def comment? (line block : String) (noLine noBlock : List Char) (text : String) :
    Option (List Doc) :=
  if !text.toList.contains '\n' && !startsWithAny noLine text then
    some (word line ++ word (dropEndBlanks text) ++ hardbreak)
  else if balancedComment 0 text.toList && !startsWithAny noBlock text then
    some (word block ++ word (dropInnerBlanks text) ++ word "*/" ++ hardbreak)
  else none

def textAttr? : Tree → Option (String × String)
  | .node .metaValue [.node .path [.list [], .list [.node .segment [name, _]]], _,
      .node .lit [.list [], .leaf [.literal value]]] =>
    (Literal.string? value).map fun text => (name.leafText, text)
  | _ => none

def attrComment? (inner : Bool) (content : Tree) : Option (List Doc) :=
  match textAttr? content with
  | some ("doc", text) =>
    if inner then comment? "//!" "/*!" [] [] text
    else comment? "///" "/**" ['/'] ['*', '/'] text
  | some ("comment", text) => comment? "//" "/*" [] ['*', '!'] text
  | _ => none

def drawAttr (inner : Bool) (content : Sketch) : List Doc :=
  match attrComment? inner content.tree with
  | some docs => docs
  | none => word (if inner then "#!" else "#") ++ word "[" ++ content.plain ++ word "]" ++ space

def lifetimesFirst (k : Kind) (members : List Sketch) : List Sketch :=
  members.filter (·.is k) ++ members.filter (!·.is k)

def drawAngle (style : PathStyle) (arguments : Sketch) : List Doc :=
  if arguments.isMissing || style = .bare then []
  else
    (if style = .inExpr then word "::" else []) ++
      bracketed "<" ">" (lifetimesFirst .lifetimeArg arguments.items)

def drawPath (style : PathStyle) : List Sketch → List Doc
  | [separator, segments] =>
    separator.plain ++ interleaved (word "::") (·.draw (.path style)) segments.items
  | _ => []

def drawQualified (style : PathStyle) : List Sketch → List Doc
  | [_, ty, trait, _, _, segments] =>
    let self :=
      match trait.kids with
      | [_, path] => ty.plain ++ word " as " ++ path.draw (.path .inType)
      | _ => ty.plain
    word "<" ++ self ++ word ">" ++
      eachLast (fun _ (s : Sketch) => word "::" ++ s.draw (.path style)) segments.items
  | _ => []

def drawBounds (bounds : List Sketch) : List Doc :=
  match bounds with
  | [] => []
  | b :: rest =>
    word ": " ++ b.plain ++ eachLast (fun _ (s : Sketch) => space ++ word "+ " ++ s.plain) rest

def drawSum (bounds : List Sketch) : List Doc :=
  interleaved (word " + ") Sketch.plain bounds

def isSimplePattern (s : Sketch) : Bool := s.is .patLit || s.is .patWild

def drawAlternatives (cases : List Sketch) : List Doc :=
  let docs := interleaved (space ++ word "| ") Sketch.plain cases
  if cases.all isSimplePattern then ibox 0 docs else cbox 0 docs

def drawFieldPatterns (head : List Doc) (members : List Sketch) : List Doc :=
  let fields := members.filter (!·.is .patRest)
  let rests := members.filter (·.is .patRest)
  cbox step (outdent (
    head ++ word " \x7b" ++ spaceIfMore ++
      eachLast (fun last s => s.plain ++ commaOrSpace (last && rests.isEmpty)) fields ++
      eachLast (fun _ (s : Sketch) => s.plain ++ space) rests)) ++
    word "\x7d"

def drawTuplePattern (members : Sketch) : List Doc :=
  match members.kids with
  | [s] => word "(" ++ s.plain ++ word ")"
  | _ => tupled members.items

def drawType (k : Kind) (kids : List Sketch) (place : Place) : List Doc :=
  let style : PathStyle :=
    match place with
    | .path style => style
    | _ => .inType
  match k, kids with
  | .outerAttr, [_, g] => eachLast (fun _ s => drawAttr false s) g.kids
  | .innerAttr, [_, _, g] => eachLast (fun _ s => drawAttr true s) g.kids
  | .metaPath, [path] => path.draw (.path .bare)
  | .metaList, [path, g] =>
    path.draw (.path .bare) ++ (attrToken false .mark g.rawGroup).1
  | .metaValue, [path, _, value] => path.draw (.path .bare) ++ word " = " ++ value.plain
  | .path, kids => drawPath style kids
  | .qpath, kids => drawQualified style kids
  | .segment, [name, arguments] =>
    name.plain ++ eachLast (fun _ (s : Sketch) => s.draw (.path style)) arguments.kids
  | .angle, [_, _, arguments, _] => drawAngle style arguments
  | .fnSugar, [_, g, ret] =>
    match g.kids with
    | [tys] => cbox step (
        outdent (word "(" ++ zerobreak ++
          eachLast (fun last (s : Sketch) => s.plain ++ comma last) tys.items) ++
        word ")" ++ ret.plain)
    | _ => []
  | .lifetimeArg, [l] => l.plain
  | .assocType, [name, arguments, _, ty] =>
    name.plain ++ eachLast (fun _ (s : Sketch) => s.plain) arguments.kids ++ word " = " ++ ty.plain
  | .constraint, [name, arguments, _, bounds] =>
    name.plain ++ eachLast (fun _ (s : Sketch) => s.plain) arguments.kids ++
      ibox step (drawBounds bounds.items)
  | .tyPath, [path] => path.draw (.path .inType)
  | .tyInvocation, [path, _, g] => invocation (path.draw (.path .bare)) [] g.rawGroup false
  | .tyRef, [_, lifetime, mutable, ty] => word "&" ++ flag lifetime ++ flag mutable ++ ty.plain
  | .tyPtr, [_, mutable, ty] => word "*" ++ mutable.plain ++ nbsp ++ ty.plain
  | .tySlice, [g] => word "[" ++ eachLast (fun _ (s : Sketch) => s.plain) g.kids ++ word "]"
  | .tyArray, [g] =>
    match g.kids with
    | [ty, _, len] => word "[" ++ ty.plain ++ word "; " ++ len.plain ++ word "]"
    | _ => []
  | .tyTuple, [g] =>
    match g.kids with
    | [members] =>
      match members.kids with
      | [ty] => word "(" ++ ty.plain ++ word ")"
      | _ => tupled members.items
    | _ => []
  | .tyNever, _ => word "!"
  | .tyInfer, _ => word "_"
  | .tyImpl, [_, bounds] => word "impl " ++ drawSum bounds.items
  | .tyDyn, [dyn, bounds] =>
    (if dyn.isMissing then [] else word "dyn ") ++ drawSum bounds.items
  | .tyFn, [lifetimes, risky, abi, _, g, ret] =>
    lifetimes.plain ++ flag risky ++ abi.plain ++ word "fn" ++
      (match g.kids with
        | [members] => bracketed "(" ")" members.items
        | _ => []) ++ ret.plain
  | .fnPtrArg, [attrs, name, ty] =>
    attrs.plain ++
      (match name.kids with
        | [name, _] => name.plain ++ word ": "
        | _ => []) ++ ty.plain
  | .bound, [maybe, lifetimes, path] =>
    maybe.plain ++ lifetimes.plain ++ path.draw (.path .inType)
  | .bound, [g] => word "(" ++ eachLast (fun _ (s : Sketch) => s.plain) g.kids ++ word ")"
  | .forLifetimes, [_, _, members, _] =>
    word "for<" ++ interleaved (word ", ") Sketch.plain members.items ++ word "> "
  | .ret, [_, ty] => word " -> " ++ ty.plain
  | .abi, [_, name] => word "extern " ++ flag name
  -- generics
  | .generics, [_, members, _] =>
    if members.isMissing then []
    else word "<" ++
      cbox 0 (outdent (zerobreak ++ eachLast (fun last (s : Sketch) => s.plain ++ comma last)
        (lifetimesFirst .lifetimeParam members.items))) ++
      word ">"
  | .lifetimeParam, [attrs, name, bounds] =>
    attrs.plain ++ name.plain ++
      (match bounds.kids with
        | [_, bounds] => if bounds.isMissing then [] else word ": " ++ drawSum bounds.items
        | _ => [])
  | .typeParam, [attrs, name, bounds, value] =>
    attrs.plain ++ name.plain ++
      ibox step (
        (match bounds.kids with
          | [_, bounds] => drawBounds bounds.items
          | _ => []) ++
        (match value.kids with
          | [_, ty] => space ++ word "= " ++ ty.plain
          | _ => []))
  | .constParam, [attrs, _, name, _, ty, value] =>
    attrs.plain ++ word "const " ++ name.plain ++ word ": " ++ ty.plain ++
      (match value.kids with
        | [_, value] => word " = " ++ value.plain
        | _ => [])
  | .whereLifetime, [name, _, bounds] =>
    name.plain ++ word ": " ++ drawSum bounds.items
  | .whereType, [lifetimes, ty, _, bounds] =>
    cbox step (lifetimes.plain ++ ty.plain ++ word ":" ++
      ibox (if bounds.items.length = 1 then 0 else step)
        (match bounds.items with
          | [] => []
          | b :: rest =>
            nbsp ++ b.plain ++
              eachLast (fun _ (s : Sketch) => space ++ word "+ " ++ s.plain) rest))
  -- patterns
  | .patAlt, [bar, cases] =>
    match bar.isMissing, cases.items with
    | true, [s] => s.plain
    | _, items => drawAlternatives items
  | .patWild, _ => word "_"
  | .patRest, _ => word ".."
  | .patLit, [minus, value] => minus.plain ++ value.plain
  | .patRange, [low, dots, high] => low.plain ++ dots.plain ++ high.plain
  | .patIdent, [byRef, mutable, name, sub] =>
    flag byRef ++ flag mutable ++ name.plain ++
      (match sub.kids with
        | [_, s] => word " @ " ++ s.plain
        | _ => [])
  | .patRef, [_, mutable, s] => word "&" ++ flag mutable ++ s.plain
  | .patTuple, [g] => eachLast (fun _ s => drawTuplePattern s) g.kids
  | .patSlice, [g] =>
    word "[" ++
      (match g.kids with
        | [members] => eachLast (fun last (s : Sketch) => s.plain ++ comma last) members.items
        | _ => []) ++
      word "]"
  | .patPath, [path] => path.draw (.path .inExpr)
  | .patInvocation, [path, _, g] => invocation (path.draw (.path .bare)) [] g.rawGroup false
  | .patStruct, [path, g] =>
    match g.kids with
    | [members] => drawFieldPatterns (path.draw (.path .inExpr)) members.items
    | _ => []
  | .patTupleStruct, [path, g] =>
    path.draw (.path .inExpr) ++
      (match g.kids with
        | [members] => bracketed "(" ")" members.items
        | _ => [])
  | .fieldPat, [attrs, name, _, s] => attrs.plain ++ name.plain ++ word ": " ++ s.plain
  | .fieldShort, [attrs, boxed, byRef, mutable, name] =>
    attrs.plain ++ flag boxed ++ flag byRef ++ flag mutable ++ name.plain
  | .patTyped, [attrs, s, _, ty] => attrs.plain ++ s.plain ++ word ": " ++ ty.plain
  | .patBlock, [_, block] => word "const " ++ block.plain
  | _, _ => []

end Statechart.Target.Layout
