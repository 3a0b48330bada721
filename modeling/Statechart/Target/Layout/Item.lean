import Statechart.Target.Layout.Expr

/-!
Drawing of items and files.
-/
set_option autoImplicit false

namespace Statechart.Target.Layout

/-- Conditions on type parameters: with lines of their own if `hard`, and closed by a semicolon if
`semi`. -/
def drawWhere (hard semi : Bool) (clause : Sketch) : List Doc :=
  let predicates :=
    match clause.kids with
    | [_, members] => members.items
    | _ => []
  if predicates.isEmpty then (if semi then word ";" else nbsp)
  else
    let edge := if hard then hardbreak else space
    let docs := outdent edge ++ word "where" ++ edge ++
      eachLast (fun last (p : Sketch) => p.plain ++
        if last && semi then word ";"
        else if hard then word "," ++ hardbreak
        else commaOrSpace last) predicates
    if semi then docs else outdent docs

def memberLines (g : Sketch) : List Doc :=
  match g.kids with
  | [attrs, members] =>
    word "\x7b" ++ hardbreakIfMore ++ attrs.plain ++ drawStmts members.kids
  | _ => word "\x7b" ++ hardbreakIfMore

def braced (lines : List Doc) : List Doc :=
  cbox step (outdent lines) ++ word "\x7d" ++ hardbreak

def listLines (g : Sketch) : List Doc :=
  match g.kids with
  | [members] =>
    word "\x7b" ++ hardbreakIfMore ++
      eachLast (fun _ (s : Sketch) => s.plain ++ word "," ++ hardbreak) members.items
  | _ => word "\x7b" ++ hardbreakIfMore

def drawTupleFields (g : Sketch) : List Doc :=
  match g.kids with
  | [members] => bracketed "(" ")" members.items
  | _ => []

def drawVariantFields (fields : Sketch) : List Doc :=
  match fields.kids with
  | [g] =>
    match g.tree, g.kids with
    | .group .brace _, [members] =>
      nbsp ++ word "\x7b" ++
        cbox step (outdent (space ++
          eachLast (fun last (s : Sketch) => s.plain ++ commaOrSpace last) members.items)) ++
        word "\x7d"
    | _, _ => cbox step (drawTupleFields g)
  | _ => []

def drawBinding (attrs visibility : Sketch) (text : String) (name ty : Sketch) (value : List Doc) :
    List Doc :=
  attrs.plain ++ cbox 0 (visibility.plain ++ word text ++ name.plain ++ word ": " ++ ty.plain ++
    value ++ word ";") ++ hardbreak

def bindingValue (value : Sketch) : List Doc :=
  word " = " ++ neverbreak ++ value.plain

def drawSignature : List Sketch → List Doc
  | [constant, async, risky, abi, _, name, generics, g, ret, _] =>
    let inputs :=
      match g.kids with
      | [members] => members.items
      | _ => []
    let fixed := inputs.filter (!·.is .variadic)
    let open_ := inputs.filter (·.is .variadic)
    flag constant ++ flag async ++ flag risky ++ abi.plain ++ word "fn " ++ name.plain ++
      generics.plain ++ word "(" ++ neverbreak ++
      cbox 0 (outdent (zerobreak ++
        eachLast (fun last (s : Sketch) => s.plain ++ comma (last && open_.isEmpty)) fixed ++
        eachLast (fun _ (s : Sketch) => s.plain ++ zerobreak) open_)) ++
      word ")" ++ cbox (-step) ret.plain
  | _ => []

def signatureWhere (sig : Sketch) (semi : Bool) : List Doc :=
  match sig.kids.getLast? with
  | some clause => drawWhere true semi clause
  | none => []

def drawSupertraits (bounds : Sketch) : List Doc :=
  match bounds.kids with
  | [_, bounds] => if bounds.isMissing then [] else word ": " ++ drawSum bounds.items
  | _ => []

def endsInGroup : Tree → Bool
  | .node .usePath [_, _, tree] => endsInGroup tree
  | .node .useGroup _ => true
  | _ => false

def drawUseGroup (members : List Sketch) : List Doc :=
  word "\x7b" ++
    cbox step (outdent (zerobreak ++
      ibox 0 (eachLast (fun last (s : Sketch) =>
        s.plain ++
          if last then []
          else word "," ++ if endsInGroup s.tree then hardbreak else space) members) ++
      comma true)) ++
    word "\x7d"

def drawVisibility : List Sketch → List Doc
  | [_, scope] =>
    match scope.kids with
    | [g] =>
      match g.kids with
      | [_, path] => word "pub(in " ++ path.draw (.path .bare) ++ word ") "
      | kids => word "pub(" ++ eachLast (fun _ (s : Sketch) => s.plain) kids ++ word ") "
    | _ => word "pub "
  | _ => []

def drawImpl : List Sketch → List Doc
  | [attrs, default, risky, _, generics, trait, ty, clause, g] =>
    let traitDocs :=
      match trait.kids with
      | [negative, path, _] =>
        negative.plain ++ path.draw (.path .inType) ++ space ++ word "for "
      | _ => []
    attrs.plain ++ braced (
      ibox (-step) (
        cbox step (flag default ++ flag risky ++ word "impl" ++ generics.plain) ++ nbsp ++
          traitDocs ++ ty.plain) ++
      drawWhere true false clause ++ memberLines g)
  | _ => []

def drawInvocationItem (attrs path name g : Sketch) : List Doc :=
  attrs.plain ++
    (match name.kids, path.tree.tokens with
      | [name], [.ident "macro_rules"] => macroDefinition name.text g.rawGroup
      | names, _ =>
        invocation (path.draw (.path .bare))
          (eachLast (fun _ (s : Sketch) => nbsp ++ s.plain) names) g.rawGroup true) ++
    hardbreak

def drawItem (k : Kind) (kids : List Sketch) : List Doc :=
  match k, kids with
  | .useItem, [attrs, visibility, _, separator, tree, _] =>
    attrs.plain ++ visibility.plain ++ word "use " ++ separator.plain ++ tree.plain ++ word ";" ++
      hardbreak
  | .usePath, [name, _, tree] => name.plain ++ word "::" ++ tree.plain
  | .useName, [name] => name.plain
  | .useRename, [name, _, new] => name.plain ++ word " as " ++ new.plain
  | .useGlob, _ => word "*"
  | .useGroup, [g] =>
    match g.kids with
    | [members] => drawUseGroup members.items
    | _ => []
  | .staticItem, [attrs, visibility, _, mutable, name, _, ty, _, value, _] =>
    drawBinding attrs visibility (if mutable.isMissing then "static " else "static mut ") name ty
      (bindingValue value)
  | .constItem, [attrs, visibility, default, _, name, _, ty, _, value, _] =>
    drawBinding attrs visibility (if default.isMissing then "const " else "default const ") name ty
      (bindingValue value)
  | .assocConst, [attrs, _, name, _, ty, value, _] =>
    attrs.plain ++ cbox 0 (word "const " ++ name.plain ++ word ": " ++ ty.plain ++
      (match value.kids with
        | [_, value] => bindingValue value
        | _ => []) ++ word ";") ++ hardbreak
  | .foreignStatic, [attrs, visibility, _, mutable, name, _, ty, _] =>
    drawBinding attrs visibility (if mutable.isMissing then "static " else "static mut ") name ty []
  | .typeItem, [attrs, visibility, _, name, generics, clause, _, ty, _] =>
    attrs.plain ++ cbox step (visibility.plain ++ word "type " ++ name.plain ++ generics.plain ++
      drawWhere false false clause ++ word "= " ++ neverbreak ++ ibox (-step) ty.plain ++
      word ";") ++ hardbreak
  | .assocTypeItem, [attrs, visibility, default, _, name, generics, bounds, value, clause, _] =>
    attrs.plain ++ cbox step (visibility.plain ++ flag default ++ word "type " ++ name.plain ++ generics.plain ++
      (match bounds.kids with
        | [_, bounds] => drawBounds bounds.items
        | _ => []) ++
      (match value.kids with
        | [_, ty] => word " = " ++ neverbreak ++ ibox (-step) ty.plain
        | _ => []) ++ drawWhere false true clause) ++ hardbreak
  | .foreignType, [attrs, visibility, _, name, generics, _] =>
    attrs.plain ++ cbox 0 (visibility.plain ++ word "type " ++ name.plain ++ generics.plain ++
      word ";") ++ hardbreak
  | .fnItem, [attrs, visibility, default, sig, block] =>
    attrs.plain ++ braced (visibility.plain ++ flag default ++ sig.plain ++
      signatureWhere sig false ++ bodyLines block)
  | .fnDecl, [attrs, visibility, default, sig, _] =>
    attrs.plain ++ cbox step (visibility.plain ++ flag default ++ sig.plain ++
      signatureWhere sig true) ++ hardbreak
  | .sig, kids => drawSignature kids
  | .receiver, [attrs, ref, mutable, _, ty] =>
    attrs.plain ++
      (match ref.kids with
        | [_, lifetime] => word "&" ++ flag lifetime
        | _ => []) ++
      flag mutable ++ word "self" ++
      (match ty.kids with
        | [_, ty] => word ": " ++ ty.plain
        | _ => [])
  | .typedArg, [attrs, pat, _, ty] => attrs.plain ++ pat.plain ++ word ": " ++ ty.plain
  | .variadic, [attrs, name, _] =>
    attrs.plain ++
      (match name.kids with
        | [pat, _] => pat.plain ++ word ": "
        | _ => []) ++ word "..."
  | .modItem, [attrs, visibility, risky, _, name, g] =>
    attrs.plain ++ braced (visibility.plain ++ flag risky ++ word "mod " ++ name.plain ++ nbsp ++
      memberLines g)
  | .modDecl, [attrs, visibility, risky, _, name, _] =>
    attrs.plain ++ cbox step (visibility.plain ++ flag risky ++ word "mod " ++ name.plain ++
      word ";") ++ hardbreak
  | .externCrate, [attrs, visibility, _, _, name, rename, _] =>
    attrs.plain ++ visibility.plain ++ word "extern crate " ++ name.plain ++
      (match rename.kids with
        | [_, name] => word " as " ++ name.plain
        | _ => []) ++ word ";" ++ hardbreak
  | .foreignItems, [attrs, risky, abi, g] =>
    attrs.plain ++ braced (flag risky ++ abi.plain ++ memberLines g)
  | .structUnit, [attrs, visibility, _, name, generics, clause, _] =>
    attrs.plain ++ cbox step (visibility.plain ++ word "struct " ++ name.plain ++ generics.plain ++
      drawWhere true true clause) ++ hardbreak
  | .structTuple, [attrs, visibility, _, name, generics, fields, clause, _] =>
    attrs.plain ++ cbox step (visibility.plain ++ word "struct " ++ name.plain ++ generics.plain ++
      drawTupleFields fields ++ drawWhere true true clause) ++ hardbreak
  | .structNamed, [attrs, visibility, _, name, generics, clause, g] =>
    attrs.plain ++ braced (visibility.plain ++ word "struct " ++ name.plain ++ generics.plain ++
      drawWhere true false clause ++ listLines g)
  | .unionItem, [attrs, visibility, _, name, generics, clause, g] =>
    attrs.plain ++ braced (visibility.plain ++ word "union " ++ name.plain ++ generics.plain ++
      drawWhere true false clause ++ listLines g)
  | .enumItem, [attrs, visibility, _, name, generics, clause, g] =>
    attrs.plain ++ braced (visibility.plain ++ word "enum " ++ name.plain ++ generics.plain ++
      drawWhere true false clause ++ listLines g)
  | .fieldDef, [attrs, visibility, name, _, ty] =>
    attrs.plain ++ visibility.plain ++ name.plain ++ word ": " ++ ty.plain
  | .tupleField, [attrs, visibility, ty] => attrs.plain ++ visibility.plain ++ ty.plain
  | .variant, [attrs, _, name, fields, value] =>
    attrs.plain ++ name.plain ++ drawVariantFields fields ++
      (match value.kids with
        | [_, value] => word " = " ++ value.plain
        | _ => [])
  | .traitItem, [attrs, visibility, risky, auto, _, name, generics, bounds, clause, g] =>
    attrs.plain ++ braced (visibility.plain ++ flag risky ++ flag auto ++ word "trait " ++
      name.plain ++ generics.plain ++ drawSupertraits bounds ++ drawWhere true false clause ++
      memberLines g)
  | .traitAlias, [attrs, visibility, _, name, generics, _, bounds, clause, _] =>
    attrs.plain ++ cbox step (visibility.plain ++ word "trait " ++ name.plain ++ generics.plain ++
      word " = " ++ neverbreak ++ drawSum bounds.items ++ drawWhere true true clause) ++ hardbreak
  | .implItem, kids => drawImpl kids
  | .invocationItem, [attrs, path, _, name, g, _] => drawInvocationItem attrs path name g
  | .visibility, kids => drawVisibility kids
  | .file, [attrs, items] => cbox 0 (attrs.plain ++ items.plain)
  | _, _ => []

end Statechart.Target.Layout
