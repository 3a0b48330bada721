import Statechart.Target.Layout.Types

/-!
Drawing of expressions and statements.

Calls along a chain of dots share one box, so either all of its dots begin a line or none does. A
short name at the beginning of a line keeps its first dot.
-/
set_option autoImplicit false

namespace Statechart.Target.Layout

def parenthesized? : Sketch → Option Sketch
  | s =>
    if s.is .tuple then
      match s.kids with
      | [g] =>
        match g.kids with
        | [members] =>
          match members.kids with
          | [e] => some e
          | _ => none
        | _ => none
      | _ => none
    else none

/-- Expressions that bring their own brackets and stand alone in those of a call. -/
def isBlocklike (s : Sketch) : Bool :=
  s.is .array || s.is .asyncBlock || s.is .blockExpr || s.is .blockWith || s.is .closure ||
    s.is .closureTo || s.is .structLit || (s.is .tuple && (parenthesized? s).isNone)

def addsSemicolon (k : Kind) : Bool :=
  k = .assign || k = .compound || k = .breaking || k = .continuing || k = .returning ||
    k = .yielding

def addsSemicolonAfter (s : Sketch) : Bool :=
  match s.tree with
  | .node k _ => addsSemicolon k
  | _ => false

def dropsSemicolon : Tree → Bool
  | .node .forLoop _ => true
  | .node .whileLoop _ => true
  | .node .ifElse [_, _, _, .list []] => true
  | .node .ifElse [_, _, _, .list [_, other]] => dropsSemicolon other
  | _ => false

/-- An arm with a body of this kind needs no comma. -/
def endsArm (k : Kind) : Bool :=
  k = .ifElse || k = .matching || k = .blockExpr || k = .blockWith || k = .whileLoop ||
    k = .loop || k = .forLoop

/-- A condition that ends on a line of its own lets its brace begin the next one. -/
def wrapsBrace : Tree → Bool
  | .node .assign _ => true
  | .node .compound _ => true
  | .node .awaiting _ => true
  | .node .binary _ => true
  | .node .cast _ => true
  | .node .field _ => true
  | .node .fieldPair _ => true
  | .node .index _ => true
  | .node .method _ => true
  | .node .breaking [_, _, .list [e]] => wrapsBrace e
  | .node .call (f :: _) => wrapsBrace f
  | .node .letCond [_, _, _, e] => wrapsBrace e
  | .node .tuple [.group _ [.list [e]]] => wrapsBrace e
  | .node .range [_, _, .list [e]] => wrapsBrace e
  | .node .rangeTo [_, .list [e]] => wrapsBrace e
  | .node .reference [_, _, e] => wrapsBrace e
  | .node .rawAddress [_, _, _, e] => wrapsBrace e
  | .node .returning [_, .list [e]] => wrapsBrace e
  | .node .question [e, _] => wrapsBrace e
  | .node .unary [_, e] => wrapsBrace e
  | .node .yielding [_, .list [e]] => wrapsBrace e
  | _ => false

def isShortName : Tree → Bool
  | .node .pathExpr [.node .path [.list [], .list [.node .segment [name, .list []]]]] =>
    (name.leafText.utf8ByteSize : Int) ≤ step
  | _ => false

def blockParts : List Sketch → List Doc × List Sketch
  | [g] =>
    match g.kids with
    | [attrs, stmts] => (attrs.plain, stmts.kids)
    | _ => ([], [])
  | _ => ([], [])

def drawStmts (stmts : List Sketch) : List Doc :=
  eachLast (fun last (s : Sketch) => s.draw (.stmt last)) stmts

def value? (stmt : Sketch) : Option Sketch :=
  if stmt.is .exprStmt then
    match stmt.kids with
    | [e, semi] => if semi.isMissing then some e else none
    | _ => none
  else none

/-- A block that may go on one line if it is a single value. -/
def smallBlockOf (kids : List Sketch) : List Doc :=
  let parts := blockParts kids
  let body :=
    match parts.2 with
    | [stmt] =>
      match value? stmt with
      | some e => ibox 0 (e.draw (.line true)) ++ space
      | none => drawStmts parts.2
    | stmts => drawStmts stmts
  word "\x7b" ++
    (if parts.1.isEmpty && parts.2.isEmpty then []
      else outdent (space ++ parts.1 ++ body)) ++
    word "\x7d"

def smallBlock (block : Sketch) : List Doc := smallBlockOf block.kids

def tallBlock (attrs : List Doc) (stmts : List Doc) : List Doc :=
  word "\x7b" ++ neverbreak ++
    cbox step (outdent (hardbreakIfMore ++ attrs ++ stmts)) ++ word "\x7d"

def tallBody (block : Sketch) : List Doc :=
  let parts := blockParts block.kids
  tallBlock parts.1 (drawStmts parts.2)

/-- The inside of a function body, to be closed by the box of its item. -/
def bodyLines (block : Sketch) : List Doc :=
  let parts := blockParts block.kids
  word "\x7b" ++ hardbreakIfMore ++ parts.1 ++ drawStmts parts.2

def condition (e : Sketch) : List Doc :=
  cbox 0 (e.plain ++ if wrapsBrace e.tree then space else nbsp)

def callArgs (g : Sketch) : List Doc :=
  match g.kids with
  | [members] =>
    match members.items with
    | [e] => if isBlocklike e then e.plain else argBox [e]
    | items => argBox items
  | _ => []
where
  argBox (items : List Sketch) : List Doc :=
    cbox step (outdent (zerobreak ++ eachLast (fun last s => s.plain ++ comma last) items))

def receiver (first : Bool) (e : Sketch) : List Doc :=
  e.draw (.head first) ++ if first && isShortName e.tree then [] else zerobreak

def drawMember (first unindent : Bool) : Kind → List Sketch → List Doc
  | .method, [e, _, name, turbofish, arguments] =>
    receiver first e ++ word "." ++ name.plain ++
      eachLast (fun _ (s : Sketch) => s.draw (.path .inExpr)) turbofish.kids ++
      cbox (if unindent then -step else 0) (word "(" ++ callArgs arguments ++ word ")")
  | .awaiting, [e, _, _] => receiver first e ++ word ".await"
  | .field, [e, _, name] => receiver first e ++ word "." ++ name.plain
  | .fieldPair, [e, _, a, _, b] =>
    receiver first e ++ word "." ++ a.plain ++ zerobreak ++ word "." ++ b.plain
  | _, _ => []

def isShortReceiver : List Sketch → Bool
  | e :: _ => isShortName e.tree
  | [] => false

def drawLabel (label : Sketch) : List Doc :=
  match label.kids with
  | [name, _] => name.plain ++ word ": "
  | _ => []

def drawArray (g : Sketch) : List Doc :=
  let items :=
    match g.kids with
    | [members] => members.items
    | _ => []
  let plainLiteral (s : Sketch) : Bool :=
    match s.tree with
    | .node .lit [.list [], value] => Literal.isPlain value.leafText
    | _ => false
  if items.isEmpty then word "[" ++ word "]"
  else if items.all plainLiteral then
    cbox step (outdent (word "[" ++ zerobreak ++
      ibox 0 (interleaved (word "," ++ space) Sketch.plain items) ++ comma true)) ++ word "]"
  else bracketed "[" "]" items

def drawStruct (path g : Sketch) : List Doc :=
  match g.kids with
  | [members, rest] =>
    cboxAtMost 34 step (outdent (
      ibox (-step) (path.draw (.path .inExpr)) ++ word " \x7b" ++ spaceIfMore ++
        eachLast (fun last s => s.plain ++ commaOrSpace (last && rest.isMissing)) members.items ++
        (match rest.kids with
          | _ :: base => word ".." ++ eachLast (fun _ (s : Sketch) => s.plain) base ++ space
          | [] => []))) ++
      word "\x7d"
  | _ => []

/-- A body that gets braces if it does not fit on the line. -/
def braceIfBroken (body : List Doc) (semicolon comma : Bool) : List Doc :=
  cbox step (
    [.brk { atEnd := some '\x7b' }] ++ body ++
    [.brk {
      offset := -step
      atEnd := if semicolon then some ';' else none
      atStart := "\x7d"
      inLine := if comma then some ',' else none }])

def closureWords (head : List Sketch) : List Doc :=
  eachLast (fun _ s => flag s) head

def drawClosure (words : List Sketch) (inputs body : Sketch) : List Doc :=
  let arguments := inputs.items
  let opening := if arguments.isEmpty then [] else zerobreak
  let bare :=
    match body.tree with
    | .node .matching _ => true
    | .node .call _ => true
    | _ => isBlocklike body
  ibox 0 (
    closureWords words ++
    cbox step (outdent (word "|" ++ opening ++
      interleaved (word "," ++ space) Sketch.plain arguments ++ word "|" ++ space)) ++
    neverbreak ++
    if bare then body.plain else braceIfBroken body.plain (addsSemicolonAfter body) false)

def drawClosureTo (words : List Sketch) (inputs ty block : Sketch) : List Doc :=
  let arguments := inputs.items
  let list :=
    if arguments.isEmpty then []
    else outdent (zerobreak ++ interleaved (word "," ++ space) Sketch.plain arguments ++ comma true)
  ibox 0 (
    closureWords words ++ cbox step (word "|" ++ list ++ word "|") ++ word " -> " ++
    ty.plain ++ nbsp ++ neverbreak ++ cbox step (smallBlock block))

def drawIf (cond block other : Sketch) : List Doc :=
  word "if " ++ cbox (-step) (condition cond) ++
  match other.kids with
  | [_, branch] => smallBlock block ++ word " else " ++ branch.draw .orElse
  | _ => smallBlock block

def drawLoneIf (cond block : Sketch) : List Doc :=
  let parts := blockParts block.kids
  word "if " ++ cbox (-step) (condition cond) ++ word "\x7b" ++
    (if parts.2.isEmpty then [] else outdent (hardbreak ++ drawStmts parts.2)) ++ word "\x7d"

def drawArm (attrs pat guard body : Sketch) : List Doc :=
  attrs.plain ++
    ibox 0 (pat.plain ++
      (match guard.kids with
        | [_, e] => word " if " ++ e.plain
        | _ => []) ++
      word " => " ++ body.draw .arm) ++
    hardbreak

def drawValue (text : String) (value : Sketch) : List Doc :=
  word text ++ eachLast (fun _ (s : Sketch) => nbsp ++ s.plain) value.kids

def drawLine (k : Kind) (kids : List Sketch) (first : Bool) : List Doc :=
  match k, kids with
  | .lit, [minus, value] => minus.plain ++ value.plain
  | .pathExpr, [path] => path.draw (.path .inExpr)
  | .invocation, [path, _, g] => invocation (path.draw (.path .bare)) [] g.rawGroup false
  | .structLit, [path, g] => drawStruct path g
  | .fieldValue, [attrs, name] => attrs.plain ++ name.plain
  | .fieldInit, [attrs, name, _, value] =>
    attrs.plain ++ name.plain ++ word ": " ++ ibox 0 value.plain
  | .tuple, [g] =>
    match g.kids with
    | [members] =>
      match members.kids with
      | [e] => word "(" ++ e.plain ++ word ")"
      | _ => tupled members.items
    | _ => []
  | .array, [g] => drawArray g
  | .repeated, [g] =>
    match g.kids with
    | [value, _, len] => word "[" ++ value.plain ++ word "; " ++ len.plain ++ word "]"
    | _ => []
  | .call, [f, arguments] => f.draw (.line first) ++ word "(" ++ callArgs arguments ++ word ")"
  | .index, [e, g] =>
    e.draw (.line first) ++ word "[" ++ eachLast (fun _ (s : Sketch) => s.plain) g.kids ++ word "]"
  | .question, [e, _] => e.draw (.line first) ++ word "?"
  | .method, kids =>
    cbox step (drawMember first (first && isShortReceiver kids) .method kids)
  | .awaiting, kids => cbox step (drawMember first false .awaiting kids)
  | .field, kids => cbox step (drawMember first false .field kids)
  | .fieldPair, kids => cbox step (drawMember first false .fieldPair kids)
  | .reference, [_, mutable, e] => word "&" ++ flag mutable ++ e.plain
  | .rawAddress, [_, _, mutable, e] => word "&raw " ++ mutable.plain ++ nbsp ++ e.plain
  | .unary, [op, e] => op.plain ++ e.plain
  | .binary, [left, op, right] =>
    ibox step (ibox (-step) left.plain ++ space ++ op.plain ++ nbsp ++ right.plain)
  | .compound, [left, op, right] =>
    ibox step (ibox (-step) left.plain ++ space ++ op.plain ++ nbsp ++ right.plain)
  | .assign, [left, _, right] => ibox 0 (left.plain ++ word " = " ++ neverbreak ++ right.plain)
  | .cast, [e, _, ty] => ibox step (ibox (-step) e.plain ++ space ++ word "as " ++ ty.plain)
  | .range, [low, dots, high] => low.plain ++ dots.plain ++ high.plain
  | .rangeTo, [dots, high] => dots.plain ++ high.plain
  | .closure, [a, b, c, d, e, _, inputs, _, body] => drawClosure [a, b, c, d, e] inputs body
  | .closureTo, [a, b, c, d, e, _, inputs, _, _, ty, block] =>
    drawClosureTo [a, b, c, d, e] inputs ty block
  | .ifElse, [_, cond, block, other] =>
    cbox step (if other.isMissing then drawLoneIf cond block else drawIf cond block other)
  | .whileLoop, [label, _, cond, block] =>
    drawLabel label ++ word "while " ++ condition cond ++ tallBody block
  | .forLoop, [label, _, pat, _, e, block] =>
    drawLabel label ++ ibox 0 (
      word "for " ++ pat.plain ++ word " in " ++ neverbreak ++ condition e ++ tallBody block)
  | .loop, [label, _, block] => drawLabel label ++ word "loop " ++ tallBody block
  | .matching, [_, e, g] =>
    ibox 0 (word "match " ++ condition e ++
      (match g.kids with
        | [attrs, arms] => tallBlock attrs.plain arms.plain
        | _ => []))
  | .letCond, [_, pat, _, e] =>
    word "let " ++ ibox 0 pat.plain ++ word " = " ++ neverbreak ++ ibox 0 e.plain
  | .blockExpr, [label, block] => drawLabel label ++ cbox step (smallBlock block)
  | .blockWith, [text, block] => text.plain ++ nbsp ++ cbox step (smallBlock block)
  | .asyncBlock, [_, mover, block] =>
    word "async " ++ flag mover ++ cbox step (smallBlock block)
  | .breaking, [_, label, value] =>
    word "break" ++ eachLast (fun _ (s : Sketch) => nbsp ++ s.plain) (label.kids ++ value.kids)
  | .continuing, [_, label] => drawValue "continue" label
  | .returning, [_, value] => drawValue "return" value
  | .yielding, [_, value] => drawValue "yield" value
  | .infer, _ => word "_"
  | .block, kids => cbox step (smallBlockOf kids)
  | _, _ => []

/-- An expression in front of a dot, question mark or index, inside the box of its chain. -/
def drawHead (k : Kind) (kids : List Sketch) (first : Bool) : List Doc :=
  match k, kids with
  | .method, kids => drawMember first false .method kids
  | .awaiting, kids => drawMember first false .awaiting kids
  | .field, kids => drawMember first false .field kids
  | .fieldPair, kids => drawMember first false .fieldPair kids
  | .call, [f, arguments] => f.draw (.head false) ++ word "(" ++ callArgs arguments ++ word ")"
  | .index, [e, g] =>
    e.draw (.head first) ++ word "[" ++ eachLast (fun _ (s : Sketch) => s.plain) g.kids ++ word "]"
  | .question, [e, _] => e.draw (.head first) ++ word "?"
  | k, kids => cbox (-step) (drawLine k kids false)

/-- The body of an arm: a block with a single value counts as the value. -/
def drawArmBody (k : Kind) (kids : List Sketch) : List Doc :=
  let wrapped :=
    neverbreak ++ braceIfBroken (drawLine k kids true) (addsSemicolon k) (!endsArm k)
  match k, kids with
  | .blockExpr, [label, block] =>
    match label.isMissing, (blockParts block.kids).2.map value? with
    | true, [some e] => e.draw .arm
    | _, _ => drawLabel label ++ tallBody block
  | .tuple, [g] =>
    match g.kids with
    | [members] => if members.isMissing then tallBlock [] [] else wrapped
    | _ => wrapped
  | _, _ => wrapped

def drawExpr (k : Kind) (kids : List Sketch) : Place → List Doc
  | .line first => drawLine k kids first
  | .head first => drawHead k kids first
  | .arm => drawArmBody k kids
  | .orElse =>
    match k, kids with
    | .ifElse, [_, cond, block, other] => drawIf cond block other
    | .blockExpr, [_, block] => smallBlock block
    | _, _ => drawLine k kids false
  | _ => drawLine k kids false

def invocation? (e : Sketch) : Option (List Doc × Sketch × Sketch) :=
  if e.is .invocation then
    match e.kids with
    | [path, _, g] => some ([], path, g)
    | _ => none
  else if e.is .attributed then
    match e.kids with
    | [attrs, inner] =>
      match inner.is .invocation, inner.kids with
      | true, [path, _, g] => some (attrs.plain, path, g)
      | _, _ => none
    | _ => none
  else none

def drawExprStmt (e semi : Sketch) : List Doc :=
  let expression :=
    let closing :=
      if semi.isMissing then addsSemicolonAfter e else !dropsSemicolon e.tree
    ibox 0 (e.draw (.line true) ++ if closing then word ";" else []) ++ hardbreak
  if semi.isMissing then expression
  else
    match invocation? e with
    | some (attrs, path, g) =>
      attrs ++ invocation (path.draw (.path .bare)) [] g.rawGroup true ++ hardbreak
    | none => expression

def drawLet (attrs pat ty init : Sketch) : List Doc :=
  let typed :=
    match ty.kids with
    | [_, ty] => word ": " ++ ty.plain
    | _ => []
  let head := word "let " ++ pat.plain ++ typed
  attrs.plain ++
    (match init.kids with
      | [_, value, other] =>
        let assigned := head ++ word " = " ++ neverbreak ++ value.plain
        match other.kids with
        | [_, block] =>
          ibox 0 (assigned ++ space ++ word "else ") ++ neverbreak ++
            cbox step (smallBlock block ++ word ";")
        | _ => ibox 0 (assigned ++ word ";")
      | _ => ibox 0 (head ++ word ";")) ++
    hardbreak

def drawStmt (k : Kind) (kids : List Sketch) : List Doc :=
  match k, kids with
  | .exprStmt, [e, semi] => drawExprStmt e semi
  | .invocationStmt, [attrs, path, _, g, _] =>
    attrs.plain ++ invocation (path.draw (.path .bare)) [] g.rawGroup true ++ hardbreak
  | .letStmt, [attrs, _, pat, ty, init, _] => drawLet attrs pat ty init
  | _, _ => []

end Statechart.Target.Layout
