import Statechart.Target.Grammar.Peg

/-!
The grammar of the target language, as far as design fragments, override files and the generated
module use it: attributes, paths, types, patterns, expressions, statements and items.

Rules for expressions carry a flag that tells whether a struct literal may stand there; it may not
in a condition, where its brace would be read as the body.
-/
set_option autoImplicit false

namespace Statechart.Target

inductive Rule where
  | outerAttr | innerAttr | metaItem
  | path | typePath | modPath | exprPath | segment | typeSegment | exprSegment | angle | genericArg
  | ty | tyNoPlus | tyBound | bareFn | forLifetimes | abi | ret | sigRet
  | pat | patSingle | patField | rangeBound
  | expr (struct : Bool) | range (struct : Bool) | level (l : Level) (struct : Bool)
  | cast (struct : Bool) | unary (struct : Bool) | plainUnary (struct : Bool)
  | trailed (struct : Bool) | atom (struct : Bool)
  | literal | closure (struct : Bool) | closureArg | invocation | structField
  | ifElse | arm | armBody
  | blockLike | plainBlockLike | block | stmt
  | generics | genericParam | whereClause | wherePredicate | visibility
  | signature | fnArg | item | useTree | field | tupleField | variant
  | implMember | traitMember | foreignMember | file
  deriving DecidableEq, Repr

namespace Grammar

open Peg

def outerAttrs : Peg Rule := many (call .outerAttr)
def innerAttrs : Peg Rule := many (call .innerAttr)

def outerAttr : Peg Rule :=
  node .outerAttr (seq [op "#", brackets (call .metaItem)])

def innerAttr : Peg Rule :=
  node .innerAttr (seq [op "#", op "!", brackets (call .metaItem)])

/-- The path at the front of an attribute; some are marked as unsafe. -/
def metaHead : Peg Rule :=
  alt [
    node .path (seq [list nothing, list (node .segment (seq [word "unsafe", list nothing]))]),
    call .modPath]

def metaItem : Peg Rule :=
  alt [
    node .metaValue (seq [metaHead, op "=", call (.expr true)]),
    node .metaList (seq [metaHead, term .raw]),
    node .metaPath metaHead]

def separator : Peg Rule := op "::"

def pathWord : Peg Rule :=
  alt [word "self", word "Self", word "super", word "crate", word "try", ident]

def modPath : Peg Rule :=
  node .path (seq [opt separator, ahead pathWord,
    sepBy false separator (node .segment (seq [pathWord, list nothing]))])

def angleList : Peg Rule :=
  seq [op "<", commas (call .genericArg), op ">"]

def angle : Peg Rule :=
  node .angle (seq [opt separator, angleList])

def fnSugar : Peg Rule :=
  node .fnSugar (seq [opt separator, parens (commas (call .ty)), call .ret])

/-- In a type an angle bracket after a name always begins its arguments. -/
def startsAngle : Peg Rule :=
  alt [seq [never (op "<="), op "<"], seq [separator, op "<"]]

/-- A name and its arguments, or the tree that `other` reads where there are none. -/
def segmentOr (other : Peg Rule) : Peg Rule :=
  node .segment (seq [pathWord, alt [
    list (seq [ahead startsAngle, call .angle]),
    seq [never startsAngle, other]]])

def segment : Peg Rule :=
  segmentOr (list nothing)

/-- A segment of the path of a type. The last one may be a callable trait. -/
def typeSegment : Peg Rule :=
  segmentOr (alt [list (seq [fnSugar, never separator]), list nothing])

def exprSegment : Peg Rule :=
  node .segment (seq [pathWord, alt [
    list (seq [ahead (seq [separator, op "<"]), call .angle]),
    list nothing]])

def pathOf (seg : Rule) : Peg Rule :=
  node .path (seq [opt separator, ahead pathWord, sepBy false separator (call seg)])

def qpathWith (seg : Rule) : Peg Rule :=
  node .qpath (seq [op "<", call .ty, opt (seq [word "as", call .path]), op ">", separator,
    sepBy false separator (call seg)])

def exprPath : Peg Rule :=
  alt [
    qpathWith .exprSegment,
    pathOf .exprSegment]

def lifetimeArg : Peg Rule := node .lifetimeArg (term .lifetime)

def boundName : Peg Rule :=
  seq [ident, opt (seq [opt separator, term .angles]), alt [op "=", op ":"]]

def constArg : Peg Rule :=
  alt [node .lit (seq [opt (op "-"), term .literal]), call .block]

def genericArg : Peg Rule :=
  alt [
    lifetimeArg,
    constArg,
    seq [ahead boundName, alt [
      node .assocType (seq [ident, opt (call .angle), op "=", never (op "=="),
        alt [constArg, call .ty]]),
      node .constraint (seq [ident, opt (call .angle), never (op "::"), op ":",
        sepBy false (op "+") (call .tyBound)])]],
    call .ty]

def bounds : Peg Rule := sepBy true (op "+") (call .tyBound)

def forLifetimes : Peg Rule :=
  node .forLifetimes (seq [word "for", op "<", commas (call .genericParam), op ">"])

def tyBound : Peg Rule :=
  alt [
    lifetimeArg,
    node .bound (seq [opt (op "?"), opt (call .forLifetimes), call .typePath]),
    node .bound (parens (call .tyBound))]

def abi : Peg Rule :=
  node .abi (seq [word "extern", opt (term .literal)])

/-- The type of a result; that of a callable in a type admits no further bounds. -/
def retWith (result : Rule) : Peg Rule :=
  alt [node .ret (seq [op "->", call result]), list nothing]

def bareFn : Peg Rule :=
  node .tyFn (seq [opt (call .forLifetimes), opt (word "unsafe"), opt (call .abi), word "fn",
    parens (commas (node .fnPtrArg (seq [
      outerAttrs,
      opt (seq [alt [ident, word "_"], never (op "::"), op ":"]),
      call .ty]))),
    call .ret])

def tyWith (plus : Bool) : Peg Rule :=
  alt [
    node .tyTuple (parens (commas (call .ty))),
    call .bareFn,
    node .tyDyn (seq [word "dyn", ahead (call .tyBound),
      if plus then bounds else seq [list (call .tyBound)]]),
    node .tyImpl (seq [word "impl",
      if plus then bounds else seq [list (call .tyBound)]]),
    node .tySlice (brackets (call .ty)),
    node .tyArray (brackets (seq [call .ty, op ";", call (.expr true)])),
    node .tyPtr (seq [op "*", alt [word "const", word "mut"], call .tyNoPlus]),
    node .tyRef (seq [op "&", opt (term .lifetime), opt (word "mut"), call .tyNoPlus]),
    node .tyNever (seq [never (op "!="), op "!"]),
    node .tyInfer (word "_"),
    node .tyInvocation (seq [call .modPath, never (op "!="), op "!", term .raw]),
    node .tyPath (qpathWith .segment),
    node .tyPath (seq [call .typePath, if plus then never (op "+") else nothing]),
    if plus then node .tyDyn (seq [list nothing, ahead (call .typePath), bounds]) else never nothing]

def verbatim (ps : List (Peg Rule)) : Peg Rule :=
  node .verbatim (seq ps)

def verticalBar : Peg Rule := seq [never (op "||"), never (op "|="), op "|"]

def pat : Peg Rule :=
  node .patAlt (seq [opt verticalBar, ahead (call .patSingle),
    sepBy false verticalBar (call .patSingle)])

def rangeOp : Peg Rule := alt [op "..=", op "...", op ".."]

def rangeBound : Peg Rule :=
  alt [
    node .lit (seq [opt (op "-"), term .literal]),
    call .block,
    node .pathExpr (call .exprPath)]

def patField : Peg Rule :=
  alt [
    node .fieldPat (seq [outerAttrs, alt [ident, term .position], never (op "::"), op ":",
      call .pat]),
    node .fieldShort (seq [outerAttrs, opt (word "box"), opt (word "ref"), opt (word "mut"),
      ident]),
    node .patRest (seq [outerAttrs, op ".."])]

def patSingle : Peg Rule :=
  alt [
    node .patInvocation (seq [call .modPath, never (op "!="), op "!", term .raw]),
    node .patRange (seq [list (call .rangeBound), rangeOp, opt (call .rangeBound)]),
    node .patRange (seq [list nothing, op "..=", list (call .rangeBound)]),
    node .patRange (seq [list nothing, never (op "..."), op "..", list (call .rangeBound)]),
    node .patRest (seq [list nothing, never (op "..."), op ".."]),
    node .patWild (word "_"),
    node .patLit (seq [opt (op "-"), term .literal]),
    node .patBlock (seq [word "const", call .block]),
    node .patStruct (seq [call .exprPath, braces (commas (call .patField))]),
    node .patTupleStruct (seq [call .exprPath, parens (commas (call .pat))]),
    node .patPath (seq [ahead (alt [op "::", op "<", seq [pathWord, op "::"]]), call .exprPath]),
    node .patIdent (seq [opt (word "ref"), opt (word "mut"), alt [ident, word "self"],
      opt (seq [op "@", call .patSingle])]),
    node .patPath (call .exprPath),
    node .patRef (seq [op "&", opt (word "mut"), call .patSingle]),
    node .patTuple (parens (commas (call .pat))),
    node .patSlice (brackets (commas (call .pat))),
    verbatim [word "box", call .patSingle]]

def notBrace (struct : Bool) : Peg Rule :=
  if struct then nothing else never (term .rawBrace)

def expr (struct : Bool) : Peg Rule :=
  grow true (call (.range struct)) (alt [
    node .compound (seq [term (.operator .assign), call (.expr struct)]),
    node .assign (seq [never (op "=="), never (op "=>"), op "=", call (.expr struct)])])

def rangeEnd (struct : Bool) : Peg Rule :=
  alt [
    seq [op "..=", list (call (.level .or struct))],
    seq [never (op "..."), op "..", opt (seq [notBrace struct, call (.level .or struct)])]]

def range (struct : Bool) : Peg Rule :=
  grow false (call (.level .or struct)) (node .range (rangeEnd struct))

def tighter (struct : Bool) : Level → Rule
  | .assign => .range struct
  | .or => .level .and struct
  | .and => .level .compare struct
  | .compare => .level .bitOr struct
  | .bitOr => .level .bitXor struct
  | .bitXor => .level .bitAnd struct
  | .bitAnd => .level .shift struct
  | .shift => .level .sum struct
  | .sum => .level .product struct
  | .product => .cast struct

/-- Comparisons do not chain, all other operators associate to the left. -/
def binary (l : Level) (struct : Bool) : Peg Rule :=
  grow (l ≠ .compare) (call (tighter struct l))
    (node .binary (seq [term (.operator l), call (tighter struct l)]))

def cast (struct : Bool) : Peg Rule :=
  grow true (call (.unary struct)) (node .cast (seq [word "as", call .tyNoPlus]))

def unary (struct : Bool) : Peg Rule :=
  alt [
    node .attributed (seq [ahead (call .outerAttr), outerAttrs, call (.plainUnary struct)]),
    call (.plainUnary struct)]

def plainUnary (struct : Bool) : Peg Rule :=
  alt [
    node .rawAddress (seq [op "&", word "raw", alt [word "const", word "mut"],
      call (.unary struct)]),
    node .reference (seq [op "&", opt (word "mut"), call (.unary struct)]),
    node .unary (seq [alt [op "*", op "!", op "-"], call (.unary struct)]),
    call (.trailed struct)]

def dot : Peg Rule := seq [never (op ".."), op "."]

def arguments : Peg Rule := parens (commas (call (.expr true)))

def turbofish : Peg Rule := seq [ahead (seq [separator, op "<"]), call .angle]

def trailed (struct : Bool) : Peg Rule :=
  grow true (call (.atom struct)) (alt [
    node .call arguments,
    node .awaiting (seq [dot, word "await"]),
    node .method (seq [dot, ident, opt turbofish, arguments]),
    node .fieldPair (seq [dot, term .positions]),
    node .field (seq [dot, alt [ident, term .position]]),
    node .index (brackets (call (.expr true))),
    node .question (op "?")])

def label : Peg Rule := seq [term .lifetime, op ":"]

def withValue (k : Kind) (text : String) (struct : Bool) : Peg Rule :=
  node k (seq [word text, opt (seq [notBrace struct, call (.expr struct)])])

def structField : Peg Rule :=
  alt [
    node .fieldInit (seq [outerAttrs, alt [ident, term .position], never (op "::"), op ":",
      call (.expr true)]),
    node .fieldValue (seq [outerAttrs, ident])]

def structBody : Peg Rule :=
  braces (seq [commas (call .structField), opt (seq [op "..", opt (call (.expr true))])])

def invocation : Peg Rule :=
  node .invocation (seq [call .modPath, never (op "!="), op "!", term .raw])

def literal : Peg Rule := node .lit (seq [list nothing, term .literal])

def closureHead : Peg Rule :=
  seq [opt (call .forLifetimes), opt (word "const"), opt (word "static"), opt (word "async"),
    opt (word "move"), op "|", commas (call .closureArg), op "|"]

def closure (struct : Bool) : Peg Rule :=
  alt [
    node .closureTo (seq [closureHead, op "->", call .ty, call .block]),
    node .closure (seq [closureHead, never (op "->"), call (.expr struct)])]

def closureArg : Peg Rule :=
  alt [
    node .patTyped (seq [outerAttrs, call .patSingle, op ":", call .ty]),
    seq [call .patSingle]]

def letCond (struct : Bool) : Peg Rule :=
  node .letCond (seq [word "let", call .pat, op "=", call (.level .compare struct)])

def startsClosure : Peg Rule :=
  alt [
    op "|", word "move", seq [word "for", op "<"],
    seq [word "const", never (term .rawBrace)],
    word "static",
    seq [word "async", alt [op "|", word "move"]]]

def asyncBlock : Peg Rule :=
  node .asyncBlock (seq [word "async", opt (word "move"), call .block])

/-- The word `try` begins a path only if the path goes on. -/
def loneTry : Peg Rule :=
  seq [word "try", never (alt [op "!", separator])]

def atom (struct : Bool) : Peg Rule :=
  alt [
    call .literal,
    asyncBlock,
    node .blockWith (seq [word "try", call .block]),
    seq [ahead startsClosure, call (.closure struct)],
    seq [never loneTry, alt [
      call .invocation,
      if struct then node .structLit (seq [call .exprPath, structBody]) else never nothing,
      node .pathExpr (call .exprPath)]],
    node .tuple (parens (commas (call (.expr true)))),
    node .breaking (seq [word "break", opt (term .lifetime),
      opt (seq [notBrace struct, call (.expr struct)])]),
    node .continuing (seq [word "continue", opt (term .lifetime)]),
    withValue .returning "return" struct,
    node .array (brackets (commas (call (.expr true)))),
    node .repeated (brackets (seq [call (.expr true), op ";", call (.expr true)])),
    letCond struct,
    call .plainBlockLike,
    withValue .yielding "yield" struct,
    node .rangeTo (rangeEnd struct),
    node .infer (word "_")]

def ifElse : Peg Rule :=
  node .ifElse (seq [word "if", call (.expr false), call .block,
    opt (seq [word "else", alt [call .ifElse, node .blockExpr (seq [list nothing, call .block])]])])

/-- A statement that does not end in a value needs no comma after it. -/
def armBody : Peg Rule :=
  alt [
    seq [call .blockLike, opt (op ",")],
    seq [call (.expr true), alt [list (op ","), seq [list nothing, term .atEnd]]]]

def arm : Peg Rule :=
  node .arm (seq [outerAttrs, call .pat, opt (seq [word "if", call (.expr true)]), op "=>",
    call .armBody])

def plainBlockLike : Peg Rule :=
  alt [
    call .ifElse,
    node .whileLoop (seq [opt label, word "while", call (.expr false), call .block]),
    node .forLoop (seq [opt label, word "for", call .pat, word "in", call (.expr false),
      call .block]),
    node .loop (seq [opt label, word "loop", call .block]),
    node .matching (seq [word "match", call (.expr false),
      braces (seq [innerAttrs, many (call .arm)])]),
    node .blockWith (seq [alt [word "try", word "unsafe", word "const"], call .block]),
    node .blockExpr (seq [opt label, call .block])]

def carriesOn : Peg Rule := alt [dot, op "?"]

def blockLike : Peg Rule :=
  seq [
    alt [
      node .attributed (seq [ahead (call .outerAttr), outerAttrs, call .plainBlockLike]),
      call .plainBlockLike],
    never carriesOn]

def stmts : Peg Rule := many (call .stmt)

def block : Peg Rule :=
  node .block (braces (seq [innerAttrs, stmts]))

/-- Words that begin an item, where a statement might stand as well. -/
def startsItem : Peg Rule :=
  alt [
    word "pub", seq [word "crate", never separator], word "extern", word "use",
    seq [word "static", alt [word "mut", ident]],
    seq [word "const", never (alt [term .rawBrace, word "static", word "move", op "|"]),
      never (seq [word "async", never (alt [word "unsafe", word "extern", word "fn"])])],
    seq [word "unsafe", never (term .rawBrace)],
    seq [word "async", alt [word "unsafe", word "extern", word "fn"]],
    word "fn", word "mod", word "type", word "struct", word "enum",
    seq [word "union", ident], seq [word "auto", word "trait"], word "trait",
    seq [word "default", alt [word "unsafe", word "impl"]], word "impl", word "macro",
    seq [call .modPath, op "!", ident]]

def stmt : Peg Rule :=
  alt [
    node .empty (op ";"),
    node .invocationStmt (seq [outerAttrs, call .modPath, op "!", term .rawBrace,
      never carriesOn, opt (op ";")]),
    node .letStmt (seq [outerAttrs, word "let", call .patSingle, opt (seq [op ":", call .ty]),
      opt (seq [op "=", call (.expr true), opt (seq [word "else", call .block])]), op ";"]),
    seq [ahead (seq [outerAttrs, startsItem]), call .item],
    node .exprStmt (seq [call .blockLike, opt (op ";")]),
    node .exprStmt (seq [
      never (seq [outerAttrs, alt [startsItem, word "let"]]), call (.expr true),
      alt [list (op ";"), seq [list nothing, term .atEnd]]])]

def visibility : Peg Rule :=
  node .visibility (alt [
    seq [word "pub", list (parens (alt [
      seq [alt [word "crate", word "self", word "super"], term .atEnd],
      seq [word "in", call .modPath]]))],
    seq [word "pub", list nothing],
    nothing])

def genericParam : Peg Rule :=
  alt [
    node .lifetimeParam (seq [outerAttrs, term .lifetime,
      opt (seq [op ":", sepBy true (op "+") lifetimeArg])]),
    node .constParam (seq [outerAttrs, word "const", ident, op ":", call .ty,
      opt (seq [op "=", alt [call .literal, call .block, call .ty]])]),
    node .typeParam (seq [outerAttrs, ident, opt (seq [op ":", bounds]),
      opt (seq [op "=", call .ty])])]

def generics : Peg Rule :=
  alt [node .generics (seq [op "<", commas (call .genericParam), op ">"]), list nothing]

def wherePredicate : Peg Rule :=
  alt [
    node .whereLifetime (seq [term .lifetime, op ":", sepBy true (op "+") lifetimeArg]),
    node .whereType (seq [opt (call .forLifetimes), call .ty, op ":", bounds])]

def whereClause : Peg Rule :=
  alt [node .whereClause (seq [word "where", commas (call .wherePredicate)]), list nothing]

def fnArg : Peg Rule :=
  alt [
    node .receiver (seq [outerAttrs, alt [
      seq [list (seq [op "&", opt (term .lifetime)]), opt (word "mut"), word "self",
        never separator, list nothing],
      seq [list nothing, opt (word "mut"), word "self", never separator,
        opt (seq [op ":", call .ty])]]]),
    node .variadic (seq [outerAttrs, opt (seq [call .patSingle, op ":"]), op "..."]),
    node .typedArg (seq [outerAttrs, call .patSingle, op ":", call .ty])]

def signature : Peg Rule :=
  node .sig (seq [opt (word "const"), opt (word "async"), opt (word "unsafe"),
    opt (call .abi), word "fn", ident, call .generics, parens (commas (call .fnArg)), call .sigRet,
    call .whereClause])

def useTree : Peg Rule :=
  alt [
    node .usePath (seq [pathWord, separator, call .useTree]),
    node .useRename (seq [pathWord, word "as", alt [ident, word "_"]]),
    node .useName pathWord,
    node .useGlob (op "*"),
    node .useGroup (braces (commas (call .useTree)))]

def field : Peg Rule :=
  node .fieldDef (seq [outerAttrs, call .visibility, alt [ident, word "_"], op ":", call .ty])

def tupleField : Peg Rule :=
  node .tupleField (seq [outerAttrs, call .visibility, call .ty])

def variant : Peg Rule :=
  node .variant (seq [outerAttrs, call .visibility, ident,
    alt [
      list (braces (commas (call .field))),
      list (parens (commas (call .tupleField))),
      list nothing],
    opt (seq [op "=", call (.expr true)])])

def members (member : Rule) : Peg Rule :=
  braces (seq [innerAttrs, many (call member)])

def invocationItem : Peg Rule :=
  node .invocationItem (seq [outerAttrs, call .modPath, never (op "!="), op "!", opt ident,
    alt [seq [term .rawBrace, opt (op ";")], seq [term .raw, list (op ";")]]])

def fnItem (default : Peg Rule) : Peg Rule :=
  node .fnItem (seq [outerAttrs, call .visibility, default, call .signature, call .block])

def fnDecl : Peg Rule :=
  node .fnDecl (seq [outerAttrs, call .visibility, list nothing, call .signature, op ";"])

/-- A function in an implementation may be marked as a default. -/
def memberFn : Peg Rule := fnItem (opt (word "default"))

def constName : Peg Rule := alt [ident, word "_"]

def constItem (default : Peg Rule) : Peg Rule :=
  node .constItem (seq [outerAttrs, call .visibility, default, word "const", constName, op ":",
    call .ty, op "=", call (.expr true), op ";"])

def looseConst (default : Peg Rule) : Peg Rule :=
  verbatim [outerAttrs, call .visibility, default, word "const", constName, call .generics,
    op ":", call .ty, opt (seq [op "=", call (.expr true)]), call .whereClause, op ";"]

/-- A type that a member stands for; its conditions come last. -/
def memberType (head bounds value : Peg Rule) : Peg Rule :=
  seq [outerAttrs, head, word "type", ident, call .generics, bounds, value, call .whereClause,
    op ";"]

def boundsPart : Peg Rule := opt (seq [op ":", bounds])

def typeValue : Peg Rule := seq [op "=", call .ty]

def anyDefault : Peg Rule := opt (word "default")

def implMember : Peg Rule :=
  alt [
    memberFn,
    verbatim [outerAttrs, call .visibility, anyDefault, call .signature, op ";"],
    constItem anyDefault,
    looseConst anyDefault,
    node .assocTypeItem (memberType (seq [call .visibility, anyDefault]) (list nothing)
      (list typeValue)),
    verbatim [memberType (seq [call .visibility, anyDefault]) boundsPart (opt typeValue)],
    invocationItem]

def assocConst : Peg Rule :=
  node .assocConst (seq [outerAttrs, word "const", constName, op ":", call .ty,
    opt (seq [op "=", call (.expr true)]), op ";"])

def traitMember : Peg Rule :=
  alt [
    node .fnItem (seq [outerAttrs, node .visibility nothing, list nothing, call .signature,
      call .block]),
    node .fnDecl (seq [outerAttrs, node .visibility nothing, list nothing, call .signature,
      op ";"]),
    assocConst,
    node .assocTypeItem (memberType (seq [node .visibility nothing, list nothing]) boundsPart
      (opt typeValue)),
    invocationItem,
    verbatim [outerAttrs, call .visibility, anyDefault, call .signature,
      alt [call .block, op ";"]],
    looseConst anyDefault,
    verbatim [memberType (seq [call .visibility, anyDefault]) boundsPart (opt typeValue)]]

/-- Members of a foreign block that say how safe they are, or that have a body or a value. -/
def looseForeign : Peg Rule :=
  alt [
    verbatim [outerAttrs, call .visibility, opt (word "safe"), call .signature,
      alt [call .block, op ";"]],
    verbatim [outerAttrs, call .visibility, opt (alt [word "unsafe", word "safe"]), word "static",
      opt (word "mut"), ident, op ":", call .ty, opt (seq [op "=", call (.expr true)]), op ";"],
    verbatim [outerAttrs, call .visibility, word "type", ident, call .generics, boundsPart,
      call .whereClause, opt typeValue, call .whereClause, op ";"]]

def foreignMember : Peg Rule :=
  alt [
    fnDecl,
    node .foreignStatic (seq [outerAttrs, call .visibility, word "static", opt (word "mut"), ident,
      op ":", call .ty, op ";"]),
    node .foreignType (seq [outerAttrs, call .visibility, word "type", ident, call .generics,
      op ";"]),
    looseForeign,
    invocationItem]

def implItem : Peg Rule :=
  node .implItem (seq [outerAttrs, opt (word "default"), opt (word "unsafe"), word "impl",
    call .generics,
    alt [
      list (seq [opt (op "!"), call .typePath, word "for"]),
      list nothing],
    call .ty, call .whereClause, members .implMember])

def looseImpl : Peg Rule :=
  verbatim [outerAttrs, call .visibility, anyDefault, opt (word "unsafe"), word "impl",
    call .generics, opt (seq [opt (op "?"), word "const"]),
    alt [list (seq [opt (op "!"), call .ty, word "for"]), list nothing],
    call .ty, call .whereClause, members .implMember]

def looseItem : Peg Rule :=
  alt [
    verbatim [outerAttrs, call .visibility, call .signature, op ";"],
    verbatim [outerAttrs, call .visibility, word "static", opt (word "mut"), ident,
      alt [seq [op "=", call (.expr true)], seq [op ":", call .ty]], op ";"],
    looseConst (list nothing),
    verbatim [outerAttrs, call .visibility, word "type", ident, call .generics, boundsPart,
      call .whereClause, opt typeValue, op ";"],
    looseImpl,
    verbatim [outerAttrs, call .visibility, word "macro", ident,
      opt (seq [never (term .rawBrace), term .raw]), term .rawBrace]]

def structHead (text : String) : Peg Rule :=
  seq [outerAttrs, call .visibility, word text, ident, call .generics]

def item : Peg Rule :=
  alt [
    node .useItem (seq [outerAttrs, call .visibility, word "use", opt separator, call .useTree,
      op ";"]),
    fnItem (list nothing),
    node .staticItem (seq [outerAttrs, call .visibility, word "static", opt (word "mut"), ident,
      op ":", call .ty, op "=", call (.expr true), op ";"]),
    constItem (list nothing),
    node .typeItem (seq [outerAttrs, call .visibility, word "type", ident, call .generics,
      call .whereClause, op "=", call .ty, op ";"]),
    node .modItem (seq [outerAttrs, call .visibility, opt (word "unsafe"), word "mod", ident,
      members .item]),
    node .modDecl (seq [outerAttrs, call .visibility, opt (word "unsafe"), word "mod", ident,
      op ";"]),
    node .externCrate (seq [outerAttrs, call .visibility, word "extern", word "crate",
      alt [ident, word "self"], opt (seq [word "as", alt [ident, word "_"]]), op ";"]),
    node .foreignItems (seq [outerAttrs, opt (word "unsafe"), call .abi, members .foreignMember]),
    node .structUnit (seq [structHead "struct", call .whereClause, op ";"]),
    node .structTuple (seq [structHead "struct", parens (commas (call .tupleField)),
      call .whereClause, op ";"]),
    node .structNamed (seq [structHead "struct", call .whereClause,
      braces (commas (call .field))]),
    node .unionItem (seq [structHead "union", call .whereClause, braces (commas (call .field))]),
    node .enumItem (seq [structHead "enum", call .whereClause, braces (commas (call .variant))]),
    node .traitItem (seq [outerAttrs, call .visibility, opt (word "unsafe"), opt (word "auto"),
      word "trait", ident, call .generics, opt (seq [op ":", bounds]), call .whereClause,
      members .traitMember]),
    node .traitAlias (seq [outerAttrs, call .visibility, word "trait", ident, call .generics,
      op "=", bounds, call .whereClause, op ";"]),
    implItem,
    looseItem,
    invocationItem]

def file : Peg Rule :=
  node .file (seq [innerAttrs, many (call .item)])

def rules : Rule → Peg Rule
  | .outerAttr => outerAttr
  | .innerAttr => innerAttr
  | .metaItem => metaItem
  | .path => pathOf .segment
  | .typePath => pathOf .typeSegment
  | .modPath => modPath
  | .exprPath => exprPath
  | .segment => segment
  | .typeSegment => typeSegment
  | .exprSegment => exprSegment
  | .angle => angle
  | .genericArg => genericArg
  | .ty => tyWith true
  | .tyNoPlus => tyWith false
  | .tyBound => tyBound
  | .bareFn => bareFn
  | .forLifetimes => forLifetimes
  | .abi => abi
  | .ret => retWith .tyNoPlus
  | .sigRet => retWith .ty
  | .pat => pat
  | .patSingle => patSingle
  | .patField => patField
  | .rangeBound => rangeBound
  | .expr struct => expr struct
  | .range struct => range struct
  | .level l struct => binary l struct
  | .cast struct => cast struct
  | .unary struct => unary struct
  | .plainUnary struct => plainUnary struct
  | .trailed struct => trailed struct
  | .atom struct => atom struct
  | .literal => literal
  | .closure struct => closure struct
  | .closureArg => closureArg
  | .invocation => invocation
  | .structField => structField
  | .ifElse => ifElse
  | .arm => arm
  | .armBody => armBody
  | .blockLike => blockLike
  | .plainBlockLike => plainBlockLike
  | .block => block
  | .stmt => stmt
  | .generics => generics
  | .genericParam => genericParam
  | .whereClause => whereClause
  | .wherePredicate => wherePredicate
  | .visibility => visibility
  | .signature => signature
  | .fnArg => fnArg
  | .item => item
  | .useTree => useTree
  | .field => field
  | .tupleField => tupleField
  | .variant => variant
  | .implMember => implMember
  | .traitMember => traitMember
  | .foreignMember => foreignMember
  | .file => file

end Grammar

end Statechart.Target
