import Statechart.Target.Token

/-!
Parse trees of the target language.

A tree keeps every token it was read from, so a fragment is printed by reading its tokens off the
tree. Parts that may be missing or repeated are `list`s, which gives the children of a node fixed
positions.
-/
set_option autoImplicit false

namespace Statechart.Target

inductive Kind where
  -- attributes and paths
  | outerAttr | innerAttr | metaPath | metaList | metaValue
  | path | segment | angle | fnSugar | lifetimeArg | assocType | constraint | qpath
  -- types
  | tyPath | tyInvocation | tyRef | tyPtr | tySlice | tyArray | tyTuple | tyNever | tyInfer
  | tyImpl | tyDyn | tyFn | fnPtrArg | bound | forLifetimes | ret
  -- patterns
  | patAlt | patWild | patRest | patLit | patRange | patIdent | patRef | patTuple | patSlice
  | patPath | patInvocation | patStruct | patTupleStruct | fieldPat | fieldShort | patTyped | patBlock
  -- expressions
  | attributed | lit | pathExpr | invocation | structLit | fieldValue | fieldInit | tuple | array
  | repeated | call | method | awaiting | field | fieldPair | index | question | reference
  | rawAddress | unary | binary | compound | assign | cast | range | rangeTo | closure | closureTo
  | ifElse | whileLoop | forLoop | loop | matching | arm | letCond | blockExpr | blockWith
  | asyncBlock | breaking | continuing | returning | yielding | infer | block
  -- statements
  | empty | letStmt | exprStmt | invocationStmt
  -- items
  | useItem | usePath | useName | useRename | useGlob | useGroup
  | staticItem | constItem | typeItem | fnItem | fnDecl | sig | receiver | typedArg | variadic
  | modItem | modDecl | externCrate | foreignItems | foreignStatic | foreignType
  | structUnit | structTuple | structNamed | unionItem | fieldDef | tupleField
  | enumItem | variant | traitItem | traitAlias | implItem | invocationItem
  | assocConst | assocTypeItem
  | generics | typeParam | lifetimeParam | constParam | whereClause | whereType | whereLifetime
  | visibility | abi | file
  -- what is read but not drawn
  | verbatim
  deriving DecidableEq, Repr

inductive Tree where
  | leaf (tokens : List Token)
  | group (delim : Delim) (kids : List Tree)
  | list (kids : List Tree)
  | node (kind : Kind) (kids : List Tree)
  deriving Repr

namespace Tree

mutual

/-- The tokens of a tree. Generics and conditions without any member are left out. -/
def tokens : Tree → List Token
  | leaf ts => ts
  | group d kids => [.group d (tokensOf kids)]
  | list kids => tokensOf kids
  | node .generics [_, list [], _] => []
  | node .whereClause [_, list []] => []
  | node _ kids => tokensOf kids

def tokensOf : List Tree → List Token
  | [] => []
  | t :: ts => tokens t ++ tokensOf ts

end

def leafText : Tree → String
  | leaf ts => String.join (ts.map Token.text)
  | _ => ""

def isEmptyList : Tree → Bool
  | list [] => true
  | _ => false

def hasKind (k : Kind) : Tree → Bool
  | node k' _ => k == k'
  | _ => false

end Tree

end Statechart.Target
