import Statechart.Target.Grammar.Peg
import Statechart.Target.Layout.Doc

/-!
Layout of token streams that have no tree: arguments of attributes and bodies of macros.

Blanks are chosen from the tokens alone. A stream is walked with the last few tokens kept as a
small state, which tells whether a blank stands before the next one.
-/
set_option autoImplicit false

namespace Statechart.Target.Layout

inductive AttrState where
  | word
  | mark
  | lastComma
  deriving DecidableEq

mutual

/-- One token of an attribute and the state after it; `last` tells whether its group ends there. -/
def attrToken (last : Bool) (state : AttrState) : Token → List Doc × AttrState
  | .ident text => ((if state = .word then space else []) ++ word text, .word)
  | .literal text => ((if state = .word then space else []) ++ word text, .word)
  | .punct c _ =>
    let before := if state = .word && c = '=' then nbsp else []
    if c = ',' && last then (before ++ comma true, .lastComma)
    else
      let after := if c = '=' then nbsp else if c = ',' then space else []
      (before ++ word c.toString ++ after, .mark)
  | .group .paren inner =>
    let content := attrTokens .mark inner
    let closing := if content.2 = .lastComma then [] else zerobreak
    (word "(" ++ cbox step (outdent (zerobreak ++ content.1 ++ closing)) ++ word ")", .mark)
  | .group d inner =>
    (word d.opening ++ (attrTokens .mark inner).1 ++ word d.closing, .mark)

def attrTokens (state : AttrState) : List Token → List Doc × AttrState
  | [] => ([], state)
  | t :: ts =>
    let first := attrToken ts.isEmpty state t
    let rest := attrTokens first.2 ts
    (first.1 ++ rest.1, rest.2)

end

inductive BodyState where
  | start
  | dollar
  | dollarIdent
  | dollarIdentColon
  | dollarParen
  | dollarParenSep
  | pound
  | poundBang
  | dot
  | colon
  | colons
  | ident
  | identBang
  | delim
  | other
  deriving DecidableEq

def apartWords : List String :=
  ["as", "async", "await", "box", "break", "const", "continue", "crate", "dyn", "else", "enum",
    "extern", "fn", "for", "if", "impl", "in", "let", "loop", "macro", "match", "mod", "move",
    "mut", "pub", "ref", "return", "static", "struct", "trait", "type", "unsafe", "use", "where",
    "while", "yield"]

/-- Whether a blank may stand before a token in the given state, and the state after it. In a
`matcher` names after a dollar sign carry the kind of what they match. -/
def nextBody (matcher : Bool) (state : BodyState) (t : Token) : Bool × BodyState :=
  match state, t with
  | .dollar, .ident _ => (false, if matcher then .dollarIdent else .other)
  | .dollarIdent, .punct ':' false => (false, .dollarIdentColon)
  | .dollarIdentColon, .ident _ => (false, .other)
  | .dollarParen, .punct '+' false => (false, .other)
  | .dollarParen, .punct '*' false => (false, .other)
  | .dollarParen, .punct '?' false => (false, .other)
  | .dollarParen, .ident _ => (false, .dollarParenSep)
  | .dollarParen, .literal _ => (false, .dollarParenSep)
  | .dollarParen, .punct _ true => (false, .dollarParen)
  | .dollarParen, .punct _ false => (false, .dollarParenSep)
  | .dollarParenSep, .punct '+' _ => (false, .other)
  | .dollarParenSep, .punct '*' _ => (false, .other)
  | .pound, .punct '!' _ => (false, .poundBang)
  | .dollar, .group .paren _ => (false, .dollarParen)
  | .pound, .group .bracket _ => (false, .other)
  | .poundBang, .group .bracket _ => (false, .other)
  | .ident, .punct '!' false => (false, .identBang)
  | .colon, .punct ':' _ => (false, .colons)
  | _, .group .brace _ => (true, .other)
  | state, .group _ _ =>
    if state = .ident then (false, .delim)
    else if state = .identBang then (false, .other)
    else (true, .delim)
  | state, .ident i =>
    if apartWords.contains i then (true, .other)
    else (state ≠ .dot && state ≠ .colons, .ident)
  | state, .literal _ => (state ≠ .dot, .ident)
  | _, .punct ',' _ => (false, .other)
  | _, .punct ';' _ => (false, .other)
  | state, .punct c joint =>
    if c = '.' && !matcher then (state ≠ .ident && state ≠ .delim, .dot)
    else if c = ':' && joint then (state ≠ .ident, .colon)
    else if c = '$' then (true, .dollar)
    else if c = '#' then (true, .pound)
    else (true, .other)

def joinsNext : Token → Bool
  | .punct c joint => joint || c = '$'
  | _ => false

def isDot : Token → Bool
  | .punct c _ => c = '.'
  | _ => false

mutual

def bodyToken (matcher : Bool) : Token → List Doc
  | .ident text => word text
  | .punct c _ => word c.toString
  | .literal text => word text
  | .group d inner =>
    let pad := if d = .brace && !inner.isEmpty then space else []
    word d.opening ++ pad ++ bodyTokens matcher .start true inner ++ pad ++ word d.closing

def bodyTokens (matcher : Bool) (state : BodyState) (joined : Bool) : List Token → List Doc
  | [] => []
  | t :: ts =>
    let next := nextBody matcher state t
    let before :=
      if joined then []
      else if next.1 then space
      else if isDot t then zerobreak
      else []
    before ++ bodyToken matcher t ++ bodyTokens matcher next.2 (joinsNext t) ts

end

def invocation (name : List Doc) (label : List Doc) (arguments : Token) (semicolon : Bool) :
    List Doc :=
  match arguments with
  | .group d inner =>
    let edge := if d = .brace then hardbreak else zerobreak
    let body :=
      if inner.isEmpty then []
      else cbox step (outdent (edge ++ ibox 0 (bodyTokens false .start true inner) ++ edge))
    let closing := if semicolon && d ≠ .brace then word ";" else []
    name ++ word "!" ++ label ++ word (if d = .brace then " " ++ d.opening else d.opening) ++
      body ++ word d.closing ++ closing
  | _ => []

def macroRules : List Token → List Doc
  | .group d inner :: .punct '=' true :: .punct '>' _ :: .group _ body :: rest =>
    let matcher :=
      if inner.isEmpty then []
      else cbox step
        (outdent (zerobreak ++ ibox 0 (bodyTokens true .start true inner) ++ zerobreak))
    let expander :=
      if body.isEmpty then []
      else cbox step
        (outdent (hardbreak ++ ibox 0 (bodyTokens false .start true body) ++ hardbreak))
    word d.opening ++ matcher ++ word d.closing ++ word " =" ++ word ">" ++
      word " \x7b" ++ neverbreak ++ expander ++ word "\x7d" ++ word ";" ++ hardbreak ++
      match rest with
      | .punct ';' _ :: rest => macroRules rest
      | rest => macroRules rest
  | _ => []

def macroDefinition (name : String) (arguments : Token) : List Doc :=
  match arguments with
  | .group _ rules =>
    word "macro_rules! " ++ word name ++ word " \x7b" ++
      cbox step (outdent (hardbreakIfMore ++ macroRules rules)) ++ word "\x7d"
  | _ => []

end Statechart.Target.Layout
