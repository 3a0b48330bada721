import Statechart.Proofs.Lists
import Statechart.Proofs.Target.Syntax
import Statechart.Target.Fragment

/-!
Files of marked functions.

A stream of public functions, each with one marker and one parameter by reference, is read function
by function. Only the bodies are open: a function is an item when its body is a block, and no other
kind of item begins like it.
-/
set_option autoImplicit false

namespace Statechart.Target

theorem Peg.parse_succ {R : Type} (g : R → Peg R) (n : Nat) (r : R) (ts : List Token) :
    Peg.parse g (n + 1) r ts = Peg.run (Peg.parse g n) (g r) ts := rfl

theorem ne_of_isIdentifier {i k : String} (h : isIdentifier i = true)
    (hk : isIdentifier k = false) : i ≠ k := by
  intro hi
  rw [hi, hk] at h
  cases h

namespace Grammar

variable {n : Nat} {i : String} {ts : List Token}

section
attribute [local simp] Peg.run Peg.runSeq Peg.runAlt Peg.word Peg.op Peg.opt Peg.ident Peg.nothing
  Peg.commas Peg.parens Peg.brackets Peg.braces Peg.rounds Peg.separated Terminal.read dropOp
  separator Token.op Token.opChars rules

def pathTree (i : String) : Tree :=
  .node .path [.list [], .list [.node .segment [.leaf [.ident i], .list []]]]

theorem run_pathWord {call : Rule → Parser} (h : isIdentifier i = true) (ts : List Token) :
    Peg.run call pathWord (.ident i :: ts) = some ([.leaf [.ident i]], ts) := by
  simp (disch := decide) [pathWord, ne_of_isIdentifier h, h]

def EndsPath (ts : List Token) : Prop :=
  ts = [] ∨ (∃ rest, ts = .punct ':' false :: rest) ∨ ∃ inner rest, ts = .group .brace inner :: rest

theorem parse_modPath (h : isIdentifier i = true) (hts : EndsPath ts) :
    Peg.parse rules (n + 1) .modPath (.ident i :: ts) = some ([pathTree i], ts) := by
  rw [Peg.parse_succ, rules]
  rcases hts with rfl | ⟨rest, rfl⟩ | ⟨inner, rest, rfl⟩
  all_goals simp [modPath, run_pathWord h, pathTree]

theorem parse_exprPath (h : isIdentifier i = true) (hts : EndsPath ts) :
    Peg.parse rules (n + 2) .exprPath (.ident i :: ts) = some ([pathTree i], ts) := by
  have hseg : Peg.parse rules (n + 1) .exprSegment (.ident i :: ts) =
      some ([.node .segment [.leaf [.ident i], .list []]], ts) := by
    rw [Peg.parse_succ, rules]
    rcases hts with rfl | ⟨rest, rfl⟩ | ⟨inner, rest, rfl⟩
    all_goals simp [exprSegment, run_pathWord h]
  rw [Peg.parse_succ, rules]
  rcases hts with rfl | ⟨rest, rfl⟩ | ⟨inner, rest, rfl⟩
  all_goals simp [exprPath, qpathWith, pathOf, run_pathWord h, hseg, pathTree]

def markerTree (m : String) : Tree :=
  .node .outerAttr [.leaf (Token.op "#"), .group .bracket [.node .metaPath [pathTree m]]]

theorem parse_outerAttr (h : isIdentifier i = true) (ts : List Token) :
    Peg.parse rules (n + 3) .outerAttr (.punct '#' false :: .group .bracket [.ident i] :: ts) =
      some ([markerTree i], ts) := by
  have hmeta : Peg.parse rules (n + 2) .metaItem [.ident i] =
      some ([.node .metaPath [pathTree i]], []) := by
    have hpath : Peg.parse rules (n + 1) .modPath [.ident i] = some ([pathTree i], []) :=
      parse_modPath h (.inl rfl)
    rw [Peg.parse_succ, rules]
    simp (disch := decide) [metaItem, metaHead, ne_of_isIdentifier h, hpath]
  rw [Peg.parse_succ, rules]
  simp [outerAttr, hmeta, markerTree]

theorem parse_outerAttr_ident (i : String) (ts : List Token) :
    Peg.parse rules (n + 1) .outerAttr (.ident i :: ts) = none := by
  rw [Peg.parse_succ, rules]
  simp [outerAttr]

theorem run_outerAttrs_ident (i : String) (ts : List Token) :
    Peg.run (Peg.parse rules (n + 1)) outerAttrs (.ident i :: ts) =
      some ([.list []], .ident i :: ts) := by
  simp [outerAttrs, parse_outerAttr_ident]

theorem run_outerAttrs (h : isIdentifier i = true) (k : String) (ts : List Token) :
    Peg.run (Peg.parse rules (n + 3)) outerAttrs
      (.punct '#' false :: .group .bracket [.ident i] :: .ident k :: ts) =
      some ([.list [markerTree i]], .ident k :: ts) := by
  simp [outerAttrs, parse_outerAttr h, parse_outerAttr_ident]

def typeTree (i : String) : Tree := .node .tyPath [pathTree i]

theorem parse_typePath (h : isIdentifier i = true) (hts : EndsPath ts) :
    Peg.parse rules (n + 2) .typePath (.ident i :: ts) = some ([pathTree i], ts) := by
  have hseg : Peg.parse rules (n + 1) .typeSegment (.ident i :: ts) =
      some ([.node .segment [.leaf [.ident i], .list []]], ts) := by
    rw [Peg.parse_succ, rules]
    rcases hts with rfl | ⟨rest, rfl⟩ | ⟨inner, rest, rfl⟩
    all_goals simp [typeSegment, segmentOr, startsAngle, fnSugar, run_pathWord h]
  rw [Peg.parse_succ, rules]
  rcases hts with rfl | ⟨rest, rfl⟩ | ⟨inner, rest, rfl⟩
  all_goals simp [pathOf, run_pathWord h, hseg, pathTree]

theorem parse_bareFn_ident (h : isIdentifier i = true) (ts : List Token) :
    Peg.parse rules (n + 2) .bareFn (.ident i :: ts) = none := by
  have hfor : Peg.parse rules (n + 1) .forLifetimes (.ident i :: ts) = none := by
    rw [Peg.parse_succ, rules]
    simp (disch := decide) [forLifetimes, ne_of_isIdentifier h]
  have habi : Peg.parse rules (n + 1) .abi (.ident i :: ts) = none := by
    rw [Peg.parse_succ, rules]
    simp (disch := decide) [abi, ne_of_isIdentifier h]
  rw [Peg.parse_succ, rules]
  simp (disch := decide) [bareFn, hfor, habi, ne_of_isIdentifier h]

theorem run_tyWith_ident (plus : Bool) (h : isIdentifier i = true) (hts : EndsPath ts) :
    Peg.run (Peg.parse rules (n + 2)) (tyWith plus) (.ident i :: ts) = some ([typeTree i], ts) := by
  have hmod := parse_modPath (n := n + 1) h hts
  have hpath := parse_typePath (n := n) h hts
  rcases hts with rfl | ⟨rest, rfl⟩ | ⟨inner, rest, rfl⟩
  all_goals
    cases plus <;> simp (disch := decide) [tyWith, ne_of_isIdentifier h, parse_bareFn_ident h, hmod,
      hpath, qpathWith, typeTree]

theorem parse_ty_ident (h : isIdentifier i = true) (hts : EndsPath ts) :
    Peg.parse rules (n + 3) .ty (.ident i :: ts) = some ([typeTree i], ts) :=
  run_tyWith_ident true h hts

def refTree (mutable : Bool) (i : String) : Tree :=
  .node .tyRef [.leaf (Token.op "&"), .list [],
    .list (if mutable then [.leaf [.ident "mut"]] else []), typeTree i]

def refTokens (mutable : Bool) (i : String) : List Token :=
  .punct '&' false :: (if mutable then [.ident "mut"] else []) ++ [.ident i]

theorem parse_bareFn_ref (ts : List Token) :
    Peg.parse rules (n + 2) .bareFn (.punct '&' false :: ts) = none := by
  have hfor : Peg.parse rules (n + 1) .forLifetimes (.punct '&' false :: ts) = none := by
    rw [Peg.parse_succ, rules]
    simp [forLifetimes]
  have habi : Peg.parse rules (n + 1) .abi (.punct '&' false :: ts) = none := by
    rw [Peg.parse_succ, rules]
    simp [abi]
  rw [Peg.parse_succ, rules]
  simp [bareFn, hfor, habi]

theorem parse_ty_ref (mutable : Bool) (h : isIdentifier i = true) :
    Peg.parse rules (n + 4) .ty (refTokens mutable i) = some ([refTree mutable i], []) := by
  have hty : Peg.parse rules (n + 3) .tyNoPlus [.ident i] = some ([typeTree i], []) :=
    run_tyWith_ident false h (.inl rfl)
  rw [Peg.parse_succ, rules]
  cases mutable with
  | false =>
    simp (disch := decide) [tyWith, refTokens, refTree, parse_bareFn_ref, ne_of_isIdentifier h, hty]
  | true => simp [tyWith, refTokens, refTree, parse_bareFn_ref, hty]

def nameTree (i : String) : Tree :=
  .node .patIdent [.list [], .list [], .leaf [.ident i], .list []]

theorem parse_patSingle_ident (h : isIdentifier i = true) (ts : List Token) :
    Peg.parse rules (n + 4) .patSingle (.ident i :: .punct ':' false :: ts) =
      some ([nameTree i], .punct ':' false :: ts) := by
  have hts : EndsPath (.punct ':' false :: ts) := .inr (.inl ⟨ts, rfl⟩)
  have hmod := parse_modPath (n := n + 2) h hts
  have hpath := parse_exprPath (n := n + 1) h hts
  have hbound : Peg.parse rules (n + 3) .rangeBound (.ident i :: .punct ':' false :: ts) =
      some ([.node .pathExpr [pathTree i]], .punct ':' false :: ts) := by
    have hpath := parse_exprPath (n := n) h hts
    have hblock : Peg.parse rules (n + 2) .block (.ident i :: .punct ':' false :: ts) = none := by
      rw [Peg.parse_succ, rules]
      simp [block]
    rw [Peg.parse_succ, rules]
    simp (disch := decide) [rangeBound, ne_of_isIdentifier h, hpath, hblock]
  rw [Peg.parse_succ, rules]
  simp (disch := decide) [patSingle, rangeOp, verbatim, hmod, hbound, hpath, ne_of_isIdentifier h,
    h, run_pathWord h, nameTree]

def paramTree (name : String) (mutable : Bool) (i : String) : Tree :=
  .node .typedArg [.list [], nameTree name, .leaf (Token.op ":"), refTree mutable i]

theorem parse_fnArg {name : String} (hname : isIdentifier name = true) (mutable : Bool)
    (h : isIdentifier i = true) :
    Peg.parse rules (n + 5) .fnArg (.ident name :: .punct ':' false :: refTokens mutable i) =
      some ([paramTree name mutable i], []) := by
  have hpat := parse_patSingle_ident (n := n) hname (refTokens mutable i)
  have hty := parse_ty_ref (n := n) mutable h
  have hdots : dropOp ['.', '.', '.'] (refTokens mutable i) = none := rfl
  rw [Peg.parse_succ, rules]
  simp (disch := decide) [fnArg, run_outerAttrs_ident, ne_of_isIdentifier hname, hpat, hty, hdots,
    paramTree]

/-- A public function with a marker and one parameter, which is taken by reference. -/
structure MarkedFn where
  marker : String
  name : String
  param : String
  mutable : Bool
  type : String
  result : Option String
  body : List Token

namespace MarkedFn

structure Named (f : MarkedFn) : Prop where
  marker : isIdentifier f.marker = true
  name : isIdentifier f.name = true
  param : isIdentifier f.param = true
  type : isIdentifier f.type = true
  result : ∀ r ∈ f.result, isIdentifier r = true

def resultTokens : Option String → List Token
  | none => []
  | some r => [.punct '-' true, .punct '>' false, .ident r]

def resultTree : Option String → Tree
  | none => .list []
  | some r => .node .ret [.leaf (Token.op "->"), typeTree r]

def sigTokens (f : MarkedFn) : List Token :=
  .ident "fn" :: .ident f.name ::
    .group .paren (.ident f.param :: .punct ':' false :: refTokens f.mutable f.type) ::
    resultTokens f.result

def plainTokens (f : MarkedFn) : List Token :=
  .ident "pub" :: f.sigTokens ++ [.group .brace f.body]

def tokens (f : MarkedFn) : List Token :=
  .punct '#' false :: .group .bracket [.ident f.marker] :: f.plainTokens

def sigTree (f : MarkedFn) : Tree :=
  .node .sig [.list [], .list [], .list [], .list [], .leaf [.ident "fn"], .leaf [.ident f.name],
    .list [], .group .paren [.list [paramTree f.param f.mutable f.type]], resultTree f.result,
    .list []]

def publicTree : Tree :=
  .node .visibility [.leaf [.ident "pub"], .list []]

def blockTree (inner stmts : List Tree) : Tree :=
  .node .block [.group .brace [.list inner, .list stmts]]

def itemTree (f : MarkedFn) (attrs : List Tree) (block : Tree) : Tree :=
  .node .fnItem [.list attrs, publicTree, .list [], f.sigTree, block]

variable {f : MarkedFn}

theorem parse_sigRet {result : Option String} (h : ∀ r ∈ result, isIdentifier r = true)
    (body rest : List Token) :
    Peg.parse rules (n + 4) .sigRet (resultTokens result ++ .group .brace body :: rest) =
      some ([resultTree result], .group .brace body :: rest) := by
  rw [Peg.parse_succ, rules]
  cases result with
  | none => simp [retWith, resultTokens, resultTree]
  | some r =>
    have hty := parse_ty_ident (n := n) (h r rfl) (.inr (.inr ⟨body, rest, rfl⟩))
    simp [retWith, resultTokens, resultTree, hty]

theorem parse_signature (hf : f.Named) (body rest : List Token) :
    Peg.parse rules (n + 6) .signature (f.sigTokens ++ .group .brace body :: rest) =
      some ([f.sigTree], .group .brace body :: rest) := by
  have harg := parse_fnArg (n := n) hf.param f.mutable hf.type
  have hret := parse_sigRet (n := n + 1) hf.result body rest
  have habi : ∀ ts, Peg.parse rules (n + 5) .abi (.ident "fn" :: ts) = none := by
    intro ts
    rw [Peg.parse_succ, rules]
    simp [abi]
  have hgenerics : ∀ inner ts, Peg.parse rules (n + 5) .generics (.group .paren inner :: ts) =
      some ([.list []], .group .paren inner :: ts) := by
    intro inner ts
    rw [Peg.parse_succ, rules]
    simp [generics]
  have hwhere : Peg.parse rules (n + 5) .whereClause (.group .brace body :: rest) =
      some ([.list []], .group .brace body :: rest) := by
    rw [Peg.parse_succ, rules]
    simp [whereClause]
  rw [Peg.parse_succ, rules]
  simp [signature, sigTokens, sigTree, hf.name, harg, hret, habi, hgenerics, hwhere]

theorem parse_visibility (ts : List Token) :
    Peg.parse rules (n + 1) .visibility (.ident "pub" :: .ident "fn" :: ts) =
      some ([publicTree], .ident "fn" :: ts) := by
  rw [Peg.parse_succ, rules]
  simp [visibility, publicTree]

theorem parse_block {body rest : List Token} {found : List Tree × List Token}
    (h : Peg.parse rules (n + 1) .block (.group .brace body :: rest) = some found) :
    ∃ inner stmts, found = ([blockTree inner stmts], rest) := by
  rw [Peg.parse_succ, rules] at h
  simp only [block, innerAttrs, Grammar.stmts, Peg.braces, Peg.run, Peg.runSeq, if_true,
    Option.map_some, List.singleton_append] at h
  split at h
  · obtain rfl := Option.some.inj h
    rename_i hrun
    obtain ⟨hkids, -⟩ := Prod.mk.inj (Option.some.inj hrun)
    rw [← hkids]
    exact ⟨_, _, rfl⟩
  · cases h

/-- A marked function is an item if its body is a block, and nothing else otherwise. -/
theorem parse_item (hf : f.Named) (rest : List Token) :
    Peg.parse rules (n + 7) .item (f.tokens ++ rest) =
      (Peg.parse rules (n + 6) .block (.group .brace f.body :: rest)).map fun found =>
        ([.node .fnItem
          ([.list [markerTree f.marker], publicTree, .list [], f.sigTree] ++ found.1)], found.2) := by
  have hattrs := run_outerAttrs (n := n + 3) hf.marker
  have hvis := parse_visibility (n := n + 5)
  have hsig := parse_signature (n := n) hf f.body rest
  have habi : ∀ ts, Peg.parse rules (n + 6) .abi (.ident "pub" :: ts) = none := by
    intro ts
    rw [Peg.parse_succ, rules]
    simp [abi]
  have hmod : ∀ ts, Peg.parse rules (n + 6) .modPath (.ident "pub" :: ts) = none := by
    intro ts
    rw [Peg.parse_succ, rules]
    simp [modPath, pathWord, isIdentifier, keywords]
  rw [Peg.parse_succ, rules]
  simp only [tokens, plainTokens, sigTokens, List.cons_append, List.append_assoc,
    List.nil_append] at hsig ⊢
  -- the kinds that come after functions are tried only if the body is no block
  cases hblock : Peg.parse rules (n + 6) .block (.group .brace f.body :: rest) with
  | none =>
    simp [item, fnItem, constItem, structHead, implItem, looseItem, looseConst, looseImpl, verbatim,
      invocationItem, anyDefault, hattrs, hvis, hsig, habi, hmod, hblock]
  | some found => simp [item, fnItem, hattrs, hvis, hsig, hblock]

def IsItem (f : MarkedFn) (t : Tree) : Prop :=
  ∃ inner stmts, t = f.itemTree [markerTree f.marker] (blockTree inner stmts)

theorem rounds_item {fs : List MarkedFn} (hfs : ∀ f ∈ fs, f.Named) {k : Nat} {trees : List Tree}
    (h : Peg.rounds (Peg.parse rules (n + 7) .item) k (fs.flatMap tokens) = (trees, [])) :
    List.Forall₂ IsItem fs trees := by
  induction fs generalizing k trees with
  | nil =>
    cases k with
    | zero =>
      obtain rfl : [] = trees := (Prod.mk.inj h).1
      exact .nil
    | succ k =>
      rw [List.flatMap_nil, Peg.rounds] at h
      split at h
      · obtain rfl : [] = trees := by simpa using h
        exact .nil
      · obtain rfl : [] = trees := by simpa using h
        exact .nil
  | cons f fs ih =>
    cases k with
    | zero => simp [Peg.rounds, tokens] at h
    | succ k =>
      rw [List.flatMap_cons, Peg.rounds, parse_item (hfs f (by simp))] at h
      cases hblock : Peg.parse rules (n + 6) .block (.group .brace f.body :: fs.flatMap tokens) with
      | none => simp [hblock, tokens] at h
      | some found =>
        obtain ⟨inner, stmts, rfl⟩ := parse_block hblock
        have hless : (fs.flatMap tokens).length < (f.tokens ++ fs.flatMap tokens).length := by
          rw [List.length_append]
          have hpos : 0 < f.tokens.length := by simp [tokens]
          omega
        simp only [hblock, Option.map_some, hless, if_true] at h
        obtain ⟨rfl, hrest⟩ := Prod.mk.inj h
        exact .cons ⟨inner, stmts, rfl⟩
          (ih (fun g hg => hfs g (by simp [hg])) (Prod.ext rfl hrest))

theorem run_innerAttrs (fs : List MarkedFn) :
    Peg.run (Peg.parse rules (n + 1)) innerAttrs (fs.flatMap tokens) =
      some ([.list []], fs.flatMap tokens) := by
  cases fs with
  | nil => simp [innerAttrs]
  | cons f fs =>
    have hattr : ∀ ts, Peg.parse rules (n + 1) .innerAttr
        (.punct '#' false :: .group .bracket [.ident f.marker] :: ts) = none := by
      intro ts
      rw [Peg.parse_succ, rules]
      simp [innerAttr]
    simp [innerAttrs, tokens, hattr]

theorem fileOf?_items {fs : List MarkedFn} (hfs : ∀ f ∈ fs, f.Named) {tree : Tree}
    (h : Fragment.fileOf? (fs.flatMap tokens) = some tree) :
    ∃ items, tree = .node .file [.list [], .list items] ∧ List.Forall₂ IsItem fs items := by
  obtain ⟨n, hfuel⟩ : ∃ n, 64 * (Token.sizeAll (fs.flatMap tokens) + 2) = n + 8 :=
    ⟨64 * Token.sizeAll (fs.flatMap tokens) + 120, by omega⟩
  rw [Fragment.fileOf?, Peg.parseAll, hfuel, Peg.parse_succ, rules, file] at h
  simp only [Peg.run, Peg.runSeq, run_innerAttrs, Option.map_some, List.cons_append,
    List.nil_append] at h
  generalize hrounds : Peg.rounds _ _ _ = found at h
  obtain ⟨items, rest⟩ := found
  cases rest with
  | nil => exact ⟨items, (Option.some.inj h).symm, rounds_item hfs hrounds⟩
  | cons t ts => cases h

theorem tokens_itemTree (f : MarkedFn) (attrs inner stmts : List Tree) :
    (f.itemTree attrs (blockTree inner stmts)).tokens =
      Tree.tokensOf attrs ++ .ident "pub" :: f.sigTokens ++
        [.group .brace (Tree.tokensOf [.list inner, .list stmts])] := by
  cases hm : f.mutable <;> cases hr : f.result <;>
    simp [itemTree, blockTree, publicTree, sigTree, sigTokens, paramTree, nameTree, refTree,
      refTokens, typeTree, pathTree, resultTree, resultTokens, hm, hr, Tree.tokens, Tree.tokensOf]

theorem tokens_markerTree (m : String) :
    (markerTree m).tokens = [.punct '#' false, .group .bracket [.ident m]] := by
  simp [markerTree, pathTree, Tree.tokens, Tree.tokensOf]

def Shows (f : MarkedFn) (t : Tree) : Prop :=
  ∃ inner stmts, t = f.itemTree [markerTree f.marker] (blockTree inner stmts) ∧
    Tree.tokensOf [.list inner, .list stmts] = f.body

theorem shows_of_tokens {fs : List MarkedFn} {items : List Tree}
    (h : List.Forall₂ IsItem fs items) (htokens : Tree.tokensOf items = fs.flatMap tokens) :
    List.Forall₂ Shows fs items := by
  induction h with
  | nil => exact .nil
  | @cons f t fs items hitem _ ih =>
    obtain ⟨inner, stmts, rfl⟩ := hitem
    rw [Tree.tokensOf, tokens_itemTree, List.flatMap_cons, tokens, plainTokens] at htokens
    simp only [Tree.tokensOf, tokens_markerTree, List.append_nil, List.cons_append, List.nil_append,
      List.append_assoc, List.cons.injEq, List.append_cancel_left_eq, Token.group.injEq,
      true_and] at htokens
    exact .cons ⟨inner, stmts, rfl, by simpa [Tree.tokensOf] using htokens.1⟩ (ih htokens.2)

theorem unpair_itemTree (f : MarkedFn) (m : String) (block : Tree) :
    (f.itemTree [markerTree m] block).unpair = f.itemTree [markerTree m] block.unpair := by
  cases hm : f.mutable <;> cases hr : f.result <;>
    simp [itemTree, publicTree, sigTree, markerTree, paramTree, nameTree, refTree, typeTree,
      pathTree, resultTree, hm, hr, Tree.unpair, Tree.unpairAll, Tree.rebuild]

theorem noField_head (f : MarkedFn) (m : String) :
    Tree.noField (.list [markerTree m]) = true ∧ Tree.noField publicTree = true ∧
      Tree.noField f.sigTree = true := by
  cases hm : f.mutable <;> cases hr : f.result <;>
    simp [publicTree, sigTree, markerTree, paramTree, nameTree, refTree, typeTree, pathTree,
      resultTree, hm, hr, Tree.noField, Tree.noFields]

theorem unpair_eq_blockTree {t : Tree} {inner stmts : List Tree}
    (h : t.unpair = blockTree inner stmts) :
    ∃ inner' stmts', t = blockTree inner' stmts' ∧ Tree.unpairAll inner' = inner ∧
      Tree.unpairAll stmts' = stmts := by
  obtain ⟨kids, rfl, hkids⟩ := Tree.unpair_eq_node (by decide) h
  rcases kids with _ | ⟨g, _ | ⟨_, _⟩⟩
  · simp [Tree.unpairAll] at hkids
  · obtain ⟨parts, rfl, hparts⟩ := Tree.unpair_eq_group (List.cons.inj hkids).1
    rcases parts with _ | ⟨a, _ | ⟨b, _ | ⟨_, _⟩⟩⟩
    · simp [Tree.unpairAll] at hparts
    · simp [Tree.unpairAll] at hparts
    · simp only [Tree.unpairAll, List.cons.injEq, and_true] at hparts
      obtain ⟨inner', rfl, hinner⟩ := Tree.unpair_eq_list hparts.1
      obtain ⟨stmts', rfl, hstmts⟩ := Tree.unpair_eq_list hparts.2
      exact ⟨inner', stmts', rfl, hinner, hstmts⟩
    · simp [Tree.unpairAll] at hparts
  · simp [Tree.unpairAll] at hkids

/-- What a tree shows does not depend on the form of its pairs. -/
theorem Shows.of_unpair {t t' : Tree} (h : Shows f t) (ht : t'.unpair = t.unpair) : Shows f t' := by
  obtain ⟨inner, stmts, rfl, hbody⟩ := h
  rw [unpair_itemTree] at ht
  obtain ⟨kids, rfl, hkids⟩ := Tree.unpair_eq_node (by decide) ht
  rcases kids with _ | ⟨attrs, _ | ⟨visibility, _ | ⟨default, _ | ⟨sig, _ | ⟨block, _ | ⟨_, _⟩⟩⟩⟩⟩⟩ <;>
    simp only [Tree.unpairAll, List.cons.injEq, reduceCtorEq, and_false, and_true] at hkids
  obtain ⟨hattrs, hvisibility, hdefault, hsig, hblock⟩ := hkids
  obtain ⟨hno₁, hno₂, hno₃⟩ := noField_head f f.marker
  obtain rfl := Tree.eq_of_unpair_eq hattrs hno₁
  obtain rfl := Tree.eq_of_unpair_eq hvisibility hno₂
  obtain rfl := Tree.eq_of_unpair_eq hdefault rfl
  obtain rfl := Tree.eq_of_unpair_eq hsig hno₃
  obtain ⟨inner', stmts', rfl, hinner, hstmts⟩ := unpair_eq_blockTree hblock
  refine ⟨inner', stmts', rfl, ?_⟩
  calc Tree.tokensOf [.list inner', .list stmts']
      = Tree.tokensOf (Tree.unpairAll [.list inner', .list stmts']) :=
        (Tree.tokensOf_unpairAll _).symm
    _ = Tree.tokensOf (Tree.unpairAll [.list inner, .list stmts]) := by
        simp only [Tree.unpairAll, Tree.unpair, hinner, hstmts]
    _ = f.body := by rw [Tree.tokensOf_unpairAll, hbody]

theorem shows_of_unpair_file {fs : List MarkedFn} {items : List Tree} {tree : Tree}
    (h : List.Forall₂ Shows fs items)
    (htree : tree.unpair = (Tree.node .file [.list [], .list items]).unpair) :
    ∃ items', tree = .node .file [.list [], .list items'] ∧ List.Forall₂ Shows fs items' := by
  obtain ⟨kids, rfl, hkids⟩ := Tree.unpair_eq_node (by decide) htree
  rcases kids with _ | ⟨attrs, _ | ⟨list, _ | ⟨_, _⟩⟩⟩ <;>
    simp only [Tree.unpairAll, List.cons.injEq, reduceCtorEq, and_false, and_true] at hkids
  obtain rfl := Tree.eq_of_unpair_eq hkids.1 rfl
  obtain ⟨items', rfl, hitems⟩ := Tree.unpair_eq_list hkids.2
  refine ⟨items', rfl, ?_⟩
  clear htree hkids
  induction h generalizing items' with
  | nil =>
    cases items' with
    | nil => exact .nil
    | cons _ _ => simp [Tree.unpairAll] at hitems
  | cons hshows _ ih =>
    cases items' with
    | nil => simp [Tree.unpairAll] at hitems
    | cons t' items' =>
      obtain ⟨ht, hrest⟩ := List.cons.inj hitems
      exact .cons (hshows.of_unpair ht) (ih items' hrest)

end MarkedFn

end

end Grammar

end Statechart.Target
