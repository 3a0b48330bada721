import Statechart.Proofs.Target.Function
import Statechart.Proofs.Target.Spelling

/-!
What a grammar leaves of a stream.

Whatever is read from the front of a stream, what is left is a tail of it. So the parts of a tree
come from tokens of the stream, and the functions of a file have identifiers of its text as names.
-/
set_option autoImplicit false

namespace Statechart.Target

theorem dropOp_suffix {cs : List Char} {ts rest : List Token} (h : dropOp cs ts = some rest) :
    rest <:+ ts := by
  fun_induction dropOp cs ts with
  | case1 ts => exact Option.some.inj h ▸ List.suffix_refl _
  | case2 c joint ts =>
    obtain rfl := Option.some.inj h
    exact List.suffix_cons _ _
  | case3 => cases h
  | case4 c cs p joint ts _ hp ih => exact (ih h).trans (List.suffix_cons _ _)
  | case5 => cases h
  | case6 => cases h

theorem operator?_suffix {ts rest : List Token} {ops : List (String × Level)} {text : String}
    {level : Level} (h : operator? ts ops = some (text, level, rest)) : rest <:+ ts := by
  induction ops with
  | nil => cases h
  | cons o ops ih =>
    rw [operator?] at h
    split at h
    · rename_i hdrop
      cases h
      exact dropOp_suffix hdrop
    · exact ih h

theorem afterAngles_suffix {depth : Nat} {ts rest : List Token}
    (h : afterAngles depth ts = some rest) : rest <:+ ts := by
  have hcons : ∀ {t : Token} {ts : List Token}, rest <:+ ts → rest <:+ t :: ts :=
    fun h => h.trans (List.suffix_cons _ _)
  fun_induction afterAngles depth ts with
  | case1 depth joint ts ih => exact hcons (hcons (ih h))
  | case2 depth joint ts ih => exact hcons (hcons (ih h))
  | case3 depth joint ts ih => exact hcons (ih h)
  | case4 ts => cases h
  | case5 joint ts =>
    obtain rfl := Option.some.inj h
    exact List.suffix_cons _ _
  | case6 depth joint ts ih => exact hcons (ih h)
  | case7 depth t ts _ _ _ _ _ ih => exact hcons (ih h)
  | case8 depth => cases h

def Parser.LeavesTail (p : Parser) : Prop :=
  ∀ ts trees rest, p ts = some (trees, rest) → rest <:+ ts

theorem Terminal.leavesTail (t : Terminal) : Parser.LeavesTail t.read := by
  intro ts trees rest h
  unfold Terminal.read at h
  split at h
  case h_4 =>
    obtain ⟨after, hdrop, heq⟩ := Option.map_eq_some_iff.1 h
    cases heq
    exact dropOp_suffix hdrop
  case h_10 =>
    obtain ⟨halves, -, heq⟩ := Option.map_eq_some_iff.1 h
    cases heq
    exact List.suffix_cons _ _
  case h_13 =>
    obtain ⟨after, hangles, heq⟩ := Option.map_eq_some_iff.1 h
    cases heq
    exact (afterAngles_suffix hangles).trans (List.suffix_cons _ _)
  -- the others read one token or two
  all_goals grind [List.suffix_cons, List.IsSuffix.trans, operator?_suffix]

namespace Peg

theorem rounds_suffix {p : Parser} (hp : p.LeavesTail) (n : Nat) (ts : List Token) :
    (rounds p n ts).2 <:+ ts := by
  induction n generalizing ts with
  | zero => exact List.suffix_refl _
  | succ n ih =>
    rw [rounds]
    split
    · rename_i trees rest hread
      split
      · exact (ih rest).trans (hp ts trees rest hread)
      · exact List.suffix_refl _
    · exact List.suffix_refl _

theorem separated_suffix {trailing : Bool} {sep p : Parser} (hsep : sep.LeavesTail)
    (hp : p.LeavesTail) (n : Nat) (ts : List Token) :
    (separated trailing sep p n ts).2 <:+ ts := by
  induction n generalizing ts with
  | zero => exact List.suffix_refl _
  | succ n ih =>
    rw [separated]
    split
    · rename_i comma rest hcomma
      have hrest := hsep ts comma rest hcomma
      split
      · rename_i trees rest' hread
        exact (ih rest').trans ((hp rest trees rest' hread).trans hrest)
      · split
        · exact hrest
        · exact List.suffix_refl _
    · exact List.suffix_refl _

theorem growing_suffix {step : Parser} (hstep : step.LeavesTail) (n : Nat) (left : Tree)
    (ts : List Token) : (growing step n left ts).2 <:+ ts := by
  induction n generalizing left ts with
  | zero => exact List.suffix_refl _
  | succ n ih =>
    rw [growing]
    split
    · exact List.suffix_refl _
    · split
      · rename_i trees rest hread
        exact (ih _ rest).trans (hstep ts trees rest hread)
      · exact List.suffix_refl _

mutual

theorem run_leavesTail {R : Type} {call : R → Parser} (hcall : ∀ r, (call r).LeavesTail) :
    ∀ p : Peg R, Parser.LeavesTail (run call p)
  | term t => fun ts trees rest h => t.leavesTail ts trees rest (by rwa [run] at h)
  | .call r => fun ts trees rest h => hcall r ts trees rest (by rwa [run] at h)
  | seq ps => fun ts trees rest h => runSeq_leavesTail hcall ps ts trees rest (by rwa [run] at h)
  | alt ps => fun ts trees rest h => runAlt_leavesTail hcall ps ts trees rest (by rwa [run] at h)
  | list p => by
    intro ts trees rest h
    rw [run, Option.map_eq_some_iff] at h
    obtain ⟨found, hfound, heq⟩ := h
    cases heq
    exact run_leavesTail hcall p ts found.1 found.2 hfound
  | many p => by
    intro ts trees rest h
    rw [run] at h
    cases h
    exact rounds_suffix (run_leavesTail hcall p) _ ts
  | sepBy trailing sep p => by
    intro ts trees rest h
    rw [run] at h
    split at h
    · rename_i first rest' hfirst
      cases h
      exact (separated_suffix (run_leavesTail hcall sep) (run_leavesTail hcall p) _ rest').trans
        (run_leavesTail hcall p ts first rest' hfirst)
    · cases h
      exact List.suffix_refl _
  | group d p => by
    intro ts trees rest h
    rw [run.eq_def] at h
    dsimp only at h
    split at h
    · split at h
      · split at h
        · cases h
          exact List.suffix_cons _ _
        · cases h
      · cases h
    · cases h
  | ahead p => by
    intro ts trees rest h
    rw [run, Option.map_eq_some_iff] at h
    obtain ⟨found, -, heq⟩ := h
    cases heq
    exact List.suffix_refl _
  | never p => by
    intro ts trees rest h
    rw [run] at h
    split at h
    · cases h
    · cases h
      exact List.suffix_refl _
  | node k p => by
    intro ts trees rest h
    rw [run, Option.map_eq_some_iff] at h
    obtain ⟨found, hfound, heq⟩ := h
    cases heq
    exact run_leavesTail hcall p ts found.1 found.2 hfound
  | grow often base step => by
    intro ts trees rest h
    rw [run] at h
    split at h
    · rename_i left rest' hbase
      cases h
      exact (growing_suffix (run_leavesTail hcall step) _ left rest').trans
        (run_leavesTail hcall base ts [left] rest' hbase)
    · cases h

theorem runSeq_leavesTail {R : Type} {call : R → Parser} (hcall : ∀ r, (call r).LeavesTail) :
    ∀ ps : List (Peg R), Parser.LeavesTail (runSeq call ps)
  | [] => by
    intro ts trees rest h
    cases h
    exact List.suffix_refl _
  | p :: ps => by
    intro ts trees rest h
    rw [runSeq] at h
    split at h
    · rename_i first rest' hfirst
      obtain ⟨found, hfound, heq⟩ := Option.map_eq_some_iff.1 h
      cases heq
      exact (runSeq_leavesTail hcall ps rest' found.1 found.2 hfound).trans
        (run_leavesTail hcall p ts first rest' hfirst)
    · cases h

theorem runAlt_leavesTail {R : Type} {call : R → Parser} (hcall : ∀ r, (call r).LeavesTail) :
    ∀ ps : List (Peg R), Parser.LeavesTail (runAlt call ps)
  | [] => by
    intro ts trees rest h
    cases h
  | p :: ps => by
    intro ts trees rest h
    rw [runAlt] at h
    split at h
    · rename_i found hfound
      cases h
      exact run_leavesTail hcall p ts trees rest hfound
    · exact runAlt_leavesTail hcall ps ts trees rest h

end

theorem parse_leavesTail {R : Type} (grammar : R → Peg R) (n : Nat) (r : R) :
    Parser.LeavesTail (parse grammar n r) := by
  induction n generalizing r with
  | zero =>
    intro ts trees rest h
    cases h
  | succ n ih => exact run_leavesTail ih (grammar r)

variable {R : Type} {call : R → Parser} {p : Peg R} {ps : List (Peg R)} {ts rest : List Token}
  {trees : List Tree}

theorem exists_of_runAlt (h : runAlt call ps ts = some (trees, rest)) :
    ∃ p ∈ ps, run call p ts = some (trees, rest) := by
  induction ps with
  | nil => cases h
  | cons p ps ih =>
    rw [runAlt] at h
    split at h
    · rename_i found hfound
      exact ⟨p, List.mem_cons_self, hfound.trans h⟩
    · obtain ⟨q, hq, hrun⟩ := ih h
      exact ⟨q, List.mem_cons_of_mem p hq, hrun⟩

theorem run_node {k : Kind} :
    run call (node k p) ts = some (trees, rest) ↔
      ∃ kids, run call p ts = some (kids, rest) ∧ trees = [.node k kids] := by
  rw [run, Option.map_eq_some_iff]
  constructor
  · intro h
    obtain ⟨found, hfound, heq⟩ := h
    cases heq
    exact ⟨found.1, hfound, rfl⟩
  · intro h
    obtain ⟨kids, hkids, rfl⟩ := h
    exact ⟨(kids, rest), hkids, rfl⟩

def ReadsOne (call : R → Parser) (p : Peg R) : Prop :=
  ∀ ts trees rest, run call p ts = some (trees, rest) → ∃ t, trees = [t]

theorem readsOne_list (p : Peg R) : ReadsOne call (list p) := by
  intro ts trees rest h
  rw [run, Option.map_eq_some_iff] at h
  obtain ⟨found, -, heq⟩ := h
  cases heq
  exact ⟨_, rfl⟩

theorem readsOne_many (p : Peg R) : ReadsOne call (many p) := by
  intro ts trees rest h
  rw [run] at h
  cases h
  exact ⟨_, rfl⟩

theorem readsOne_node (k : Kind) (p : Peg R) : ReadsOne call (node k p) := by
  intro ts trees rest h
  obtain ⟨kids, -, rfl⟩ := run_node.1 h
  exact ⟨_, rfl⟩

theorem readsOne_opt (p : Peg R) : ReadsOne call (opt p) := by
  intro ts trees rest h
  rw [opt, run] at h
  obtain ⟨q, hq, hrun⟩ := exists_of_runAlt h
  simp only [List.mem_cons, List.not_mem_nil, or_false] at hq
  obtain rfl | rfl := hq
  · exact readsOne_list p ts trees rest hrun
  · exact readsOne_list nothing ts trees rest hrun

theorem readsOne_word (text : String) : ReadsOne call (word text) := by
  intro ts trees rest h
  rw [word, run] at h
  unfold Terminal.read at h
  grind

theorem run_ident (h : run call ident ts = some (trees, rest)) :
    ∃ i, ts = .ident i :: rest ∧ isIdentifier i = true ∧ trees = [.leaf [.ident i]] := by
  rw [ident, run] at h
  unfold Terminal.read at h
  grind

theorem readsOne_ident : ReadsOne call ident := by
  intro ts trees rest h
  obtain ⟨i, -, -, rfl⟩ := run_ident h
  exact ⟨_, rfl⟩

theorem runSeq_cons_one (hcall : ∀ r, (call r).LeavesTail) (hp : ReadsOne call p)
    (h : runSeq call (p :: ps) ts = some (trees, rest)) :
    ∃ t rest₁ more, trees = t :: more ∧ run call p ts = some ([t], rest₁) ∧
      runSeq call ps rest₁ = some (more, rest) ∧ rest₁ <:+ ts := by
  rw [runSeq] at h
  split at h
  · rename_i first rest₁ hfirst
    obtain ⟨found, hfound, heq⟩ := Option.map_eq_some_iff.1 h
    cases heq
    obtain ⟨t, rfl⟩ := hp ts first rest₁ hfirst
    exact ⟨t, rest₁, found.1, rfl, hfirst, hfound, run_leavesTail hcall p ts [t] rest₁ hfirst⟩
  · cases h

end Peg

namespace Grammar

open Peg

variable {n : Nat} {ts rest : List Token} {trees : List Tree}

theorem readsOne_call {r : Rule} {k : Kind} {p : Peg Rule} (h : rules r = node k p) :
    ReadsOne (parse rules n) (call r) := by
  intro ts trees rest hread
  rw [run] at hread
  cases n with
  | zero => cases hread
  | succ n =>
    rw [parse_succ, h] at hread
    exact readsOne_node k p ts trees rest hread

theorem name_of_signature (h : parse rules n .signature ts = some (trees, rest)) :
    ∃ kids i, trees = [.node .sig kids] ∧ kids.getD 5 (.list []) = .leaf [.ident i] ∧
      isIdentifier i = true ∧ .ident i ∈ ts := by
  cases n with
  | zero => cases h
  | succ n =>
    rw [parse_succ, rules, signature] at h
    obtain ⟨kids, hkids, rfl⟩ := run_node.1 h
    rw [run] at hkids
    have hcall := parse_leavesTail rules n
    obtain ⟨t₁, r₁, _, rfl, -, h₁, hr₁⟩ := runSeq_cons_one hcall (readsOne_opt _) hkids
    obtain ⟨t₂, r₂, _, rfl, -, h₂, hr₂⟩ := runSeq_cons_one hcall (readsOne_opt _) h₁
    obtain ⟨t₃, r₃, _, rfl, -, h₃, hr₃⟩ := runSeq_cons_one hcall (readsOne_opt _) h₂
    obtain ⟨t₄, r₄, _, rfl, -, h₄, hr₄⟩ := runSeq_cons_one hcall (readsOne_opt _) h₃
    obtain ⟨t₅, r₅, _, rfl, -, h₅, hr₅⟩ := runSeq_cons_one hcall (readsOne_word _) h₄
    have htail : r₅ <:+ ts := hr₅.trans (hr₄.trans (hr₃.trans (hr₂.trans hr₁)))
    obtain ⟨t₆, r₆, more, rfl, hname, -, -⟩ := runSeq_cons_one hcall readsOne_ident h₅
    obtain ⟨i, rfl, hi, heq⟩ := run_ident hname
    obtain rfl := List.singleton_injective heq
    exact ⟨_, i, rfl, rfl, hi, htail.subset List.mem_cons_self⟩

theorem name_of_item (h : parse rules n .item ts = some (trees, rest))
    {attrs visibility default block : Tree} {sig : List Tree}
    (hmem : .node .fnItem [attrs, visibility, default, .node .sig sig, block] ∈ trees) :
    ∃ i, sig.getD 5 (.list []) = .leaf [.ident i] ∧ isIdentifier i = true ∧ .ident i ∈ ts := by
  cases n with
  | zero => cases h
  | succ n =>
    have hnode : ∀ {k : Kind} {p : Peg Rule}, k ≠ .fnItem →
        run (parse rules n) (node k p) ts ≠ some (trees, rest) := by
      intro k p hk hrun
      obtain ⟨kids, -, rfl⟩ := run_node.1 hrun
      simp only [List.mem_singleton, Tree.node.injEq] at hmem
      exact hk hmem.1.symm
    rw [parse_succ, rules, item, run] at h
    obtain ⟨p, hp, hrun⟩ := exists_of_runAlt h
    have hfn : p = fnItem (list nothing) := by
      have hloose : run (parse rules n) looseItem ts ≠ some (trees, rest) := by
        intro hrun
        rw [looseItem, run] at hrun
        obtain ⟨q, hq, hrun⟩ := exists_of_runAlt hrun
        simp only [List.mem_cons, List.not_mem_nil, or_false] at hq
        rcases hq with rfl | rfl | rfl | rfl | rfl | rfl
        all_goals exact hnode (by decide) hrun
      by_cases hp' : p = looseItem
      · exact absurd (hp' ▸ hrun) hloose
      · simp only [List.mem_cons, List.not_mem_nil, hp', false_or, or_false] at hp
        rcases hp with rfl | rfl | rfl | rfl | rfl | rfl | rfl | rfl | rfl | rfl | rfl | rfl | rfl |
          rfl | rfl | rfl | rfl | rfl
        case inr.inl => rfl
        all_goals exact absurd hrun (hnode (by decide))
    rw [hfn, fnItem] at hrun
    obtain ⟨kids, hkids, rfl⟩ := run_node.1 hrun
    rw [run] at hkids
    have hcall := parse_leavesTail rules n
    obtain ⟨t₁, r₁, _, rfl, -, h₁, hr₁⟩ := runSeq_cons_one hcall (readsOne_many _) hkids
    obtain ⟨t₂, r₂, _, rfl, -, h₂, hr₂⟩ := runSeq_cons_one hcall (readsOne_call rfl) h₁
    obtain ⟨t₃, r₃, _, rfl, -, h₃, hr₃⟩ := runSeq_cons_one hcall (readsOne_list _) h₂
    obtain ⟨t₄, r₄, _, rfl, hsig, -, -⟩ := runSeq_cons_one hcall (readsOne_call rfl) h₃
    rw [run] at hsig
    obtain ⟨kids, i, heq, hi, hident, hts⟩ := name_of_signature hsig
    obtain rfl := List.singleton_injective heq
    simp only [List.mem_singleton, Tree.node.injEq, List.cons.injEq, true_and] at hmem
    obtain ⟨-, -, -, rfl, -⟩ := hmem
    exact ⟨i, hi, hident, (hr₃.trans (hr₂.trans hr₁)).subset hts⟩

theorem mem_rounds {p : Parser} {t : Tree} (hp : p.LeavesTail)
    (h : t ∈ (rounds p n ts).1) :
    ∃ ts' trees rest, ts' <:+ ts ∧ p ts' = some (trees, rest) ∧ t ∈ trees := by
  induction n generalizing ts with
  | zero => cases h
  | succ n ih =>
    rw [rounds] at h
    split at h
    · rename_i trees rest hread
      split at h
      · obtain h | h := List.mem_append.1 h
        · exact ⟨ts, trees, rest, List.suffix_refl _, hread, h⟩
        · obtain ⟨ts', trees', rest', hts', hread', h⟩ := ih h
          exact ⟨ts', trees', rest', hts'.trans (hp ts trees rest hread), hread', h⟩
      · cases h
    · cases h

/-- Every function of a file has an identifier of the file's text as its name. -/
theorem name_of_file {source : String} {inner : Tree} {items : List Tree}
    (h : Fragment.file? source = some (.node .file [inner, .list items]))
    {attrs visibility default block : Tree} {sig : List Tree}
    (hmem : .node .fnItem [attrs, visibility, default, .node .sig sig, block] ∈ items) :
    ∃ i, sig.getD 5 (.list []) = .leaf [.ident i] ∧ isIdentifier i = true ∧ Lexer.Spelled i := by
  rw [Fragment.file?, Fragment.read?] at h
  obtain ⟨ts, hts, h⟩ := Option.bind_eq_some_iff.1 h
  rw [parseAll] at h
  split at h
  · rename_i tree hparse
    obtain rfl := Option.some.inj h
    generalize 64 * (Token.sizeAll ts + 2) = n at hparse
    cases n with
    | zero => cases hparse
    | succ n =>
      rw [parse_succ, rules, file] at hparse
      obtain ⟨kids, hkids, heq⟩ := run_node.1 hparse
      rw [run] at hkids
      have hcall := parse_leavesTail rules n
      obtain ⟨t₁, r₁, _, rfl, -, h₁, hr₁⟩ := runSeq_cons_one hcall (readsOne_many _) hkids
      obtain ⟨t₂, r₂, _, rfl, hmany, -, -⟩ := runSeq_cons_one hcall (readsOne_many _) h₁
      rw [run] at hmany
      cases heq
      obtain ⟨hitems, -⟩ := Prod.mk.inj (Option.some.inj hmany)
      obtain rfl := Tree.list.inj (List.singleton_injective hitems)
      obtain ⟨ts', trees, rest, hts', hread, hmem⟩ :=
        mem_rounds (run_leavesTail hcall (call .item)) hmem
      rw [run] at hread
      obtain ⟨i, hi, hident, hin⟩ := name_of_item hread hmem
      exact ⟨i, hi, hident, Lexer.spelled_of_tokens? hts i ((hts'.trans hr₁).subset hin)⟩
  · cases h

end Grammar

end Statechart.Target
