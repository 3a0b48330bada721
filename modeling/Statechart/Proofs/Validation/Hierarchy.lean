import Statechart.Proofs.Lists
import Statechart.Proofs.Work
import Statechart.Validation.Hierarchy

/-!
Disabled states and the way up from enabled ones.

A round of the cascade disables states whose parent is disabled, and nothing else. Rounds are
repeated until one changes nothing; since every other round disables a state, that happens within
one round more than there are states. In a settled chart the way up from an enabled state never
meets a disabled one, so it ends at the top, or the chart is refused.
-/
set_option autoImplicit false

namespace Statechart

namespace Chart

theorem mem_of_state? {c : Chart} {name : String} {s : State} (h : c.state? name = some s) :
    s ∈ c.states ∧ s.name = name := by
  constructor
  · exact List.mem_of_find?_eq_some h
  · simpa using List.find?_some h

theorem state?_eq_some {c : Chart} (hd : (c.states.map State.name).Nodup) {s : State}
    (hs : s ∈ c.states) : c.state? s.name = some s :=
  (find?_key_eq_some hd).2 ⟨hs, rfl⟩

theorem mem_enabledStates {c : Chart} {s : State} :
    s ∈ c.enabledStates ↔ s ∈ c.states ∧ s.disabled = false := by
  simp [enabledStates]

theorem enabledState?_eq_some {c : Chart} {name : String} {s : State} :
    c.enabledState? name = some s ↔ c.state? name = some s ∧ s.disabled = false := by
  simp [enabledState?, Option.filter_eq_some_iff]

end Chart

namespace Validation

def Disabling (before after : List State) : Prop :=
  List.Forall₂ (fun s s' => s' = s ∨ s' = { s with disabled := true }) before after

theorem Disabling.refl (states : List State) : Disabling states states :=
  List.forall₂_same.2 fun _ _ => .inl rfl

theorem Disabling.trans {a b c : List State} (h₁ : Disabling a b) (h₂ : Disabling b c) :
    Disabling a c := by
  induction h₁ generalizing c with
  | nil => exact h₂
  | cons hs _ ih =>
    cases h₂ with
    | cons ht hrest =>
      refine .cons ?_ (ih hrest)
      rcases hs with rfl | rfl
      · exact ht
      · rcases ht with rfl | rfl
        · exact .inr rfl
        · exact .inr rfl

theorem Disabling.names_eq {a b : List State} (h : Disabling a b) :
    b.map State.name = a.map State.name := by
  induction h with
  | nil => rfl
  | cons hs _ ih =>
    rcases hs with rfl | rfl
    · simp [ih]
    · simp [ih]

theorem Disabling.modify (states : List State) (i : Nat) :
    Disabling states (states.modify i fun s => { s with disabled := true }) := by
  induction states generalizing i with
  | nil => simp [Disabling]
  | cons s ss ih =>
    cases i with
    | zero => exact .cons (.inr rfl) (Disabling.refl ss)
    | succ i => exact .cons (.inl rfl) (ih i)

def enabledCount (states : List State) : Nat :=
  states.countP (!·.disabled)

theorem enabledCount_lt (states : List State) : enabledCount states < states.length + 1 :=
  Nat.lt_succ_of_le List.countP_le_length

theorem Disabling.enabledCount_le {a b : List State} (h : Disabling a b) :
    enabledCount b ≤ enabledCount a := by
  induction h with
  | nil => exact Nat.le_refl _
  | @cons s s' ss ss' hs _ ih =>
    simp only [enabledCount, List.countP_cons] at ih ⊢
    rcases hs with rfl | rfl
    · omega
    · simp only [Bool.not_true, Bool.false_eq_true, if_false]
      omega

theorem enabledCount_modify_lt {states : List State} {i : Nat} {s : State}
    (hs : states[i]? = some s) (he : s.disabled = false) :
    enabledCount (states.modify i fun s => { s with disabled := true }) < enabledCount states := by
  induction states generalizing i with
  | nil => simp at hs
  | cons t ts ih =>
    cases i with
    | zero =>
      simp only [List.getElem?_cons_zero, Option.some.injEq] at hs
      subst hs
      simp [enabledCount, he]
    | succ i =>
      have h := ih (by simpa using hs)
      simp only [enabledCount, List.modify_succ_cons, List.countP_cons] at h ⊢
      omega

/-- The state at `i`, if it is enabled, has an enabled parent or none. -/
def SettledAt (c : Chart) (i : Nat) : Prop :=
  ∀ s, c.states[i]? = some s → s.disabled = false →
    ∀ parent, s.parent = some parent → ∃ p, c.enabledState? parent = some p

/-- No enabled state is below a disabled or unknown one. -/
def Settled (c : Chart) : Prop :=
  ∀ s ∈ c.enabledStates, ∀ parent, s.parent = some parent → ∃ p, c.enabledState? parent = some p

theorem settled_of_settledAt {c : Chart} (h : ∀ i ∈ List.range c.states.length, SettledAt c i) :
    Settled c := by
  intro s hs
  obtain ⟨hmem, he⟩ := Chart.mem_enabledStates.1 hs
  obtain ⟨i, hi, hget⟩ := List.getElem_of_mem hmem
  exact h i (List.mem_range.2 hi) s (by rw [← hget, List.getElem?_eq_getElem hi]) he

theorem Settled.settledAt {c : Chart} (h : Settled c) (i : Nat) : SettledAt c i := by
  intro s hs he
  exact h s (Chart.mem_enabledStates.2 ⟨List.mem_of_getElem? hs, he⟩)

inductive CascadeStep (c : Chart) (i : Nat) : Bool → Journal → Chart → Prop where
  | keep : SettledAt c i → CascadeStep c i false [] c
  | disable (s p : State) : c.states[i]? = some s → s.disabled = false →
      s.parent.bind c.state? = some p → p.disabled = true →
      CascadeStep c i true
        [.warning ⟨.cascadingDisable,
          s!"state {s.name} disabled because its parent {p.name} is disabled"⟩]
        (disableState i c)

theorem CascadeStep.of_yields {i : Nat} {c c' : Chart} {b : Bool} {j : Journal}
    (h : (cascadeAt i).Yields c b j c') : CascadeStep c i b j c' := by
  rw [cascadeAt, Work.yields_get_bind] at h
  cases hs : c.states[i]?.filter (!·.disabled) with
  | none =>
    simp only [hs, Work.yields_pure] at h
    obtain ⟨rfl, rfl, rfl⟩ := h
    refine .keep fun s hget he => ?_
    simp [hget, he] at hs
  | some s =>
    obtain ⟨hget, he⟩ : c.states[i]? = some s ∧ s.disabled = false := by
      simpa [Option.filter_eq_some_iff] using hs
    cases hp : s.parent with
    | none =>
      simp only [hs, hp, Work.yields_pure] at h
      obtain ⟨rfl, rfl, rfl⟩ := h
      refine .keep fun t ht _ parent hparent => ?_
      rw [hget, Option.some.injEq] at ht
      simp [← ht, hp] at hparent
    | some parent =>
      cases hq : c.state? parent with
      | none => simp [hs, hp, hq] at h
      | some p =>
        by_cases hd : p.disabled = true
        · simp only [hs, hp, hq, hd, if_true, Work.yields_modify_bind, Work.yields_warn_bind,
            Work.yields_pure] at h
          obtain ⟨_, ⟨rfl, rfl, rfl⟩, rfl⟩ := h
          exact .disable s p hget he (by simp [hp, hq]) hd
        · simp only [hs, hp, hq, hd, Bool.false_eq_true, if_false, Work.yields_pure] at h
          obtain ⟨rfl, rfl, rfl⟩ := h
          refine .keep fun t ht _ other hother => ⟨p, ?_⟩
          rw [hget, Option.some.injEq] at ht
          rw [← ht, hp, Option.some.injEq] at hother
          rw [← hother, Chart.enabledState?_eq_some]
          exact ⟨hq, by simpa using hd⟩

theorem cascadeAt_yields_of_settledAt {i : Nat} {c : Chart} (h : SettledAt c i) :
    (cascadeAt i).Yields c false [] c := by
  rw [cascadeAt, Work.yields_get_bind]
  cases hs : c.states[i]?.filter (!·.disabled) with
  | none => simp
  | some s =>
    obtain ⟨hget, he⟩ : c.states[i]? = some s ∧ s.disabled = false := by
      simpa [Option.filter_eq_some_iff] using hs
    cases hp : s.parent with
    | none => simp [hp]
    | some parent =>
      obtain ⟨p, hq⟩ := h s hget he parent hp
      obtain ⟨hq, hd⟩ := Chart.enabledState?_eq_some.1 hq
      simp [hp, hq, hd]

/-- What a step of the cascade keeps: everything but flags of states, which are only set. -/
theorem CascadeStep.disabling {i : Nat} {c c' : Chart} {b : Bool} {j : Journal}
    (h : CascadeStep c i b j c') :
    Disabling c.states c'.states ∧ c' = { c with states := c'.states } := by
  cases h with
  | keep => exact ⟨Disabling.refl _, rfl⟩
  | disable => exact ⟨Disabling.modify _ _, rfl⟩

/-- A step that tells of a change disables a state, any other leaves the chart alone. -/
theorem CascadeStep.progress {i : Nat} {c c' : Chart} {b : Bool} {j : Journal}
    (h : CascadeStep c i b j c') :
    if b then enabledCount c'.states < enabledCount c.states
    else SettledAt c i ∧ j = [] ∧ c' = c := by
  cases h with
  | keep hset => exact ⟨hset, rfl, rfl⟩
  | disable s p hget he => exact enabledCount_modify_lt hget he

theorem round_run {R : Chart → Journal → Chart → Prop} (hrefl : ∀ c, R c [] c)
    (htrans : ∀ {c d e j k}, R c j d → R d k e → R c (j ++ k) e)
    (hstep : ∀ {c d i b j}, CascadeStep c i b j d → R c j d) {is : List Nat} {c c' : Chart}
    {bs : List Bool} {j : Journal} (h : (Work.collect cascadeAt is).Yields c bs j c') :
    R c j c' := by
  induction is generalizing c bs j with
  | nil =>
    obtain ⟨-, rfl, rfl⟩ := Work.yields_collect_nil.1 h
    exact hrefl _
  | cons i is ih =>
    obtain ⟨_, _, _, _, _, hone, hrest, -, rfl⟩ := Work.yields_collect_cons.1 h
    exact htrans (hstep (CascadeStep.of_yields hone)) (ih hrest)

def OnlyDisables (c : Chart) (_ : Journal) (d : Chart) : Prop :=
  Disabling c.states d.states ∧ d = { c with states := d.states }

theorem OnlyDisables.refl (c : Chart) : OnlyDisables c [] c :=
  ⟨Disabling.refl _, rfl⟩

theorem OnlyDisables.trans {c d e : Chart} {j k : Journal} (h₁ : OnlyDisables c j d)
    (h₂ : OnlyDisables d k e) : OnlyDisables c (j ++ k) e := by
  obtain ⟨hcd, hd⟩ := h₁
  obtain ⟨hde, he⟩ := h₂
  refine ⟨hcd.trans hde, ?_⟩
  rw [he, hd]

theorem round_disabling {is : List Nat} {c c' : Chart} {bs : List Bool} {j : Journal}
    (h : (Work.collect cascadeAt is).Yields c bs j c') :
    Disabling c.states c'.states ∧ c' = { c with states := c'.states } :=
  round_run OnlyDisables.refl OnlyDisables.trans CascadeStep.disabling h

theorem round_progress {is : List Nat} {c c' : Chart} {bs : List Bool} {j : Journal}
    (h : (Work.collect cascadeAt is).Yields c bs j c') :
    if bs.any id then enabledCount c'.states < enabledCount c.states
    else (∀ i ∈ is, SettledAt c i) ∧ j = [] ∧ c' = c := by
  induction is generalizing c bs j with
  | nil =>
    obtain ⟨rfl, rfl, rfl⟩ := Work.yields_collect_nil.1 h
    simp
  | cons i is ih =>
    obtain ⟨b, j₁, d, bs', j₂, hone, hrest, rfl, rfl⟩ := Work.yields_collect_cons.1 h
    have h₁ := (CascadeStep.of_yields hone).progress
    have h₂ := ih hrest
    have hle := (round_disabling hrest).1.enabledCount_le
    cases b with
    | true =>
      simp only [List.any_cons, id_eq, Bool.true_or, if_true] at h₁ ⊢
      omega
    | false =>
      simp only [Bool.false_eq_true, if_false] at h₁
      obtain ⟨hset, rfl, rfl⟩ := h₁
      simp only [List.any_cons, id_eq, Bool.false_or]
      split
      · rename_i hany
        simpa only [hany, if_true] using h₂
      · rename_i hany
        simp only [hany] at h₂
        obtain ⟨hall, rfl, rfl⟩ := h₂
        exact ⟨List.forall_mem_cons.2 ⟨hset, hall⟩, rfl, rfl⟩

theorem round_yields_of_settledAt {is : List Nat} {c : Chart} (h : ∀ i ∈ is, SettledAt c i) :
    (Work.collect cascadeAt is).Yields c (is.map fun _ => false) [] c := by
  induction is with
  | nil => simp
  | cons i is ih =>
    obtain ⟨hi, his⟩ := List.forall_mem_cons.1 h
    rw [Work.yields_collect_cons]
    exact ⟨false, [], c, _, [], cascadeAt_yields_of_settledAt hi, ih his, rfl, rfl⟩

theorem cascade_succ (rounds : Nat) :
    cascade (rounds + 1) =
      (Work.get >>= fun c =>
        Work.collect cascadeAt (List.range c.states.length) >>= fun changes =>
          if changes.any id then cascade rounds else pure ()) := rfl

theorem cascade_run {R : Chart → Journal → Chart → Prop} (hrefl : ∀ c, R c [] c)
    (htrans : ∀ {c d e j k}, R c j d → R d k e → R c (j ++ k) e)
    (hstep : ∀ {c d i b j}, CascadeStep c i b j d → R c j d) {rounds : Nat} {c c' : Chart}
    {u : Unit} {j : Journal} (h : (cascade rounds).Yields c u j c') : R c j c' := by
  induction rounds generalizing c j with
  | zero =>
    obtain ⟨-, rfl, rfl⟩ := Work.yields_pure.1 h
    exact hrefl _
  | succ rounds ih =>
    rw [cascade_succ, Work.yields_get_bind, Work.yields_bind] at h
    obtain ⟨_, _, _, _, hround, hnext, rfl⟩ := h
    refine htrans (round_run hrefl htrans hstep hround) ?_
    split at hnext
    · exact ih hnext
    · obtain ⟨-, rfl, rfl⟩ := Work.yields_pure.1 hnext
      exact hrefl _

theorem cascade_disabling {rounds : Nat} {c c' : Chart} {u : Unit} {j : Journal}
    (h : (cascade rounds).Yields c u j c') :
    Disabling c.states c'.states ∧ c' = { c with states := c'.states } :=
  cascade_run OnlyDisables.refl OnlyDisables.trans CascadeStep.disabling h

/-- With more rounds than enabled states, the last round changes nothing. -/
theorem cascade_settled {rounds : Nat} {c c' : Chart} {u : Unit} {j : Journal}
    (hr : enabledCount c.states < rounds) (h : (cascade rounds).Yields c u j c') : Settled c' := by
  induction rounds generalizing c j with
  | zero => omega
  | succ rounds ih =>
    rw [cascade_succ, Work.yields_get_bind, Work.yields_bind] at h
    obtain ⟨bs, j₁, d, j₂, hround, hnext, -⟩ := h
    have hp := round_progress hround
    split at hnext
    · rename_i hany
      simp only [hany, if_true] at hp
      exact ih (by omega) hnext
    · rename_i hany
      simp only [hany] at hp
      obtain ⟨hall, -, rfl⟩ := hp
      obtain ⟨-, -, rfl⟩ := Work.yields_pure.1 hnext
      exact settled_of_settledAt hall

theorem cascade_yields_of_settled {rounds : Nat} {c : Chart} (h : Settled c) :
    (cascade rounds).Yields c () [] c := by
  cases rounds with
  | zero => exact Work.yields_pure.2 ⟨rfl, rfl, rfl⟩
  | succ rounds =>
    rw [cascade_succ, Work.yields_get_bind, Work.yields_bind]
    refine ⟨_, _, _, [], round_yields_of_settledAt fun i _ => h.settledAt i, ?_, rfl⟩
    simp

/-- The parents of a state are declared and enabled, up to one without a parent. -/
inductive Rooted (c : Chart) : State → Prop where
  | top {s : State} : s.parent = none → Rooted c s
  | under {s p : State} : s.parent = some p.name → p ∈ c.states → p.disabled = false →
      Rooted c p → Rooted c s

theorem ancestryFrom_rooted {c : Chart} (hc : Settled c) {name current : String} {steps : Nat}
    {names : List String} {s : State} {a : Ancestry} (hs : c.enabledState? current = some s)
    (h : ancestryFrom c name steps names current = .ok a) : Rooted c s := by
  induction steps generalizing names current s with
  | zero =>
    obtain ⟨hs, he⟩ := Chart.enabledState?_eq_some.1 hs
    simp [ancestryFrom, hs, he] at h
  | succ steps ih =>
    have hmem : s ∈ c.enabledStates := by
      obtain ⟨hs, he⟩ := Chart.enabledState?_eq_some.1 hs
      exact Chart.mem_enabledStates.2 ⟨(Chart.mem_of_state? hs).1, he⟩
    obtain ⟨hfound, he⟩ := Chart.enabledState?_eq_some.1 hs
    cases hp : s.parent with
    | none => exact .top hp
    | some parent =>
      obtain ⟨p, hq⟩ := hc s hmem parent hp
      obtain ⟨hpfound, hpe⟩ := Chart.enabledState?_eq_some.1 hq
      obtain ⟨hpmem, hpname⟩ := Chart.mem_of_state? hpfound
      have hrest : ancestryFrom c name steps (names ++ [s.name]) parent = .ok a := by
        rw [ancestryFrom] at h
        simpa [hfound, he, hp] using h
      exact .under (by rw [hp, hpname]) hpmem hpe (ih hq hrest)

theorem verifyStateParents_yields {c c' : Chart} {u : Unit} {j : Journal} :
    verifyStateParents.Yields c u j c' ↔
      (cascade (c.states.length + 1)).Yields c () j c' ∧
        ∀ s ∈ c'.enabledStates, ∃ a, ancestry c' s.name = .ok a := by
  have hcheck : ∀ (d : Chart) (s : State) (j : Journal) (d' : Chart),
      (do let _ ← Work.ofExcept (ancestry d s.name) : Check Unit).Yields d () j d' ↔
        (∃ a, ancestry d s.name = .ok a) ∧ j = [] ∧ d' = d := by
    intro d s j d'
    rw [Work.yields_ofExcept_bind]
    simp only [Work.yields_pure, true_and, exists_and_right]
  rw [verifyStateParents, Work.yields_get_bind, Work.yields_bind]
  constructor
  · rintro ⟨_, j₁, d, j₂, hcascade, hrest, rfl⟩
    rw [Work.yields_get_bind, Work.yields_each_check (hcheck d)] at hrest
    obtain ⟨hall, rfl, rfl⟩ := hrest
    exact ⟨by simpa using hcascade, hall⟩
  · rintro ⟨hcascade, hall⟩
    refine ⟨(), j, c', [], hcascade, ?_, by simp⟩
    rw [Work.yields_get_bind, Work.yields_each_check (hcheck c')]
    exact ⟨hall, rfl, rfl⟩

/-- Where every way up ends and none meets a disabled state, all of them lead to the top. -/
theorem Settled.rooted {c : Chart} (hc : Settled c)
    (hup : ∀ s ∈ c.enabledStates, ∃ a, ancestry c s.name = .ok a) :
    ∀ s ∈ c.enabledStates, Rooted c s := by
  intro s hs
  cases hp : s.parent with
  | none => exact .top hp
  | some parent =>
    obtain ⟨p, hfound⟩ := hc s hs parent hp
    obtain ⟨hstate, he⟩ := Chart.enabledState?_eq_some.1 hfound
    obtain ⟨hmem, rfl⟩ := Chart.mem_of_state? hstate
    obtain ⟨a, ha⟩ := hup p (Chart.mem_enabledStates.2 ⟨hmem, he⟩)
    exact .under hp hmem he (ancestryFrom_rooted hc hfound ha)

theorem rooted_of_verified {b c : Chart} {u : Unit} {j : Journal}
    (h : verifyStateParents.Yields b u j c) : ∀ s ∈ c.enabledStates, Rooted c s := by
  obtain ⟨hcascade, hup⟩ := verifyStateParents_yields.1 h
  exact (cascade_settled (enabledCount_lt _) hcascade).rooted hup

end Validation

end Statechart
