import Mathlib.Data.List.Perm.Subperm
import Mathlib.Logic.Relation
import Statechart.Proofs.Validation.Accounting

/-!
Ancestors.

A way up that ends is the list of a state and its ancestors, the nearest first, and then the state
is on no cycle. In a settled chart a way up can only fail to end, and one with more steps than there
are states has met a name twice.
-/
set_option autoImplicit false

namespace Statechart

namespace Chart

def Parent (c : Chart) (name parent : String) : Prop :=
  ∃ s, c.state? name = some s ∧ s.parent = some parent

def EnabledParent (c : Chart) (name parent : String) : Prop :=
  ∃ s, c.enabledState? name = some s ∧ s.parent = some parent

theorem EnabledParent.parent {c : Chart} {name parent : String} (h : c.EnabledParent name parent) :
    c.Parent name parent := by
  obtain ⟨s, hs, hp⟩ := h
  exact ⟨s, (enabledState?_eq_some.1 hs).1, hp⟩

theorem Parent.unique {c : Chart} {name p q : String} (hp : c.Parent name p)
    (hq : c.Parent name q) : p = q := by
  obtain ⟨s, hs, hp⟩ := hp
  obtain ⟨t, ht, hq⟩ := hq
  rw [hs, Option.some.injEq] at ht
  rw [← ht, hp, Option.some.injEq] at hq
  exact hq

theorem state?_eq_none {c : Chart} {name : String} :
    c.state? name = none ↔ ∀ s ∈ c.states, s.name ≠ name := by
  simp [state?]

end Chart

namespace Validation

open Relation

inductive Ascent (c : Chart) : String → List String → Prop where
  | top {name : String} {s : State} : c.state? name = some s → s.parent = none →
      Ascent c name [name]
  | up {name parent : String} {names : List String} : c.Parent name parent →
      Ascent c parent names → Ascent c name (name :: names)

theorem ancestryFrom_ascent {c : Chart} {name current : String} {steps : Nat}
    {names up : List String} (h : ancestryFrom c name steps names current = .ok (.complete up)) :
    ∃ rest, up = names ++ rest ∧ Ascent c current rest := by
  induction steps generalizing names current with
  | zero =>
    rw [ancestryFrom] at h
    cases hs : c.state? current with
    | none => simp [hs] at h
    | some s => cases hd : s.disabled <;> simp [hs, hd] at h
  | succ steps ih =>
    rw [ancestryFrom] at h
    cases hs : c.state? current with
    | none => simp [hs] at h
    | some s =>
      obtain ⟨-, rfl⟩ := Chart.mem_of_state? hs
      cases hd : s.disabled with
      | true => simp [hs, hd] at h
      | false =>
        cases hp : s.parent with
        | none =>
          simp only [hs, hd, hp, Bool.false_eq_true, if_false, Except.ok.injEq,
            Ancestry.complete.injEq] at h
          exact ⟨[s.name], h.symm, .top hs hp⟩
        | some parent =>
          simp only [hs, hd, hp, Bool.false_eq_true, if_false] at h
          obtain ⟨rest, rfl, hrest⟩ := ih h
          exact ⟨s.name :: rest, by simp, .up ⟨s, hs, hp⟩ hrest⟩

theorem ascent_of_ancestry {c : Chart} {name : String} {up : List String}
    (h : ancestry c name = .ok (.complete up)) : Ascent c name up := by
  obtain ⟨rest, rfl, hrest⟩ := ancestryFrom_ascent h
  exact hrest

namespace Ascent

variable {c : Chart} {name : String} {names : List String}

theorem mem_iff (h : Ascent c name names) {a : String} :
    a ∈ names ↔ ReflTransGen c.Parent name a := by
  induction h with
  | @top name s hs hp =>
    rw [List.mem_singleton]
    constructor
    · intro ha
      rw [ha]
    · intro hup
      rcases hup.cases_head with heq | ⟨parent, ⟨t, ht, hq⟩, -⟩
      · exact heq.symm
      · rw [hs, Option.some.injEq] at ht
        simp [← ht, hp] at hq
  | @up name parent names hp _ ih =>
    rw [List.mem_cons, ih]
    constructor
    · intro ha
      rcases ha with rfl | ha
      · exact .refl
      · exact .head hp ha
    · intro hup
      rcases hup.cases_head with heq | ⟨q, hq, hrest⟩
      · exact .inl heq.symm
      · exact .inr (hp.unique hq ▸ hrest)

theorem mem_drop_one_iff (h : Ascent c name names) {a : String} :
    a ∈ names.drop 1 ↔ TransGen c.Parent name a := by
  cases h with
  | @top _ s hs hp =>
    have hnone : ¬ TransGen c.Parent name a := by
      intro hup
      obtain ⟨parent, ⟨t, ht, hq⟩, -⟩ := TransGen.head'_iff.1 hup
      rw [hs, Option.some.injEq] at ht
      simp [← ht, hp] at hq
    simpa using hnone
  | @up _ parent rest hp hrest =>
    rw [List.drop_one, List.tail_cons, hrest.mem_iff, TransGen.head'_iff]
    constructor
    · intro ha
      exact ⟨parent, hp, ha⟩
    · intro ha
      obtain ⟨q, hq, ha⟩ := ha
      exact hp.unique hq ▸ ha

theorem not_cycle (h : Ascent c name names) : ¬ TransGen c.Parent name name := by
  induction h with
  | @top name s hs hp =>
    intro hcycle
    obtain ⟨parent, ⟨t, ht, hq⟩, -⟩ := TransGen.head'_iff.1 hcycle
    rw [hs, Option.some.injEq] at ht
    simp [← ht, hp] at hq
  | @up name parent names hp _ ih =>
    intro hcycle
    obtain ⟨q, hq, hrest⟩ := TransGen.head'_iff.1 hcycle
    obtain rfl := hp.unique hq
    exact ih (TransGen.tail' hrest hp)

theorem of_mem (h : Ascent c name names) {a : String} (ha : a ∈ names) :
    ∃ rest, Ascent c a rest := by
  induction h with
  | @top name s hs hp =>
    obtain rfl := List.mem_singleton.1 ha
    exact ⟨_, .top hs hp⟩
  | @up name parent names hp hrest ih =>
    rcases List.mem_cons.1 ha with rfl | ha
    · exact ⟨_, .up hp hrest⟩
    · exact ih ha

theorem pairwise (h : Ascent c name names) : names.Pairwise (TransGen c.Parent) := by
  induction h with
  | top => simp
  | @up name parent names hp hrest ih =>
    refine List.pairwise_cons.2 ⟨?_, ih⟩
    intro a ha
    exact TransGen.head' hp (hrest.mem_iff.1 ha)

end Ascent

/-- A chain of more names than there are has one twice. -/
theorem exists_cycle_of_chain {r : String → String → Prop} {chain names : List String}
    (hchain : chain.IsChain r) (hsub : chain ⊆ names) (hlen : names.length < chain.length) :
    ∃ n, TransGen r n n := by
  by_contra hnone
  have hpair : chain.Pairwise (TransGen r) := (hchain.imp fun _ _ h => TransGen.single h).pairwise
  have hnodup : chain.Nodup := by
    refine hpair.imp ?_
    intro a b hab heq
    exact hnone ⟨a, heq ▸ hab⟩
  have hle := (List.subperm_of_subset hnodup hsub).length_le
  omega

/-- Where the way up is refused in a settled chart, it was as long as it may be. -/
theorem ancestryFrom_error {c : Chart} (hc : Settled c) {name current : String} {steps : Nat}
    {names : List String} {s : State} {e : Error} (hs : c.enabledState? current = some s)
    (h : ancestryFrom c name steps names current = .error e) :
    e = .parentCycle name ∧ ∃ rest, rest.length = steps ∧
      (current :: rest).IsChain c.EnabledParent ∧ current :: rest ⊆ c.states.map State.name := by
  induction steps generalizing names current s with
  | zero =>
    obtain ⟨hfound, he⟩ := Chart.enabledState?_eq_some.1 hs
    obtain ⟨hmem, rfl⟩ := Chart.mem_of_state? hfound
    rw [ancestryFrom] at h
    simp only [hfound, he, Bool.false_eq_true, if_false, Except.error.injEq] at h
    refine ⟨h.symm, [], rfl, by simp, ?_⟩
    simpa using ⟨s, hmem, rfl⟩
  | succ steps ih =>
    obtain ⟨hfound, he⟩ := Chart.enabledState?_eq_some.1 hs
    obtain ⟨hmem, rfl⟩ := Chart.mem_of_state? hfound
    rw [ancestryFrom] at h
    cases hp : s.parent with
    | none => simp [hfound, he, hp] at h
    | some parent =>
      simp only [hfound, he, hp, Bool.false_eq_true, if_false] at h
      obtain ⟨p, hq⟩ := hc s (Chart.mem_enabledStates.2 ⟨hmem, he⟩) parent hp
      obtain ⟨rfl, rest, hlen, hchain, hsub⟩ := ih hq h
      refine ⟨rfl, parent :: rest, by simp [hlen], ?_, ?_⟩
      · exact List.isChain_cons_cons.2 ⟨⟨s, hs, hp⟩, hchain⟩
      · exact List.cons_subset.2 ⟨List.mem_map_of_mem hmem, hsub⟩

def Cyclic (c : Chart) : Prop :=
  ∃ name, TransGen c.EnabledParent name name

theorem ancestry_error {c : Chart} (hc : Settled c) {name : String} {s : State} {e : Error}
    (hs : c.enabledState? name = some s) (h : ancestry c name = .error e) :
    e = .parentCycle name ∧ Cyclic c := by
  obtain ⟨he, rest, hlen, hchain, hsub⟩ := ancestryFrom_error hc hs h
  refine ⟨he, exists_cycle_of_chain hchain hsub ?_⟩
  simp only [List.length_map, List.length_cons]
  omega

/-- In a settled chart the ways up end where there is no cycle. -/
theorem ancestry_ok_iff {c : Chart} (hc : Settled c) :
    (∀ s ∈ c.enabledStates, ∃ a, ancestry c s.name = .ok a) ↔ ¬ Cyclic c := by
  constructor
  · intro hall hcyclic
    obtain ⟨name, hcycle⟩ := hcyclic
    obtain ⟨parent, ⟨s, hs, hp⟩, -⟩ := TransGen.head'_iff.1 hcycle
    obtain ⟨hfound, he⟩ := Chart.enabledState?_eq_some.1 hs
    obtain ⟨hmem, rfl⟩ := Chart.mem_of_state? hfound
    obtain ⟨a, ha⟩ := hall s (Chart.mem_enabledStates.2 ⟨hmem, he⟩)
    obtain ⟨up, rfl⟩ := ancestryFrom_complete hc hs ha
    have hcycle : TransGen c.Parent s.name s.name :=
      TransGen.mono (fun _ _ h => Chart.EnabledParent.parent h) _ _ hcycle
    exact (ascent_of_ancestry ha).not_cycle hcycle
  · intro hnone s hs
    cases ha : ancestry c s.name with
    | ok a => exact ⟨a, rfl⟩
    | error e =>
      -- a disabled state of this name would have ended the way up at once
      have hsome : ∃ t, c.enabledState? s.name = some t := by
        cases hfound : c.state? s.name with
        | none =>
          obtain ⟨hmem, -⟩ := Chart.mem_enabledStates.1 hs
          exact absurd rfl (Chart.state?_eq_none.1 hfound s hmem)
        | some t =>
          cases hd : t.disabled with
          | false => exact ⟨t, Chart.enabledState?_eq_some.2 ⟨hfound, hd⟩⟩
          | true =>
            rw [ancestry, ancestryFrom] at ha
            simp [hfound, hd] at ha
      obtain ⟨t, ht⟩ := hsome
      exact absurd (ancestry_error hc ht ha).2 hnone

end Validation

end Statechart
