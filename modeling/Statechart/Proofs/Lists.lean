import Mathlib.Data.List.Forall2
import Mathlib.Data.List.Induction
import Mathlib.Data.List.Nodup

/-!
Lists that are added to at their end, lists that differ at one place, lists with distinct keys,
lists that go together and pairs of members.
-/
set_option autoImplicit false

namespace Statechart

variable {α : Type}

/-- A place in a list that was added to is the new one or an old one. -/
theorem snoc_eq_append_cons {as before after : List α} {x a : α} :
    as ++ [x] = before ++ a :: after ↔
      (after = [] ∧ as = before ∧ x = a) ∨
        ∃ rest, after = rest ++ [x] ∧ as = before ++ a :: rest := by
  constructor
  · intro h
    rcases List.eq_nil_or_concat after with rfl | ⟨rest, y, rfl⟩
    · obtain ⟨rfl, rfl⟩ : as = before ∧ x = a := by simpa using h
      exact .inl ⟨rfl, rfl, rfl⟩
    · rw [List.concat_eq_append, ← List.cons_append, ← List.append_assoc] at h
      obtain ⟨has, hy⟩ := List.append_inj' h rfl
      obtain rfl : x = y := by simpa using hy
      exact .inr ⟨rest, by simp, has⟩
  · rintro (⟨rfl, rfl, rfl⟩ | ⟨rest, rfl, rfl⟩) <;> simp

theorem append_eq_append_cons {as bs before after : List α} {a : α} :
    as ++ bs = before ++ a :: after ↔
      (∃ rest, as = before ++ a :: rest ∧ after = rest ++ bs) ∨
        ∃ rest, before = as ++ rest ∧ bs = rest ++ a :: after := by
  constructor
  · intro h
    rcases List.append_eq_append_iff.1 h with ⟨rest, rfl, hbs⟩ | ⟨rest, rfl, hrest⟩
    · exact .inr ⟨rest, rfl, hbs⟩
    · cases rest with
      | nil => exact .inr ⟨[], by simp, hrest.symm⟩
      | cons x rest =>
        obtain ⟨rfl, rfl⟩ := List.cons_eq_cons.1 hrest
        exact .inl ⟨rest, rfl, rfl⟩
  · rintro (⟨rest, rfl, rfl⟩ | ⟨rest, rfl, rfl⟩) <;> simp

section

variable {as as' before after before' after' : List α} {x x' y y' : α}

theorem place_le (hx : as = before ++ x :: after) (hx' : as' = before ++ x' :: after) (hne : x ≠ x')
    (hy : as = before' ++ y :: after') (hy' : as' = before' ++ y' :: after') :
    before'.length ≤ before.length := by
  by_contra hlt
  have hold : as[before.length]? = some x := by simp [hx]
  have hnew : as'[before.length]? = some x' := by simp [hx']
  rw [hy, List.getElem?_append_left (by omega)] at hold
  rw [hy', List.getElem?_append_left (by omega)] at hnew
  exact hne (Option.some.inj (hold.symm.trans hnew))

/-- Two lists that differ at one place differ at no other. -/
theorem place_unique (hx : as = before ++ x :: after) (hx' : as' = before ++ x' :: after)
    (hne : x ≠ x') (hy : as = before' ++ y :: after') (hy' : as' = before' ++ y' :: after')
    (hne' : y ≠ y') : x = y ∧ x' = y' := by
  have hlength : before.length = before'.length :=
    Nat.le_antisymm (place_le hy hy' hne' hx hx') (place_le hx hx' hne hy hy')
  obtain ⟨-, hold⟩ := List.append_inj (hx.symm.trans hy) hlength
  obtain ⟨-, hnew⟩ := List.append_inj (hx'.symm.trans hy') hlength
  exact ⟨(List.cons.inj hold).1, (List.cons.inj hnew).1⟩

end

theorem not_mem_of_nodup_map {α β : Type} {f : α → β} {as bs : List α} {a : α}
    (h : ((as ++ a :: bs).map f).Nodup) : f a ∉ as.map f := by
  rw [List.map_append, List.map_cons, List.nodup_append] at h
  intro hmem
  exact h.2.2 _ hmem _ List.mem_cons_self rfl

theorem filter_eq_singleton {β : Type} [DecidableEq β] {f : α → β} {as : List α}
    (h : (as.map f).Nodup) {a : α} (ha : a ∈ as) : as.filter (fun x => f x = f a) = [a] := by
  induction as with
  | nil => simp at ha
  | cons x as ih =>
    obtain ⟨hx, has⟩ := List.nodup_cons.1 h
    rcases List.mem_cons.1 ha with rfl | ha
    · rw [List.filter_cons_of_pos (by simp), List.filter_eq_nil_iff.2]
      intro b hb heq
      exact hx (List.mem_map.2 ⟨b, hb, of_decide_eq_true heq⟩)
    · have hne : f x ≠ f a := fun heq => hx (heq ▸ List.mem_map_of_mem ha)
      rw [List.filter_cons_of_neg (by simpa using hne), ih has ha]

theorem find?_key_eq_some {β : Type} [BEq β] [LawfulBEq β] {key : α → β} {as : List α}
    (h : (as.map key).Nodup) {k : β} {a : α} :
    as.find? (key · == k) = some a ↔ a ∈ as ∧ key a = k := by
  constructor
  · intro hfound
    exact ⟨List.mem_of_find?_eq_some hfound, by simpa using List.find?_some hfound⟩
  · rintro ⟨ha, rfl⟩
    have hsome : (as.find? (key · == key a)).isSome = true :=
      List.find?_isSome.2 ⟨a, ha, beq_self_eq_true (key a)⟩
    obtain ⟨b, hb⟩ := Option.isSome_iff_exists.1 hsome
    have hkey : key b = key a := by simpa using List.find?_some hb
    rw [hb, List.inj_on_of_nodup_map h (List.mem_of_find?_eq_some hb) ha hkey]

theorem forall₂_exists_right {β : Type} {R : α → β → Prop} {as : List α} {bs : List β}
    (h : List.Forall₂ R as bs) {a : α} (ha : a ∈ as) : ∃ b ∈ bs, R a b := by
  induction h with
  | nil => simp at ha
  | @cons x y as bs hxy _ ih =>
    rcases List.mem_cons.1 ha with rfl | ha
    · exact ⟨y, by simp, hxy⟩
    · obtain ⟨b, hb, hab⟩ := ih ha
      exact ⟨b, by simp [hb], hab⟩

theorem forall₂_exists_left {β : Type} {R : α → β → Prop} {as : List α} {bs : List β}
    (h : List.Forall₂ R as bs) {b : β} (hb : b ∈ bs) : ∃ a ∈ as, R a b :=
  forall₂_exists_right (List.Forall₂.flip (R := flip R) h) hb

theorem forall₂_comp {β γ : Type} {R : α → β → Prop} {S : β → γ → Prop} {T : α → γ → Prop}
    {as : List α} {bs : List β} {cs : List γ} (hR : List.Forall₂ R as bs)
    (hS : List.Forall₂ S bs cs) (hT : ∀ {a b c}, R a b → S b c → T a c) :
    List.Forall₂ T as cs := by
  induction hR generalizing cs with
  | nil =>
    cases hS
    exact .nil
  | cons hab _ ih =>
    cases hS with
    | cons hbc hrest => exact .cons (hT hab hbc) (ih hrest)

theorem forall₂_map_eq {β γ : Type} {R : α → β → Prop} {f : α → γ} {g : β → γ} {as : List α}
    {bs : List β} (h : List.Forall₂ R as bs) (hfg : ∀ {a b}, R a b → g b = f a) :
    bs.map g = as.map f := by
  induction h with
  | nil => rfl
  | cons hab _ ih => simp [ih, hfg hab]

theorem forall₂_map_find? {β γ : Type} {R : α → β → Prop} {as : List α} {bs : List β}
    (h : List.Forall₂ R as bs) {p : α → Bool} {q : β → Bool} (hpq : ∀ {a b}, R a b → q b = p a)
    {f : α → γ} {g : β → γ} (hfg : ∀ {a b}, R a b → g b = f a) :
    (bs.find? q).map g = (as.find? p).map f := by
  induction h with
  | nil => rfl
  | @cons a b as bs hab _ ih =>
    rw [List.find?_cons, List.find?_cons, hpq hab]
    cases p a with
    | true => simp [hfg hab]
    | false => exact ih

theorem forall₂_append_left {β : Type} {R : α → β → Prop} {as as' : List α} {bs : List β} :
    List.Forall₂ R (as ++ as') bs ↔
      ∃ ds es, bs = ds ++ es ∧ List.Forall₂ R as ds ∧ List.Forall₂ R as' es := by
  constructor
  · intro h
    induction as generalizing bs with
    | nil => exact ⟨[], bs, rfl, .nil, h⟩
    | cons a as ih =>
      cases h with
      | cons hab hrest =>
        obtain ⟨ds, es, rfl, hds, hes⟩ := ih hrest
        exact ⟨_ :: ds, es, rfl, .cons hab hds, hes⟩
  · intro h
    obtain ⟨ds, es, rfl, hds, hes⟩ := h
    exact List.rel_append hds hes

theorem forall₂_append_cons_left {β : Type} {R : α → β → Prop} {as as' : List α} {a : α}
    {bs : List β} (h : List.Forall₂ R (as ++ a :: as') bs) :
    ∃ ds b es, bs = ds ++ b :: es ∧ List.Forall₂ R as ds ∧ R a b ∧ List.Forall₂ R as' es := by
  obtain ⟨ds, _, rfl, hds, hrest⟩ := forall₂_append_left.1 h
  cases hrest with
  | cons hab hes => exact ⟨ds, _, _, rfl, hds, hab, hes⟩

theorem forall₂_append_cons_right {β : Type} {R : α → β → Prop} {as : List α} {bs bs' : List β}
    {b : β} (h : List.Forall₂ R as (bs ++ b :: bs')) :
    ∃ ds a es, as = ds ++ a :: es ∧ List.Forall₂ R ds bs ∧ R a b ∧ List.Forall₂ R es bs' := by
  obtain ⟨ds, a, es, rfl, hds, hab, hes⟩ :=
    forall₂_append_cons_left (List.Forall₂.flip (R := flip R) h)
  exact ⟨ds, a, es, rfl, hds.flip, hab, hes.flip⟩

theorem pair_sublist_iff {as : List α} {a b : α} :
    [a, b].Sublist as ↔ ∃ i j : Nat, i < j ∧ as[i]? = some a ∧ as[j]? = some b := by
  constructor
  · intro h
    obtain ⟨before, after, rfl, ha, hb⟩ := List.cons_sublist_iff.1 h
    obtain ⟨i, hi, rfl⟩ := List.getElem_of_mem ha
    obtain ⟨j, hj, rfl⟩ := List.getElem_of_mem (List.singleton_sublist.1 hb)
    refine ⟨i, before.length + j, by omega, ?_, ?_⟩
    · rw [List.getElem?_append_left hi, List.getElem?_eq_getElem hi]
    · rw [List.getElem?_append_right (by omega), Nat.add_sub_cancel_left,
        List.getElem?_eq_getElem hj]
  · rintro ⟨i, j, hij, hi, hj⟩
    have hb : b ∈ as.drop (i + 1) :=
      List.mem_of_getElem? (i := j - (i + 1)) (by
        rw [List.getElem?_drop, ← hj]
        congr 1
        omega)
    have ha : a ∈ as.take (i + 1) :=
      List.mem_of_getElem? (i := i) (by rw [List.getElem?_take_of_lt (by omega), hi])
    exact List.cons_sublist_iff.2
      ⟨as.take (i + 1), as.drop (i + 1), by simp, ha, List.singleton_sublist.2 hb⟩

theorem pair_sublist_of_perm {as bs : List α} (h : as.Perm bs) {a b : α}
    (hab : [a, b].Sublist as) : [a, b].Sublist bs ∨ [b, a].Sublist bs := by
  by_contra hnot
  -- not to be these two is a symmetric relation
  have hbs : bs.Pairwise fun x y => ¬ (x = a ∧ y = b) ∧ ¬ (x = b ∧ y = a) := by
    rw [List.pairwise_iff_forall_sublist]
    intro x y hxy
    constructor
    · rintro ⟨rfl, rfl⟩
      exact hnot (.inl hxy)
    · rintro ⟨rfl, rfl⟩
      exact hnot (.inr hxy)
  have has := (h.pairwise_iff (by grind)).2 hbs
  exact (List.pairwise_iff_forall_sublist.1 has hab).1 ⟨rfl, rfl⟩

theorem pair_sublist_iff_append {as : List α} {a b : α} :
    [a, b].Sublist as ↔ ∃ before between after, as = before ++ a :: (between ++ b :: after) := by
  constructor
  · intro h
    obtain ⟨front, back, rfl, ha, hb⟩ := List.cons_sublist_iff.1 h
    obtain ⟨before, rest, rfl⟩ := List.append_of_mem ha
    obtain ⟨rest', after, rfl⟩ := List.append_of_mem (List.singleton_sublist.1 hb)
    exact ⟨before, rest ++ rest', after, by simp⟩
  · intro h
    obtain ⟨before, between, after, rfl⟩ := h
    have hb : [b].Sublist (between ++ b :: after) := List.singleton_sublist.2 (by simp)
    exact (hb.cons_cons a).trans (List.sublist_append_right _ _)

/-- In a list without repetitions two members have one order. -/
theorem not_pair_sublist_swap {as : List α} (h : as.Nodup) {a b : α} (hab : [a, b].Sublist as) :
    ¬ [b, a].Sublist as := by
  intro hba
  obtain ⟨i, j, hij, hi, hj⟩ := pair_sublist_iff.1 hab
  obtain ⟨k, l, hkl, hk, hl⟩ := pair_sublist_iff.1 hba
  obtain ⟨hlt, -⟩ := List.getElem?_eq_some_iff.1 hi
  obtain ⟨hlt', -⟩ := List.getElem?_eq_some_iff.1 hj
  have hil : i = l := (List.getElem?_inj hlt h).1 (hi.trans hl.symm)
  have hjk : j = k := (List.getElem?_inj hlt' h).1 (hj.trans hk.symm)
  omega

theorem pair_sublist_of_sublist {as bs : List α} (h : as.Nodup) (hsub : bs.Sublist as) {a b : α}
    (hab : [a, b].Sublist as) (ha : a ∈ bs) (hb : b ∈ bs) : [a, b].Sublist bs := by
  obtain ⟨before, after, rfl⟩ := List.append_of_mem ha
  have hne : b ≠ a := by
    rintro rfl
    exact not_pair_sublist_swap h hab hab
  rcases List.mem_append.1 hb with hb | hb
  · -- the other order would be one of the whole list
    have hba : [b, a].Sublist (before ++ a :: after) :=
      (List.singleton_sublist.2 hb).append (List.singleton_sublist.2 (by simp))
    exact absurd (hba.trans hsub) (not_pair_sublist_swap h hab)
  · have hb : b ∈ after := (List.mem_cons.1 hb).resolve_left hne
    exact ((List.singleton_sublist.2 hb).cons_cons a).trans (List.sublist_append_right _ _)

variable [BEq α] [LawfulBEq α]

theorem lookup_eq_some_iff_mem {β : Type} {ps : List (α × β)} (h : (ps.map Prod.fst).Nodup)
    {a : α} {b : β} : ps.lookup a = some b ↔ (a, b) ∈ ps := by
  induction ps with
  | nil => simp
  | cons p ps ih =>
    obtain ⟨hp, hps⟩ := List.nodup_cons.1 h
    rw [List.lookup_cons, List.mem_cons]
    by_cases ha : a = p.1
    · have hnone : (a, b) ∉ ps := fun hmem => hp (ha ▸ List.mem_map_of_mem hmem)
      simp only [ha, beq_self_eq_true, Option.some.injEq]
      subst ha
      simp [hnone, Prod.ext_iff, eq_comm]
    · have hne : (a == p.1) = false := by simpa using ha
      simp [hne, ih hps, Prod.ext_iff, ha]

theorem isSome_lookup {β : Type} {ps : List (α × β)} {a : α} :
    (ps.lookup a).isSome = true ↔ a ∈ ps.map Prod.fst := by
  induction ps with
  | nil => simp
  | cons p ps ih =>
    rw [List.lookup_cons, List.map_cons, List.mem_cons]
    by_cases ha : a = p.1
    · simp [ha]
    · have hne : (a == p.1) = false := by simpa using ha
      simp only [hne, ha, false_or]
      exact ih

theorem mem_of_lookup {β : Type} {ps : List (α × β)} {a : α} {b : β}
    (h : ps.lookup a = some b) : (a, b) ∈ ps := by
  obtain ⟨before, after, rfl, -⟩ := List.lookup_eq_some_iff.1 h
  simp

theorem forall₂_lookup {γ β : Type} {R : γ → α × β → Prop} {key : γ → α} {cs : List γ}
    {ps : List (α × β)} (h : List.Forall₂ R cs ps) (hkey : ∀ {c p}, R c p → p.1 = key c)
    (hcs : (cs.map key).Nodup) {c : γ} (hc : c ∈ cs) {b : β} (hb : ps.lookup (key c) = some b) :
    R c (key c, b) := by
  obtain ⟨c', hc', hR⟩ := forall₂_exists_left h (mem_of_lookup hb)
  obtain rfl : c' = c := List.inj_on_of_nodup_map hcs hc' hc (hkey hR).symm
  exact hR

theorem eraseDups_snoc_of_mem {as : List α} {a : α} (h : a ∈ as) :
    (as ++ [a]).eraseDups = as.eraseDups := by
  simp [List.eraseDups_append, List.removeAll, h]

theorem eraseDups_snoc_of_not_mem {as : List α} {a : α} (h : a ∉ as) :
    (as ++ [a]).eraseDups = as.eraseDups ++ [a] := by
  simp [List.eraseDups_append, List.removeAll, h, List.eraseDups_cons]

theorem nodup_eraseDups (as : List α) : as.eraseDups.Nodup := by
  induction as using List.reverseRecOn with
  | nil => simp
  | append_singleton as a ih =>
    by_cases h : a ∈ as
    · rw [eraseDups_snoc_of_mem h]
      exact ih
    · rw [eraseDups_snoc_of_not_mem h, List.nodup_append']
      refine ⟨ih, by simp, ?_⟩
      simpa [List.mem_eraseDups] using h

end Statechart
