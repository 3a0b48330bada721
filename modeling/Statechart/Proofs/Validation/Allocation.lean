import Mathlib.Data.List.Nodup
import Statechart.Proofs.Lists
import Statechart.Proofs.Validation.Events

/-!
Which identifiers the events of a chart are given.

Ranges are gone through in the order of their bases, each against the widest one before it. Among
ranges in this order a later one meets an earlier one exactly where it begins, so a range that does
not begin inside of the widest one meets none of those before. Hence the sweep finds two groups
with a common identifier if there are any, and no others.
-/
set_option autoImplicit false

namespace Statechart

namespace EventRange

def Meets (r s : EventRange) : Prop :=
  ∃ id, (r.base ≤ id ∧ id < r.stop) ∧ (s.base ≤ id ∧ id < s.stop)

theorem Meets.symm {r s : EventRange} (h : r.Meets s) : s.Meets r := by
  obtain ⟨id, hr, hs⟩ := h
  exact ⟨id, hs, hr⟩

/-- Ranges that meet do so where the later one begins. -/
theorem meets_iff_of_le {r s : EventRange} (h : r.base ≤ s.base) :
    r.Meets s ↔ s.base < r.stop ∧ s.base < s.stop := by
  constructor
  · intro hmeets
    obtain ⟨id, hr, hs⟩ := hmeets
    omega
  · intro hlt
    exact ⟨s.base, ⟨h, hlt.1⟩, Nat.le_refl _, hlt.2⟩

theorem Meets.of_stop_le {r r' s : EventRange} (h : r.Meets s) (hr : r.base ≤ s.base)
    (hr' : r'.base ≤ s.base) (hstop : r.stop ≤ r'.stop) : r'.Meets s := by
  rw [meets_iff_of_le hr] at h
  rw [meets_iff_of_le hr']
  omega

/-- The range of a group that has events is empty only where no identifier is left. -/
def Fits (r : EventRange) : Prop :=
  r.stop ≤ maxWord ∧ (r.base < maxWord → r.base < r.stop)

theorem Fits.meets {r s : EventRange} (hr : r.Fits) (hs : s.Fits) (h : r.base ≤ s.base)
    (hlt : s.base < r.stop) : r.Meets s := by
  rw [meets_iff_of_le h]
  exact ⟨hlt, hs.2 (Nat.lt_of_lt_of_le hlt hr.1)⟩

end EventRange

namespace EventGroup

/-- The range of a group: from its base on, one identifier for each event, as far as words reach. -/
def Spans (g : EventGroup) (r : EventRange) : Prop :=
  ∃ base, g.base = some base ∧ r = ⟨g.name, base, min (base + g.events.length) maxWord⟩

theorem stopFrom_eq (g : EventGroup) (base : Nat) :
    g.stopFrom base = min (base + g.events.length) maxWord := by
  simp only [stopFrom, size]
  omega

theorem range_eq {g : EventGroup} {base : Nat} (h : g.base = some base) :
    g.range = ⟨g.name, base, min (base + g.events.length) maxWord⟩ := by
  simp [range, stop?, h, stopFrom_eq]

theorem spans_iff {g : EventGroup} (h : g.base.isSome) {r : EventRange} :
    g.Spans r ↔ r = g.range := by
  obtain ⟨base, hb⟩ := Option.isSome_iff_exists.1 h
  simp [Spans, hb, range_eq hb]

theorem fits_range {g : EventGroup} (h : g.base.isSome) (hne : g.events ≠ []) : g.range.Fits := by
  obtain ⟨base, hb⟩ := Option.isSome_iff_exists.1 h
  have hlen : 0 < g.events.length := List.length_pos_iff.2 hne
  rw [range_eq hb]
  simp only [EventRange.Fits]
  omega

end EventGroup

namespace Validation

abbrev Ascending (rs : List EventRange) : Prop :=
  rs.Pairwise fun r s => r.base ≤ s.base

theorem sweep_eq_none {widest : EventRange} {rs : List EventRange}
    (hs : Ascending (widest :: rs)) (hf : ∀ r ∈ widest :: rs, r.Fits) :
    sweep (some widest) rs = none ↔ (widest :: rs).Pairwise fun r s => ¬ r.Meets s := by
  induction rs generalizing widest with
  | nil => simp [sweep]
  | cons r rs ih =>
    obtain ⟨hw, hr, hrs⟩ : (∀ s ∈ r :: rs, widest.base ≤ s.base) ∧ (∀ s ∈ rs, r.base ≤ s.base) ∧
        Ascending rs := by simpa only [Ascending, List.pairwise_cons] using hs
    obtain ⟨hwr, hws⟩ := List.forall_mem_cons.1 hw
    obtain ⟨hwfits, hfits⟩ := List.forall_mem_cons.1 hf
    obtain ⟨hrfits, hrest⟩ := List.forall_mem_cons.1 hfits
    by_cases hlt : r.base < widest.stop
    · have hmeets : widest.Meets r := hwfits.meets hrfits hwr hlt
      simp [sweep, hlt, hmeets]
    · have hapart : ¬ widest.Meets r := by
        rw [EventRange.meets_iff_of_le hwr]
        omega
      by_cases hle : r.stop ≤ widest.stop
      · -- `widest` stays: whatever meets `r` meets `widest`
        rw [sweep, if_neg hlt, if_pos hle, ih (List.pairwise_cons.2 ⟨hws, hrs⟩)
          (List.forall_mem_cons.2 ⟨hwfits, hrest⟩)]
        simp only [List.pairwise_cons, List.forall_mem_cons]
        constructor
        · intro h
          refine ⟨⟨hapart, h.1⟩, fun s hmem hmeets => ?_, h.2⟩
          exact h.1 s hmem (hmeets.of_stop_le (hr s hmem) (hws s hmem) hle)
        · intro h
          exact ⟨h.1.2, h.2.2⟩
      · -- `r` takes its place: whatever meets `widest` meets `r`
        rw [sweep, if_neg hlt, if_neg hle, ih (List.pairwise_cons.2 ⟨hr, hrs⟩)
          (List.forall_mem_cons.2 ⟨hrfits, hrest⟩)]
        simp only [List.pairwise_cons, List.forall_mem_cons]
        constructor
        · intro h
          refine ⟨⟨hapart, fun s hmem hmeets => ?_⟩, h⟩
          exact h.1 s hmem (hmeets.of_stop_le (hws s hmem) (hr s hmem) (by omega))
        · intro h
          exact h.2

/-- The two ranges that a sweep ends with are different ones, and they meet. -/
theorem sweep_eq_some {widest a b : EventRange} {rs : List EventRange}
    (hs : Ascending (widest :: rs)) (hf : ∀ r ∈ widest :: rs, r.Fits)
    (h : sweep (some widest) rs = some (a, b)) : [a, b].Sublist (widest :: rs) ∧ a.Meets b := by
  induction rs generalizing widest with
  | nil => simp [sweep] at h
  | cons r rs ih =>
    by_cases hlt : r.base < widest.stop
    · obtain ⟨rfl, rfl⟩ : widest = a ∧ r = b := by simpa [sweep, hlt] using h
      have hle : widest.base ≤ r.base := List.rel_of_pairwise_cons hs (by simp)
      exact ⟨by simp, (hf widest (by simp)).meets (hf r (by simp)) hle hlt⟩
    · have hsub : ∀ {w : EventRange}, (w :: rs).Sublist (widest :: r :: rs) →
          sweep (some w) rs = some (a, b) →
            [a, b].Sublist (widest :: r :: rs) ∧ a.Meets b := by
        intro w hw hsweep
        obtain ⟨hab, hmeets⟩ := ih (hs.sublist hw) (fun s hmem => hf s (hw.mem hmem)) hsweep
        exact ⟨hab.trans hw, hmeets⟩
      by_cases hle : r.stop ≤ widest.stop
      · rw [sweep, if_neg hlt, if_pos hle] at h
        exact hsub (by simp) h
      · rw [sweep, if_neg hlt, if_neg hle] at h
        exact hsub (by simp) h

def Overlap (groups : List EventGroup) (r s : EventRange) : Prop :=
  ∃ (i j : Nat) (g h : EventGroup), i ≠ j ∧ groups[i]? = some g ∧ groups[j]? = some h ∧
    g.events ≠ [] ∧ h.events ≠ [] ∧ g.Spans r ∧ h.Spans s ∧ r.Meets s

theorem Overlap.symm {groups : List EventGroup} {r s : EventRange} (h : Overlap groups r s) :
    Overlap groups s r := by
  obtain ⟨i, j, g, g', hij, hi, hj, hg, hg', hr, hs, hmeets⟩ := h
  exact ⟨j, i, g', g, hij.symm, hj, hi, hg', hg, hs, hr, hmeets.symm⟩

theorem overlap_of_sublist {groups : List EventGroup} (hb : ∀ g ∈ groups, g.base.isSome)
    {g h : EventGroup} (hgh : [g, h].Sublist groups) (hg : g.events ≠ []) (hh : h.events ≠ [])
    (hmeets : g.range.Meets h.range) : Overlap groups g.range h.range := by
  obtain ⟨i, j, hij, hi, hj⟩ := pair_sublist_iff.1 hgh
  refine ⟨i, j, g, h, by omega, hi, hj, hg, hh, ?_, ?_, hmeets⟩
  · exact (EventGroup.spans_iff (hb g (List.mem_of_getElem? hi))).2 rfl
  · exact (EventGroup.spans_iff (hb h (List.mem_of_getElem? hj))).2 rfl

def claimed (groups : List EventGroup) : List EventRange :=
  (groups.filter (!·.isEmpty)).map EventGroup.range

theorem exists_of_sublist_claimed {groups : List EventGroup} {r s : EventRange}
    (h : [r, s].Sublist (claimed groups)) :
    ∃ g g', [g, g'].Sublist groups ∧ g.events ≠ [] ∧ g'.events ≠ [] ∧
      r = g.range ∧ s = g'.range := by
  obtain ⟨gs, hsub, hgs⟩ := List.sublist_map_iff.1 h
  have hlen : gs.length = 2 := by simpa using congrArg List.length hgs.symm
  obtain ⟨g, g', rfl⟩ := List.length_eq_two.1 hlen
  obtain ⟨rfl, rfl⟩ : r = g.range ∧ s = g'.range := by simpa using hgs
  have hmem : ∀ x ∈ [g, g'], x.events ≠ [] := by
    intro x hx
    simpa [EventGroup.isEmpty] using (List.mem_filter.1 (hsub.mem hx)).2
  exact ⟨g, g', hsub.trans List.filter_sublist, hmem g (by simp), hmem g' (by simp), rfl, rfl⟩

theorem pairwise_claimed_iff {groups : List EventGroup} (hb : ∀ g ∈ groups, g.base.isSome) :
    (claimed groups).Pairwise (fun r s => ¬ r.Meets s) ↔ ¬ ∃ r s, Overlap groups r s := by
  constructor
  · intro hpair h
    obtain ⟨r, s, i, j, g, g', hij, hi, hj, hg, hg', hr, hs, hmeets⟩ := h
    have hr := (EventGroup.spans_iff (hb g (List.mem_of_getElem? hi))).1 hr
    have hs := (EventGroup.spans_iff (hb g' (List.mem_of_getElem? hj))).1 hs
    subst hr hs
    rw [claimed, List.pairwise_map, List.pairwise_filter,
      List.pairwise_iff_forall_sublist] at hpair
    have hfull : ∀ x : EventGroup, x.events ≠ [] → (!x.isEmpty) = true := by
      simp [EventGroup.isEmpty]
    rcases Nat.lt_or_gt_of_ne hij with hlt | hlt
    · exact hpair (pair_sublist_iff.2 ⟨i, j, hlt, hi, hj⟩) (hfull g hg) (hfull g' hg') hmeets
    · exact hpair (pair_sublist_iff.2 ⟨j, i, hlt, hj, hi⟩) (hfull g' hg') (hfull g hg) hmeets.symm
  · intro hnone
    rw [List.pairwise_iff_forall_sublist]
    intro r s hrs hmeets
    obtain ⟨g, g', hsub, hg, hg', rfl, rfl⟩ := exists_of_sublist_claimed hrs
    exact hnone ⟨_, _, overlap_of_sublist hb hsub hg hg' hmeets⟩

def inOrder (groups : List EventGroup) : List EventRange :=
  (claimed groups).mergeSort fun r s => r.base ≤ s.base

theorem collision?_eq (groups : List EventGroup) :
    collision? groups = sweep none (inOrder groups) := rfl

theorem inOrder_perm (groups : List EventGroup) : (inOrder groups).Perm (claimed groups) :=
  List.mergeSort_perm _ _

theorem ascending_inOrder (groups : List EventGroup) : Ascending (inOrder groups) := by
  have h : (inOrder groups).Pairwise fun r s => decide (r.base ≤ s.base) = true := by
    apply List.pairwise_mergeSort
    · intro a b c
      simpa using Nat.le_trans
    · intro a b
      simpa using Nat.le_total _ _
  simpa using h

theorem fits_inOrder {groups : List EventGroup} (hb : ∀ g ∈ groups, g.base.isSome) :
    ∀ r ∈ inOrder groups, r.Fits := by
  intro r hr
  obtain ⟨g, hg, rfl⟩ := List.mem_map.1 ((inOrder_perm groups).mem_iff.1 hr)
  obtain ⟨hmem, hne⟩ := List.mem_filter.1 hg
  exact EventGroup.fits_range (hb g hmem) (by simpa [EventGroup.isEmpty] using hne)

theorem collision?_eq_none {groups : List EventGroup} (hb : ∀ g ∈ groups, g.base.isSome) :
    collision? groups = none ↔ ¬ ∃ r s, Overlap groups r s := by
  have hsorted := ascending_inOrder groups
  have hfits := fits_inOrder hb
  rw [← pairwise_claimed_iff hb, ← (inOrder_perm groups).pairwise_iff fun h hmeets => h hmeets.symm,
    collision?_eq]
  cases hrs : inOrder groups with
  | nil => simp [sweep]
  | cons r rs =>
    rw [hrs] at hsorted hfits
    rw [sweep]
    exact sweep_eq_none hsorted hfits

theorem overlap_of_collision? {groups : List EventGroup} (hb : ∀ g ∈ groups, g.base.isSome)
    {r s : EventRange} (h : collision? groups = some (r, s)) : Overlap groups r s := by
  have hsorted := ascending_inOrder groups
  have hfits := fits_inOrder hb
  have hperm := inOrder_perm groups
  rw [collision?_eq] at h
  cases hrs : inOrder groups with
  | nil => simp [hrs, sweep] at h
  | cons first rest =>
    rw [hrs] at h hsorted hfits hperm
    rw [sweep] at h
    obtain ⟨hsub, hmeets⟩ := sweep_eq_some hsorted hfits h
    rcases pair_sublist_of_perm hperm hsub with hsub | hsub
    · obtain ⟨g, g', hgs, hg, hg', rfl, rfl⟩ := exists_of_sublist_claimed hsub
      exact overlap_of_sublist hb hgs hg hg' hmeets
    · obtain ⟨g, g', hgs, hg, hg', rfl, rfl⟩ := exists_of_sublist_claimed hsub
      exact (overlap_of_sublist hb hgs hg hg' hmeets.symm).symm

/-- The same groups, each with a base. One that was not given is 1 for the first group, and the end
of the group before for any other. -/
structure BasesFilled (before after : List EventGroup) : Prop where
  length_eq : after.length = before.length
  first : ∀ g, before[0]? = some g → after[0]? = some { g with base := some (g.base.getD 1) }
  next : ∀ (i : Nat) (g p : EventGroup) (r : EventRange), before[i + 1]? = some g →
    after[i]? = some p → p.Spans r →
      after[i + 1]? = some { g with base := some (g.base.getD r.stop) }

theorem fillBases_zero (previous : Option Nat) (groups : List EventGroup) :
    (fillBases previous groups)[0]? = groups[0]?.map (withBase previous) := by
  cases groups <;> rfl

theorem fillBases_succ {previous : Option Nat} {groups : List EventGroup} {i : Nat}
    {p : EventGroup} (hp : (fillBases previous groups)[i]? = some p) :
    (fillBases previous groups)[i + 1]? = groups[i + 1]?.map (withBase p.stop?) := by
  induction groups generalizing previous i with
  | nil => simp [fillBases] at hp
  | cons g gs ih =>
    rw [fillBases] at hp ⊢
    rw [List.getElem?_cons_succ, List.getElem?_cons_succ]
    cases i with
    | zero =>
      rw [List.getElem?_cons_zero, Option.some.injEq] at hp
      rw [hp]
      exact fillBases_zero p.stop? gs
    | succ i =>
      rw [List.getElem?_cons_succ] at hp
      exact ih hp

theorem length_fillBases (previous : Option Nat) (groups : List EventGroup) :
    (fillBases previous groups).length = groups.length := by
  induction groups generalizing previous with
  | nil => rfl
  | cons g gs ih => simp [fillBases, ih]

theorem basesFilled_fillBases (groups : List EventGroup) :
    BasesFilled groups (fillBases none groups) := by
  constructor
  · exact length_fillBases none groups
  · intro g hg
    rw [fillBases_zero, hg]
    rfl
  · intro i g p r hg hp hr
    obtain ⟨base, hbase, rfl⟩ := hr
    rw [fillBases_succ hp, hg]
    simp [withBase, EventGroup.stop?, hbase, EventGroup.stopFrom_eq]

theorem ids_fillBases (previous : Option Nat) (groups : List EventGroup) :
    (fillBases previous groups).map EventGroup.ids = groups.map EventGroup.ids := by
  induction groups generalizing previous with
  | nil => rfl
  | cons g gs ih => simp [fillBases, withBase, ih]

theorem names_fillBases (previous : Option Nat) (groups : List EventGroup) :
    (fillBases previous groups).map EventGroup.name = groups.map EventGroup.name := by
  induction groups generalizing previous with
  | nil => rfl
  | cons g gs ih => simp [fillBases, withBase, ih]

theorem names_allocated (groups : List EventGroup) :
    (allocated groups).map EventGroup.name = groups.map EventGroup.name := by
  rw [allocated, List.map_map, ← names_fillBases none groups]
  rfl

def Numbered (g g' : EventGroup) : Prop :=
  ∃ r, g.Spans r ∧ g' = { g with ids := List.range' r.base (r.stop - r.base) }

theorem numbered_of_isSome {g : EventGroup} (h : g.base.isSome) : Numbered g (numbered g) :=
  ⟨g.range, (EventGroup.spans_iff h).2 rfl, rfl⟩

theorem forall₂_numbered {groups : List EventGroup} (hb : ∀ g ∈ groups, g.base.isSome) :
    List.Forall₂ Numbered groups (groups.map numbered) := by
  rw [List.forall₂_map_right_iff, List.forall₂_same]
  intro g hg
  exact numbered_of_isSome (hb g hg)

theorem mem_ids_numbered {g : EventGroup} {id : Nat} :
    id ∈ (numbered g).ids ↔ g.range.base ≤ id ∧ id < g.range.stop := by
  simp only [numbered, List.mem_range'_1]
  omega

theorem events_ne_nil_of_mem_ids {g : EventGroup} (h : g.base.isSome) {id : Nat}
    (hid : id ∈ (numbered g).ids) : g.events ≠ [] := by
  intro hnil
  obtain ⟨base, hb⟩ := Option.isSome_iff_exists.1 h
  rw [mem_ids_numbered, EventGroup.range_eq hb, hnil] at hid
  simp only [List.length_nil] at hid
  omega

theorem ids_nodup {groups : List EventGroup} (hb : ∀ g ∈ groups, g.base.isSome)
    (h : ¬ ∃ r s, Overlap groups r s) :
    ((groups.map numbered).flatMap EventGroup.ids).Nodup := by
  rw [List.nodup_flatMap]
  constructor
  · intro g hg
    obtain ⟨g, -, rfl⟩ := List.mem_map.1 hg
    exact List.nodup_range'
  · rw [List.pairwise_map, List.pairwise_iff_forall_sublist]
    intro g g' hsub id hid hid'
    have hg := events_ne_nil_of_mem_ids (hb g (hsub.mem (by simp))) hid
    have hg' := events_ne_nil_of_mem_ids (hb g' (hsub.mem (by simp))) hid'
    have hmeets : g.range.Meets g'.range := ⟨id, mem_ids_numbered.1 hid, mem_ids_numbered.1 hid'⟩
    exact h ⟨_, _, overlap_of_sublist hb hsub hg hg' hmeets⟩

theorem zero_not_mem_ids {groups : List EventGroup} (hb : ∀ g ∈ groups, g.base.isSome)
    (hz : ∀ g ∈ groups, g.base ≠ some 0) :
    0 ∉ (groups.map numbered).flatMap EventGroup.ids := by
  intro hmem
  obtain ⟨g', hg', hid⟩ := List.mem_flatMap.1 hmem
  obtain ⟨g, hg, rfl⟩ := List.mem_map.1 hg'
  obtain ⟨base, hbase⟩ := Option.isSome_iff_exists.1 (hb g hg)
  rw [mem_ids_numbered, EventGroup.range_eq hbase] at hid
  obtain rfl : base = 0 := by simpa using hid.1
  exact hz g hg hbase

theorem allocateEventIds_fails {c d : Chart} {e : Error} :
    allocateEventIds.Fails c e d ↔
      d = { c with groups := fillBases none c.groups } ∧
        ((∃ r s, collision? (fillBases none c.groups) = some (r, s) ∧ e = .rangeCollision r s) ∨
          collision? (fillBases none c.groups) = none ∧
            ∃ g, (fillBases none c.groups).find? (·.base = some 0) = some g ∧
              e = .zeroBase g.name) := by
  simp only [allocateEventIds, Work.fails_get_bind, Work.fails_modify_bind,
    Work.fails_warnAll_bind]
  cases collision? (fillBases none c.groups) with
  | some p =>
    obtain ⟨r, s⟩ := p
    simp only [Work.fails_fail, Option.some.injEq, Prod.mk.injEq, reduceCtorEq, false_and, or_false]
    grind
  | none =>
    cases (fillBases none c.groups).find? (·.base = some 0) with
    | some g =>
      simp only [Work.fails_fail, reduceCtorEq, false_and, exists_false, false_or, true_and,
        Option.some.injEq, exists_eq_left']
      exact and_comm
    | none => simp [Work.fails_modify_bind, Work.not_fails_note]

section Results

variable {c : Chart}

theorem allocation_ok_iff : (allocateEventIds c).result = .ok () ↔
    collision? (fillBases none c.groups) = none ∧
      (fillBases none c.groups).find? (·.base = some 0) = none := by
  constructor
  · intro h
    obtain ⟨hcol, hfind, -⟩ := allocateEventIds_yields.1 (Work.yields_of_result h)
    exact ⟨hcol, hfind⟩
  · intro h
    exact (allocateEventIds_yields.2 ⟨h.1, h.2, rfl, rfl⟩).result_eq

theorem allocation_error_iff {e : Error} : (allocateEventIds c).result = .error e ↔
    (∃ r s, collision? (fillBases none c.groups) = some (r, s) ∧ e = .rangeCollision r s) ∨
      collision? (fillBases none c.groups) = none ∧
        ∃ g, (fillBases none c.groups).find? (·.base = some 0) = some g ∧
          e = .zeroBase g.name := by
  constructor
  · intro h
    exact (allocateEventIds_fails.1 ⟨h, rfl⟩).2
  · intro h
    exact (allocateEventIds_fails.2 ⟨rfl, h⟩).1

theorem allocation_collides_iff {r s : EventRange} :
    (allocateEventIds c).result = .error (.rangeCollision r s) ↔
      collision? (fillBases none c.groups) = some (r, s) := by
  simp [allocation_error_iff]

theorem allocation_zeroBase_iff :
    (∃ name, (allocateEventIds c).result = .error (.zeroBase name)) ↔
      collision? (fillBases none c.groups) = none ∧
        ∃ g ∈ fillBases none c.groups, g.base = some 0 := by
  have hfind : (∃ g, (fillBases none c.groups).find? (·.base = some 0) = some g) ↔
      ∃ g ∈ fillBases none c.groups, g.base = some 0 := by
    rw [← Option.isSome_iff_exists, List.find?_isSome]
    simp
  simp [allocation_error_iff, ← hfind]

end Results

theorem allocation_exact (c : Chart) :
    let filled := fillBases none c.groups
    let after := allocateEventIds c
    BasesFilled c.groups filled ∧
      ((∃ r s, after.result = .error (.rangeCollision r s)) ↔ ∃ r s, Overlap filled r s) ∧
      (∀ r s, after.result = .error (.rangeCollision r s) → Overlap filled r s) ∧
      ((∃ name, after.result = .error (.zeroBase name)) ↔
        (¬ ∃ r s, Overlap filled r s) ∧ ∃ g ∈ filled, g.base = some 0) ∧
      (after.result = .ok () ↔
        (¬ ∃ r s, Overlap filled r s) ∧ ∀ g ∈ filled, g.base ≠ some 0) ∧
      (after.result = .ok () →
        List.Forall₂ Numbered filled after.state.groups ∧
          (after.state.groups.flatMap EventGroup.ids).Nodup ∧
          0 ∉ after.state.groups.flatMap EventGroup.ids) ∧
      ∀ e, after.result = .error e →
        after.state.groups.map EventGroup.ids = c.groups.map EventGroup.ids := by
  intro filled after
  have hb : ∀ g ∈ filled, g.base.isSome := fun _ hg => fillBases_isSome hg
  have hnone : collision? filled = none ↔ ¬ ∃ r s, Overlap filled r s := collision?_eq_none hb
  have hzero : filled.find? (·.base = some 0) = none ↔ ∀ g ∈ filled, g.base ≠ some 0 := by simp
  refine ⟨basesFilled_fillBases c.groups, ?_, ?_, ?_, ?_, ?_, ?_⟩
  · rw [← not_iff_not, ← hnone]
    simp [after, allocation_collides_iff, filled, Option.eq_none_iff_forall_ne_some]
  · intro r s h
    exact overlap_of_collision? hb (allocation_collides_iff.1 h)
  · rw [← hnone]
    exact allocation_zeroBase_iff
  · rw [← hnone, ← hzero]
    exact allocation_ok_iff
  · intro h
    obtain ⟨hcol, hfind, -, hstate⟩ := allocateEventIds_yields.1 (Work.yields_of_result h)
    have hgroups : after.state.groups = filled.map numbered := by
      rw [hstate]
      rfl
    rw [hgroups]
    exact ⟨forall₂_numbered hb, ids_nodup hb (hnone.1 hcol), zero_not_mem_ids hb (hzero.1 hfind)⟩
  · intro e h
    rw [(allocateEventIds_fails.1 ⟨h, rfl⟩).1]
    exact ids_fillBases none c.groups

end Validation

end Statechart
