import Statechart.Proofs.Module.Order
import Statechart.Proofs.Validation.Soundness

/-!
Siblings in the order of states.

A round adds states in the order in which they are declared. A state that is declared after its
parent is added in the same round as the parent, one that is declared before it waits for the next
round. So of two states with one parent the first comes second exactly if the parent is declared
between them.
-/
set_option autoImplicit false

namespace Statechart.Module

open Validation

theorem name_mem_takeReady_append {ordered as bs : List State} {name : String}
    (h : name ∉ bs.map State.name) :
    name ∈ (takeReady ordered (as ++ bs)).map State.name ↔
      name ∈ (takeReady ordered as).map State.name := by
  obtain ⟨added, hsub, hadded⟩ := exists_added (takeReady ordered as) bs
  have hnone : name ∉ added.map State.name := fun hname => h (List.map_subset _ hsub.subset hname)
  rw [takeReady_append, hadded, List.map_append, List.mem_append]
  exact or_iff_left hnone

theorem name_mem_takeReady_iff {ordered ss : List State} {name : String}
    (h : name ∉ ss.map State.name) :
    name ∈ (takeReady ordered ss).map State.name ↔ name ∈ ordered.map State.name :=
  @name_mem_takeReady_append ordered [] ss name h

/-- A new state is added exactly if its parent is there when the round comes to it. -/
theorem name_mem_round_iff {ordered before after : List State} {s : State}
    (hd : ((before ++ s :: after).map State.name).Nodup) (hnew : s.name ∉ ordered.map State.name) :
    s.name ∈ (takeReady ordered (before ++ s :: after)).map State.name ↔
      ∀ p, s.parent = some p → p ∈ (takeReady ordered before).map State.name := by
  have hbefore : s.name ∉ before.map State.name := not_mem_of_nodup_map hd
  have hafter : s.name ∉ after.map State.name := by
    rw [List.map_append, List.map_cons, List.nodup_append] at hd
    exact (List.nodup_cons.1 hd.2.1).1
  have hnew' : s.name ∉ (takeReady ordered before).map State.name :=
    (name_mem_takeReady_iff hbefore).not.2 hnew
  rw [takeReady_append]
  by_cases hready : Ready (takeReady ordered before) s
  · rw [takeReady_of_ready hready]
    exact iff_of_true (name_mem_takeReady (by simp) after) hready.2
  · rw [takeReady_of_not_ready hready, name_mem_takeReady_iff hafter]
    exact iff_of_false hnew' fun hparent => hready ⟨hnew', hparent⟩

/-- At the end of a round a state that is declared after its parent is there if the parent is. -/
def Followed (enabled ordered : List State) : Prop :=
  ∀ p t, [p, t].Sublist enabled → t.parent = some p.name → p.name ∈ ordered.map State.name →
    t.name ∈ ordered.map State.name

theorem followed_takeReady {enabled : List State} (hd : (enabled.map State.name).Nodup)
    (ordered : List State) : Followed enabled (takeReady ordered enabled) := by
  intro p t hpt hparent hp
  obtain ⟨front, between, after, rfl⟩ := pair_sublist_iff_append.1 hpt
  rw [← List.cons_append, ← List.append_assoc] at hd hp ⊢
  by_cases hnew : t.name ∈ ordered.map State.name
  · exact name_mem_takeReady hnew _
  · rw [name_mem_round_iff hd hnew, hparent]
    rintro _ ⟨⟩
    refine (name_mem_takeReady_append ?_).1 hp
    have hapart := (List.nodup_append.1 (List.map_append ▸ hd)).2.2
    intro hmem
    exact hapart p.name (List.mem_map_of_mem (by simp)) p.name hmem rfl

theorem orderFrom_grows (enabled : List State) (rounds : Nat) (ordered : List State) :
    ordered <+: orderFrom enabled rounds ordered := by
  induction rounds generalizing ordered with
  | zero => exact List.prefix_refl _
  | succ rounds ih =>
    simp only [orderFrom]
    split
    · exact List.prefix_refl _
    · exact (takeReady_grows ordered enabled).trans (ih _)

theorem exists_round {enabled : List State} {R P : List State → Prop}
    (hR : ∀ ordered, R ordered → R (takeReady ordered enabled)) {rounds : Nat}
    {ordered : List State} (h : R ordered) (hbefore : ¬ P ordered)
    (hafter : P (orderFrom enabled rounds ordered)) :
    ∃ last, R last ∧ ¬ P last ∧ P (takeReady last enabled) ∧
      takeReady last enabled <+: orderFrom enabled rounds ordered := by
  induction rounds generalizing ordered with
  | zero => exact absurd hafter hbefore
  | succ rounds ih =>
    simp only [orderFrom] at hafter ⊢
    split at hafter
    · exact absurd hafter hbefore
    · rename_i hadded
      rw [if_neg hadded]
      by_cases hnext : P (takeReady ordered enabled)
      · exact ⟨ordered, h, hbefore, hnext, orderFrom_grows _ _ _⟩
      · exact ih (hR ordered h) hnext hafter

/-- The parent of a state is declared after it and before another one. -/
def ParentBetween (c : Chart) (s t : State) : Prop :=
  ∃ p, s.parent = some p.name ∧ [s, p, t].Sublist c.enabledStates

theorem parent_ne_name {c : Chart} {s : State} (hs : s ∈ parentFirst c) :
    s.parent ≠ some s.name := by
  intro hp
  obtain ⟨before, after, horder⟩ := List.append_of_mem hs
  have hd := parentFirst_nodup c
  rw [horder] at hd
  exact not_mem_of_nodup_map hd (parentFirst_parent horder hp)

section Siblings

variable {c : Chart} (hd : (c.enabledStates.map State.name).Nodup)
  (hall : ∀ s ∈ c.enabledStates, s ∈ parentFirst c) {s t : State}
  (hst : [s, t].Sublist c.enabledStates) (hparent : s.parent = t.parent)
include hd hall hst

theorem exists_first_round :
    ∃ ordered, Followed c.enabledStates ordered ∧
      s.name ∉ ordered.map State.name ∧ t.name ∉ ordered.map State.name ∧
      (s.name ∈ (takeReady ordered c.enabledStates).map State.name ∨
        t.name ∈ (takeReady ordered c.enabledStates).map State.name) ∧
      takeReady ordered c.enabledStates <+: parentFirst c := by
  have hs : s.name ∈ (parentFirst c).map State.name :=
    List.mem_map_of_mem (hall s (hst.subset (by simp)))
  obtain ⟨ordered, hfollowed, hnone, hadded, hprefix⟩ :=
    exists_round (R := Followed c.enabledStates)
      (P := fun l => s.name ∈ l.map State.name ∨ t.name ∈ l.map State.name)
      (fun ordered _ => followed_takeReady hd ordered)
      (by simp [Followed]) (by simp) (Or.inl hs)
  obtain ⟨hsnew, htnew⟩ := not_or.1 hnone
  exact ⟨ordered, hfollowed, hsnew, htnew, hadded, hprefix⟩

include hparent

/-- The first waits for the round after the one that adds their parent and the second. -/
theorem second_first_of_parentBetween (h : ParentBetween c s t) :
    [t, s].Sublist (parentFirst c) := by
  obtain ⟨p, hp, hspt⟩ := h
  obtain ⟨ordered, hfollowed, hsnew, htnew, hadded, hprefix⟩ := exists_first_round hd hall hst
  have hpt : [p, t].Sublist c.enabledStates := (List.sublist_cons_self s _).trans hspt
  have hpnew : p.name ∉ ordered.map State.name :=
    fun hpthere => htnew (hfollowed p t hpt (hparent ▸ hp) hpthere)
  have hslate : s.name ∉ (takeReady ordered c.enabledStates).map State.name := by
    have hsp : [s, p].Sublist c.enabledStates :=
      (List.Sublist.cons_cons s (List.sublist_append_left [p] [t])).trans hspt
    obtain ⟨before, between, after, hsplit⟩ := pair_sublist_iff_append.1 hsp
    rw [hsplit] at hd ⊢
    have hpbefore : p.name ∉ before.map State.name := by
      have hapart := (List.nodup_append.1 (List.map_append ▸ hd)).2.2
      intro hmem
      exact hapart p.name hmem p.name (List.mem_map_of_mem (by simp)) rfl
    rw [name_mem_round_iff hd hsnew]
    intro hready
    exact hpnew ((name_mem_takeReady_iff hpbefore).1 (hready p.name hp))
  obtain ⟨rest, hrest⟩ := hprefix
  have ht : t ∈ takeReady ordered c.enabledStates := by
    have hsub : takeReady ordered c.enabledStates ⊆ c.enabledStates := fun q hq =>
      parentFirst_subset c q (hrest ▸ List.mem_append_left rest hq)
    exact mem_of_name_mem hd hsub (hst.subset (by simp)) (hadded.resolve_left hslate)
  have hs : s ∈ rest := by
    have hs := hall s (hst.subset (by simp))
    rw [← hrest] at hs
    exact (List.mem_append.1 hs).resolve_left fun hs => hslate (List.mem_map_of_mem hs)
  rw [← hrest]
  exact (List.singleton_sublist.2 ht).append (List.singleton_sublist.2 hs)

/-- Else both are added in one round. -/
theorem first_first_of_not_parentBetween (h : ¬ ParentBetween c s t) :
    [s, t].Sublist (parentFirst c) := by
  obtain ⟨ordered, -, hsnew, htnew, hadded, hprefix⟩ := exists_first_round hd hall hst
  have hboth : s.name ∈ (takeReady ordered c.enabledStates).map State.name ↔
      t.name ∈ (takeReady ordered c.enabledStates).map State.name := by
    obtain ⟨before, between, after, hsplit⟩ := pair_sublist_iff_append.1 hst
    have happend : before ++ s :: (between ++ t :: after) =
        (before ++ s :: between) ++ t :: after := by simp
    rw [hsplit] at hd ⊢
    rw [name_mem_round_iff hd hsnew]
    rw [happend] at hd ⊢
    rw [name_mem_round_iff hd htnew, hparent]
    refine forall₂_congr fun p hp => (name_mem_takeReady_append ?_).symm
    -- the parent is neither the first nor between the two
    intro hmem
    obtain ⟨q, hq, rfl⟩ := List.mem_map.1 hmem
    rcases List.mem_cons.1 hq with rfl | hq
    · exact parent_ne_name (hall q (hst.subset (by simp))) (hparent.trans hp)
    · refine h ⟨q, hparent.trans hp, ?_⟩
      rw [hsplit]
      have hqt : [q, t].Sublist (between ++ t :: after) :=
        (List.singleton_sublist.2 hq).append (List.singleton_sublist.2 (by simp))
      exact (hqt.cons_cons s).trans (List.sublist_append_right _ _)
  obtain ⟨added, hsub, hnext⟩ := exists_added ordered c.enabledStates
  have hmem : ∀ q ∈ c.enabledStates, q.name ∉ ordered.map State.name →
      q.name ∈ (takeReady ordered c.enabledStates).map State.name → q ∈ added := by
    intro q hq hnew hname
    rw [hnext, List.map_append, List.mem_append] at hname
    exact mem_of_name_mem hd hsub.subset hq (hname.resolve_left hnew)
  have hs : s ∈ added :=
    hmem s (hst.subset (by simp)) hsnew (hadded.elim id hboth.2)
  have ht : t ∈ added :=
    hmem t (hst.subset (by simp)) htnew (hadded.elim hboth.1 id)
  have hpair : [s, t].Sublist added :=
    pair_sublist_of_sublist (List.Nodup.of_map _ hd) hsub hst hs ht
  rw [hnext] at hprefix
  exact (hpair.trans (List.sublist_append_right _ _)).trans hprefix.sublist

end Siblings

/-- Of two siblings the one declared first comes first, unless their parent is declared between
them: then it comes second. -/
theorem siblings_in_order_iff {b c : Chart} {j : Journal} (hd : (c.states.map State.name).Nodup)
    (h : verifyStateParents.Yields b () j c) :
    (∀ s t, [s, t].Sublist c.enabledStates → s.parent = t.parent →
      ([s, t].Sublist (parentFirst c) ↔ ¬ ParentBetween c s t) ∧
        ([t, s].Sublist (parentFirst c) ↔ ParentBetween c s t)) ∧
      ((∀ s t, [s, t].Sublist c.enabledStates → s.parent = t.parent →
          [s, t].Sublist (parentFirst c)) ↔
        ∀ s t, [s, t].Sublist c.enabledStates → s.parent = t.parent → ¬ ParentBetween c s t) := by
  have hnames : (c.enabledStates.map State.name).Nodup :=
    hd.sublist (List.filter_sublist.map State.name)
  have hall : ∀ s ∈ c.enabledStates, s ∈ parentFirst c := fun s hs =>
    (mem_parentFirst_iff hd).2 ⟨hs, rooted_of_verified h s hs⟩
  have horder : (parentFirst c).Nodup := List.Nodup.of_map _ (parentFirst_nodup c)
  have hpairs : ∀ s t, [s, t].Sublist c.enabledStates → s.parent = t.parent →
      ([s, t].Sublist (parentFirst c) ↔ ¬ ParentBetween c s t) ∧
        ([t, s].Sublist (parentFirst c) ↔ ParentBetween c s t) := by
    intro s t hst hparent
    by_cases hbetween : ParentBetween c s t
    · have hts := second_first_of_parentBetween hnames hall hst hparent hbetween
      have hnot := not_pair_sublist_swap horder hts
      exact ⟨iff_of_false hnot (not_not.2 hbetween), iff_of_true hts hbetween⟩
    · have hst' := first_first_of_not_parentBetween hnames hall hst hparent hbetween
      have hnot := not_pair_sublist_swap horder hst'
      exact ⟨iff_of_true hst' hbetween, iff_of_false hnot hbetween⟩
  exact ⟨hpairs, forall₄_congr fun s t hst hparent => (hpairs s t hst hparent).1⟩

/-- A shelf, with a rack that is declared between its two boards. -/
def shelfLines : List String :=
  ["[STATECHART]", "name = Shelf", "[OPTIONS]",
    "[EVENTS_1]", "name = Key", "base = 1", "event_1 = press",
    "[STATE_1]", "name = Low", "parent = Rack", "type = State",
    "entry = None", "do = None", "exit = None",
    "[STATE_2]", "name = Rack", "parent = None", "type = HierarchicalState",
    "entry = None", "do = None", "exit = None",
    "[STATE_3]", "name = High", "parent = Rack", "type = State",
    "entry = None", "do = None", "exit = None",
    "[TRANSITION_1]", "start = Start", "end = Rack", "event = None", "guard = None",
    "action = None",
    "[TRANSITION_2]", "start = Start", "end = Low", "event = None", "guard = None",
    "action = None"]

def low : State := ⟨"STATE_1", "Low", some "Rack", .simple, .absent, .absent, .absent, false⟩

def rack : State := ⟨"STATE_2", "Rack", none, .hierarchical, .absent, .absent, .absent, false⟩

def high : State := ⟨"STATE_3", "High", some "Rack", .simple, .absent, .absent, .absent, false⟩

def shelf : Chart where
  name := "Shelf"
  states := [low, rack, high]
  groups := [⟨"EVENTS_1", "Key", some 1, ["press"], []⟩]
  transitions :=
    [⟨"TRANSITION_1", .start, .state "Rack", none, .absent, .absent, false⟩,
      ⟨"TRANSITION_2", .start, .state "Low", none, .absent, .absent, false⟩]

theorem shelf_verified : verifyStateParents.Yields shelf () [] shelf :=
  Work.yields_of_parts (ok_of_toOption (by decide +kernel)) (by decide +kernel) (by decide +kernel)

theorem shelf_siblings :
    (shelf.states.map State.name).Nodup ∧ verifyStateParents.Yields shelf () [] shelf ∧
      [low, high].Sublist shelf.enabledStates ∧ low.parent = high.parent ∧
      ParentBetween shelf low high ∧ [high, low].Sublist (parentFirst shelf) := by
  have hnames : (shelf.states.map State.name).Nodup := by decide
  have hpair : [low, high].Sublist shelf.enabledStates := by decide +kernel
  have hbetween : ParentBetween shelf low high := ⟨rack, rfl, by decide +kernel⟩
  obtain ⟨hpairs, -⟩ := siblings_in_order_iff hnames shelf_verified
  exact ⟨hnames, shelf_verified, hpair, rfl, hbetween, (hpairs low high hpair rfl).2.2 hbetween⟩

/-- The boards come in the other order. -/
theorem shelf_inverted :
    (Chart.read "shelf" (Text.unlines shelfLines) ⟨""⟩ (fun _ => .error .notFound) ()).result =
        .ok shelf ∧
      (all shelf).result = .ok () ∧ verifyStateParents.Yields shelf () [] shelf ∧
      [low, high].Sublist shelf.enabledStates ∧ low.parent = high.parent ∧
      parentFirst shelf = [rack, high, low] ∧ ¬ [low, high].Sublist (parentFirst shelf) :=
  ⟨Chart.read_unlines (by repeat constructor) (by decide +kernel) (by decide +kernel),
    ok_of_toOption (by decide +kernel), shelf_verified, by decide +kernel, rfl, by decide +kernel,
    by decide +kernel⟩

end Statechart.Module
