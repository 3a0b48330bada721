import Mathlib.Order.Bounds.Basic
import Statechart.Proofs.Validation.Cascade

/-!
Which hierarchies are accepted, and which states they lose.

The check ends with an unknown parent, with a cycle, or with the least set of states disabled that
has the disabled ones and all that are below its members. Neither this set nor the kind of fault
depends on the order in which the states are declared.
-/
set_option autoImplicit false

namespace Statechart.Validation

open Relation

def wayUpFault? (c : Chart) (s : State) : Option Error :=
  fault? (ancestry c s.name)

theorem verifyStateParents_eq {c d : Chart} {j : Journal}
    (h : (cascade (c.states.length + 1)).Yields c () j d) :
    verifyStateParents c = ⟨d, j, ofFault (d.enabledStates.findSome? (wayUpFault? d))⟩ := by
  have heach : Work.each (fun s => do let _ ← Work.ofExcept (ancestry d s.name))
      d.enabledStates d = ⟨d, [], ofFault (d.enabledStates.findSome? (wayUpFault? d))⟩ := by
    refine Work.each_checks fun s _ => ?_
    rw [wayUpFault?]
    cases ancestry d s.name with
    | error e => rfl
    | ok a => rfl
  have hafter : verifyStateParents c =
      (cascade (c.states.length + 1) >>= fun _ => Work.get >>= fun c =>
        Work.each (fun s => do let _ ← Work.ofExcept (ancestry c s.name)) c.enabledStates) c := rfl
  rw [hafter, Work.bind_apply, h]
  simp [Work.bind_apply, Work.get, heach]

inductive Verified (c : Chart) : Step Error Chart Unit → Prop where
  | orphaned {s : State} {parent : String} {d : Chart} {j : Journal} :
      Orphan c s parent → Verified c ⟨d, j, .error (orphanError s parent)⟩
  | cyclic {name : String} {d : Chart} {j : Journal} :
      Drained c j d → Cyclic c → Verified c ⟨d, j, .error (.parentCycle name)⟩
  | passed {d : Chart} {j : Journal} : Drained c j d → ¬ Cyclic c → Verified c ⟨d, j, .ok ()⟩

theorem verified {c : Chart} (hd : (c.states.map State.name).Nodup) :
    Verified c (verifyStateParents c) := by
  rcases Work.yields_or_fails (cascade (c.states.length + 1)) c with
    ⟨_, j, d, hyields⟩ | ⟨e, d, hfails⟩
  · have hdrained := drained_of_yields hd hyields
    rw [verifyStateParents_eq hyields]
    cases hfault : d.enabledStates.findSome? (wayUpFault? d) with
    | none =>
      refine .passed hdrained ?_
      rw [← hdrained.cyclic_iff hd, ← ancestry_ok_iff hdrained.settled]
      intro s hs
      exact fault?_eq_none.1 (List.findSome?_eq_none_iff.1 hfault s hs)
    | some e =>
      obtain ⟨s, hs, he⟩ := List.exists_of_findSome?_eq_some hfault
      obtain ⟨hmem, hon⟩ := Chart.mem_enabledStates.1 hs
      have hfound := Chart.state?_eq_some (hdrained.nodup hd) hmem
      obtain ⟨rfl, hcyclic⟩ := ancestry_error hdrained.settled
        (Chart.enabledState?_eq_some.2 ⟨hfound, hon⟩) (fault?_eq_some.1 he)
      exact .cyclic hdrained ((hdrained.cyclic_iff hd).1 hcyclic)
  · obtain ⟨s, parent, ho, rfl⟩ := cascade_fails hfails
    have hresult : (verifyStateParents c).result = .error (orphanError s parent) :=
      (Work.fails_bind.2 (.inl hfails)).1
    have hstep : verifyStateParents c = ⟨(verifyStateParents c).state,
        (verifyStateParents c).journal, .error (orphanError s parent)⟩ := by
      rw [← hresult]
    rw [hstep]
    exact .orphaned ho

/-- A set of names that has the disabled states, and with a state all that are directly below it. -/
def Spreads (c : Chart) (names : Set String) : Prop :=
  (∀ s ∈ c.states, s.disabled = true → s.name ∈ names) ∧
    ∀ s ∈ c.states, ∀ parent ∈ s.parent, parent ∈ names → s.name ∈ names

def disabledNames (c : Chart) : Set String :=
  {name | ∃ s ∈ c.states, s.name = name ∧ s.disabled = true}

theorem Spreads.lost {c : Chart} {names : Set String} (h : Spreads c names) {name : String}
    (hl : Lost c name) : name ∈ names := by
  obtain ⟨a, s, hup, hs, hoff⟩ := hl
  induction hup using ReflTransGen.head_induction_on with
  | refl =>
    obtain ⟨hmem, rfl⟩ := Chart.mem_of_state? hs
    exact h.1 s hmem hoff
  | @head name parent hp _ ih =>
    obtain ⟨t, ht, hparent⟩ := hp
    obtain ⟨hmem, rfl⟩ := Chart.mem_of_state? ht
    exact h.2 t hmem parent hparent ih

theorem spreads_lost {c : Chart} (hd : (c.states.map State.name).Nodup) :
    Spreads c {name | Lost c name} :=
  ⟨fun _ hs hoff => lost_of_disabled hd hs hoff,
    fun s hs _ hp hl => hl.under ⟨s, Chart.state?_eq_some hd hs, hp⟩⟩

structure Pruned (c : Chart) (j : Journal) (d : Chart) : Prop where
  frame : d = { c with states := d.states }
  disabling : Disabling c.states d.states
  disabled_iff : ∀ s ∈ d.states, s.disabled = true ↔ Lost c s.name
  least : IsLeast {names | Spreads c names} (disabledNames d)
  told : ∃ gone : List State, gone.Nodup ∧ (∀ s, s ∈ gone ↔ s ∈ c.enabledStates ∧ Lost c s.name) ∧
    j = gone.map cascadeEntry

theorem Lost.declared {c : Chart} {name : String} (h : Lost c name) :
    ∃ s ∈ c.states, s.name = name := by
  obtain ⟨a, s, hup, hs, -⟩ := h
  rcases hup.cases_head with rfl | ⟨_, ⟨t, ht, -⟩, -⟩
  · exact ⟨s, Chart.mem_of_state? hs⟩
  · exact ⟨t, Chart.mem_of_state? ht⟩

theorem Drained.disabledNames_eq {c d : Chart} {j : Journal}
    (hd : (c.states.map State.name).Nodup) (h : Drained c j d) :
    disabledNames d = {name | Lost c name} := by
  ext name
  constructor
  · intro hn
    obtain ⟨s, hs, rfl, hoff⟩ := hn
    exact h.cascaded.lost s hs hoff
  · intro hl
    obtain ⟨s, hs, rfl⟩ := Lost.declared hl
    obtain ⟨s', hs', hor⟩ := forall₂_exists_right h.cascaded.disabling hs
    have hname : s'.name = s.name := by rcases hor with rfl | rfl <;> rfl
    exact ⟨s', hs', hname, h.disabled_of_lost hd hs' (hname ▸ hl)⟩

theorem Drained.mem_told {c d : Chart} {j : Journal} (hd : (c.states.map State.name).Nodup)
    (h : Drained c j d) {gone : List State}
    (hperm : c.enabledStates.Perm (gone ++ d.enabledStates)) :
    gone.Nodup ∧ ∀ s, s ∈ gone ↔ s ∈ c.enabledStates ∧ Lost c s.name := by
  have hnodup : (gone ++ d.enabledStates).Nodup := hperm.nodup_iff.1 (hd.of_map.filter _)
  obtain ⟨hgone, -, hdisjoint⟩ := List.nodup_append'.1 hnodup
  refine ⟨hgone, fun s => ?_⟩
  constructor
  · intro hs
    have henabled : s ∈ c.enabledStates := hperm.mem_iff.2 (List.mem_append_left _ hs)
    obtain ⟨hmem, he⟩ := Chart.mem_enabledStates.1 henabled
    refine ⟨henabled, ?_⟩
    obtain ⟨s', hs', rfl | rfl⟩ := forall₂_exists_right h.cascaded.disabling hmem
    · exact absurd (Chart.mem_enabledStates.2 ⟨hs', he⟩) (hdisjoint hs)
    · exact h.cascaded.lost { s with disabled := true } hs' rfl
  · intro hs
    obtain ⟨hs, hl⟩ := hs
    rcases List.mem_append.1 (hperm.mem_iff.1 hs) with hs | hs
    · exact hs
    · obtain ⟨hmem, hon⟩ := Chart.mem_enabledStates.1 hs
      simp [h.disabled_of_lost hd hmem hl] at hon

theorem Drained.pruned {c d : Chart} {j : Journal} (hd : (c.states.map State.name).Nodup)
    (h : Drained c j d) : Pruned c j d where
  frame := h.frame
  disabling := h.cascaded.disabling
  disabled_iff := fun _ hs => h.disabled_iff hd hs
  least := by
    rw [h.disabledNames_eq hd]
    exact ⟨spreads_lost hd, fun _ hspreads _ hl => Spreads.lost hspreads hl⟩
  told := by
    obtain ⟨gone, hperm, rfl⟩ := h.cascaded.told
    obtain ⟨hnodup, hmem⟩ := h.mem_told hd hperm
    exact ⟨gone, hnodup, hmem, rfl⟩

section Order

variable {c d : Chart} (hd : (c.states.map State.name).Nodup) (h : c.states.Perm d.states)
include hd h

theorem state?_eq_of_perm : d.state? = c.state? := by
  funext name
  cases hs : c.state? name with
  | none =>
    rw [Chart.state?_eq_none] at hs ⊢
    intro s hmem
    exact hs s (h.mem_iff.2 hmem)
  | some s =>
    obtain ⟨hmem, rfl⟩ := Chart.mem_of_state? hs
    exact Chart.state?_eq_some ((h.map _).nodup_iff.1 hd) (h.mem_iff.1 hmem)

theorem lost_eq_of_perm : Lost d = Lost c := by
  have hparent : d.Parent = c.Parent := by
    funext name parent
    rw [Chart.Parent, Chart.Parent, state?_eq_of_perm hd h]
  funext name
  rw [Lost, Lost, hparent, state?_eq_of_perm hd h]

theorem cyclic_iff_of_perm : Cyclic d ↔ Cyclic c := by
  have hparent : d.EnabledParent = c.EnabledParent := by
    funext name parent
    simp only [Chart.EnabledParent, Chart.enabledState?, state?_eq_of_perm hd h]
  rw [Cyclic, Cyclic, hparent]

omit hd in
theorem orphan_iff_of_perm {s : State} {parent : String} :
    Orphan d s parent ↔ Orphan c s parent := by
  simp only [Orphan, Chart.mem_enabledStates, h.mem_iff]

end Order

theorem Disabling.eq_map {a b : List State} (h : Disabling a b) {P : String → Prop}
    [DecidablePred P] (hP : ∀ s ∈ b, s.disabled = true ↔ P s.name) :
    b = a.map fun s => { s with disabled := decide (P s.name) } := by
  induction h with
  | nil => rfl
  | @cons s s' ss ss' hs _ ih =>
    obtain ⟨hflag, hrest⟩ := List.forall_mem_cons.1 hP
    rw [List.map_cons, ← ih hrest]
    congr 1
    have hflag : decide (P s'.name) = s'.disabled := by
      rw [Bool.eq_iff_iff, decide_eq_true_iff, hflag]
    rcases hs with rfl | rfl
    · rw [hflag]
    · exact congrArg (fun b => { s with disabled := b }) hflag.symm

open Classical in
theorem Drained.states_perm {c c' d d' : Chart} {j k : Journal}
    (hd : (c.states.map State.name).Nodup) (hperm : c.states.Perm d.states)
    (hc : Drained c j c') (hd' : Drained d k d') : c'.states.Perm d'.states := by
  have hnodup : (d.states.map State.name).Nodup := (hperm.map _).nodup_iff.1 hd
  have hlost : ∀ s ∈ d'.states, s.disabled = true ↔ Lost c s.name := by
    intro s hs
    rw [hd'.disabled_iff hnodup hs, lost_eq_of_perm hd hperm]
  rw [hc.cascaded.disabling.eq_map fun _ hs => hc.disabled_iff hd hs,
    hd'.cascaded.disabling.eq_map hlost]
  exact hperm.map _

section Outcome

variable {c : Chart} {after : Step Error Chart Unit} (hd : (c.states.map State.name).Nodup)
  (h : Verified c after)
include hd h

theorem Verified.unresolved_iff :
    (∃ context kind name, after.result = .error (.unresolved context kind name)) ↔
      Orphaned c := by
  cases h with
  | @orphaned s parent _ _ ho => exact ⟨fun _ => ⟨s, parent, ho⟩, fun _ => ⟨_, _, _, rfl⟩⟩
  | cyclic hdrained => simp [hdrained.not_orphaned hd]
  | passed hdrained => simp [hdrained.not_orphaned hd]

theorem Verified.cycle_iff :
    (∃ name, after.result = .error (.parentCycle name)) ↔ ¬ Orphaned c ∧ Cyclic c := by
  cases h with
  | @orphaned s parent _ _ ho =>
    have horphaned : Orphaned c := ⟨s, parent, ho⟩
    simp [orphanError, horphaned]
  | cyclic hdrained hcyclic => simp [hdrained.not_orphaned hd, hcyclic]
  | passed hdrained hcyclic => simp [hcyclic]

theorem Verified.ok_iff : after.result = .ok () ↔ ¬ Orphaned c ∧ ¬ Cyclic c := by
  cases h with
  | @orphaned s parent _ _ ho =>
    have horphaned : Orphaned c := ⟨s, parent, ho⟩
    simp [horphaned]
  | cyclic hdrained hcyclic => simp [hcyclic]
  | passed hdrained hcyclic => simp [hdrained.not_orphaned hd, hcyclic]

open Classical in
theorem Verified.kind_eq :
    after.result.mapError Error.category =
      if Orphaned c then .error .unresolvedReference
      else if Cyclic c then .error .structuralInconsistency else .ok () := by
  cases h with
  | @orphaned s parent _ _ ho =>
    have horphaned : Orphaned c := ⟨s, parent, ho⟩
    rw [if_pos horphaned]
    rfl
  | cyclic hdrained hcyclic =>
    rw [if_neg (hdrained.not_orphaned hd), if_pos hcyclic]
    rfl
  | passed hdrained hcyclic =>
    rw [if_neg (hdrained.not_orphaned hd), if_neg hcyclic]
    rfl

omit hd in
theorem Verified.drained (hok : after.result = .ok ()) : Drained c after.journal after.state := by
  cases h with
  | orphaned => cases hok
  | cyclic => cases hok
  | passed hdrained => exact hdrained

end Outcome

/-- An unknown parent is found before a cycle. Without either the lost states are disabled, in
whatever order the states are declared. -/
theorem hierarchy_exact {c : Chart} (hd : (c.states.map State.name).Nodup) :
    let after := verifyStateParents c
    Loops c (cascade (c.states.length + 1) c) ∧
      ((∃ context kind name, after.result = .error (.unresolved context kind name)) ↔
        Orphaned c) ∧
      ((∃ name, after.result = .error (.parentCycle name)) ↔ ¬ Orphaned c ∧ Cyclic c) ∧
      (after.result = .ok () ↔ ¬ Orphaned c ∧ ¬ Cyclic c) ∧
      (after.result = .ok () → Pruned c after.journal after.state) ∧
      ∀ d : Chart, c.states.Perm d.states →
        (verifyStateParents d).result.mapError Error.category =
            after.result.mapError Error.category ∧
          (after.result = .ok () →
            after.state.states.Perm (verifyStateParents d).state.states) := by
  have hc := verified hd
  refine ⟨loops_cascade (enabledCount_lt _), hc.unresolved_iff hd, hc.cycle_iff hd, hc.ok_iff hd,
    fun hok => (hc.drained hok).pruned hd, fun d hperm => ?_⟩
  have hnodup : (d.states.map State.name).Nodup := (hperm.map _).nodup_iff.1 hd
  have hd' := verified hnodup
  have horphaned : Orphaned d ↔ Orphaned c := by
    simp only [Orphaned, orphan_iff_of_perm hperm]
  have hcyclic := cyclic_iff_of_perm hd hperm
  constructor
  · rw [hc.kind_eq hd, hd'.kind_eq hnodup]
    classical exact if_congr horphaned rfl (if_congr hcyclic rfl rfl)
  · intro hok
    have hok' : (verifyStateParents d).result = .ok () := by
      rw [hd'.ok_iff hnodup, horphaned, hcyclic]
      exact (hc.ok_iff hd).1 hok
    exact (hc.drained hok).states_perm hd hperm (hd'.drained hok')

/-- A disabled state with two below it, the lower one first, so that a second round is needed. -/
def burrow : Chart where
  name := "Burrow"
  states :=
    [⟨"STATE_1", "Nook", some "Den", .simple, .absent, .absent, .absent, false⟩,
      ⟨"STATE_2", "Den", some "Tunnel", .hierarchical, .absent, .absent, .absent, false⟩,
      ⟨"STATE_3", "Tunnel", none, .concurrent, .absent, .absent, .absent, true⟩,
      ⟨"STATE_4", "Meadow", none, .simple, .absent, .absent, .absent, false⟩]

theorem burrow_hierarchy :
    (burrow.states.map State.name).Nodup ∧ (verifyStateParents burrow).result = .ok () ∧
      ¬ Orphaned burrow ∧ ¬ Cyclic burrow ∧
      Pruned burrow (verifyStateParents burrow).journal (verifyStateParents burrow).state ∧
      (verifyStateParents burrow).state.states.map State.disabled = [true, true, true, false] ∧
      (verifyStateParents { burrow with states := burrow.states.reverse }).result.mapError
          Error.category = .ok () := by
  have hnodup : (burrow.states.map State.name).Nodup := by decide
  have hok : (verifyStateParents burrow).result = .ok () := ok_of_toOption (by decide +kernel)
  obtain ⟨-, -, -, hiff, hpruned, horder⟩ := hierarchy_exact hnodup
  obtain ⟨horphaned, hcyclic⟩ := hiff.1 hok
  refine ⟨hnodup, hok, horphaned, hcyclic, hpruned hok, by decide +kernel, ?_⟩
  rw [(horder _ (List.reverse_perm _).symm).1, hok]
  rfl

end Statechart.Validation
