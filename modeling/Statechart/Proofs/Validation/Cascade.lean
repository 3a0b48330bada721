import Statechart.Proofs.Lists
import Statechart.Proofs.Validation.Ancestors

/-!
What the cascade does to the states.

A state is lost if it is disabled or has a disabled ancestor. Only lost states are disabled along
the way, each with one warning; and where a round changes nothing, a state that is left enabled has
no disabled ancestor. So the cascade ends with the lost states disabled and no others, and a cycle
of enabled states is left as it is.
-/
set_option autoImplicit false

namespace Statechart.Validation

open Relation

def round : Check (List Bool) :=
  Work.get >>= fun c => Work.collect cascadeAt (List.range c.states.length)

/-- The loop without a bound: one more round after every round that changes something. -/
inductive Loops : Chart → Step Error Chart Unit → Prop where
  | stop {c d : Chart} {changes : List Bool} {j : Journal} :
      round.Yields c changes j d → changes.any id = false → Loops c ⟨d, j, .ok ()⟩
  | again {c d : Chart} {changes : List Bool} {j : Journal} {after : Step Error Chart Unit} :
      round.Yields c changes j d → changes.any id = true → Loops d after →
      Loops c ⟨after.state, j ++ after.journal, after.result⟩
  | fail {c : Chart} {e : Error} : (round c).result = .error e →
      Loops c ⟨(round c).state, (round c).journal, .error e⟩

theorem round_lt {c d : Chart} {changes : List Bool} {j : Journal}
    (h : round.Yields c changes j d) (hany : changes.any id = true) :
    enabledCount d.states < enabledCount c.states := by
  rw [round, Work.yields_get_bind] at h
  simpa only [hany, if_true] using round_progress h

/-- The loop ends before more rounds are made than there are enabled states. -/
theorem loops_cascade {c : Chart} {rounds : Nat} (h : enabledCount c.states < rounds) :
    Loops c (cascade rounds c) := by
  induction rounds generalizing c with
  | zero => omega
  | succ rounds ih =>
    have hsucc : cascade (rounds + 1) =
        (round >>= fun changes => if changes.any id then cascade rounds else pure ()) := rfl
    rw [hsucc, Work.bind_apply]
    cases hr : (round c).result with
    | error e => exact .fail hr
    | ok changes =>
      have hround := Work.yields_of_result hr
      cases hany : changes.any id with
      | false =>
        have hstop := Loops.stop hround hany
        simpa [hany] using hstop
      | true =>
        have hlt := round_lt hround hany
        have hagain := Loops.again hround hany (ih (c := (round c).state) (by omega))
        simpa [hany] using hagain

theorem Disabling.find? {a b : List State} (h : Disabling a b) (name : String) :
    (a.find? (·.name == name) = none ∧ b.find? (·.name == name) = none) ∨
      ∃ s s', a.find? (·.name == name) = some s ∧ b.find? (·.name == name) = some s' ∧
        (s' = s ∨ s' = { s with disabled := true }) := by
  induction h with
  | nil => exact .inl ⟨rfl, rfl⟩
  | @cons s s' ss ss' hs _ ih =>
    have hname : s'.name = s.name := by rcases hs with rfl | rfl <;> rfl
    by_cases heq : s.name = name
    · exact .inr ⟨s, s', by simp [heq], by simp [hname, heq], hs⟩
    · simpa [List.find?_cons, hname, heq] using ih

section Lookups

variable {c d : Chart} (h : Disabling c.states d.states)
include h

theorem Disabling.exists_state? {name : String} {s : State} (hs : c.state? name = some s) :
    ∃ s', d.state? name = some s' ∧ (s' = s ∨ s' = { s with disabled := true }) := by
  rcases h.find? name with ⟨hnone, -⟩ | ⟨t, t', ht, ht', hor⟩
  · rw [Chart.state?, hnone] at hs
    cases hs
  · rw [Chart.state?, ht, Option.some.injEq] at hs
    exact ⟨t', ht', hs ▸ hor⟩

theorem Disabling.of_state? {name : String} {s' : State} (hs : d.state? name = some s') :
    ∃ s, c.state? name = some s ∧ (s' = s ∨ s' = { s with disabled := true }) := by
  rcases h.find? name with ⟨-, hnone⟩ | ⟨t, t', ht, ht', hor⟩
  · rw [Chart.state?, hnone] at hs
    cases hs
  · rw [Chart.state?, ht', Option.some.injEq] at hs
    exact ⟨t, ht, hs ▸ hor⟩

theorem Disabling.parent_eq : d.Parent = c.Parent := by
  funext name parent
  apply propext
  constructor
  · intro hp
    obtain ⟨s', hs', hp⟩ := hp
    obtain ⟨s, hs, rfl | rfl⟩ := h.of_state? hs'
    · exact ⟨s', hs, hp⟩
    · exact ⟨s, hs, hp⟩
  · intro hp
    obtain ⟨s, hs, hp⟩ := hp
    obtain ⟨s', hs', rfl | rfl⟩ := h.exists_state? hs
    · exact ⟨s', hs', hp⟩
    · exact ⟨_, hs', hp⟩

theorem Disabling.enabledState? {name : String} {s : State} (hs : d.enabledState? name = some s) :
    c.enabledState? name = some s := by
  obtain ⟨hs, he⟩ := Chart.enabledState?_eq_some.1 hs
  obtain ⟨t, ht, rfl | rfl⟩ := h.of_state? hs
  · exact Chart.enabledState?_eq_some.2 ⟨ht, he⟩
  · simp at he

theorem Disabling.state?_eq_none {name : String} : d.state? name = none ↔ c.state? name = none := by
  rcases h.find? name with ⟨hc, hd⟩ | ⟨s, s', hs, hs', -⟩
  · simp [Chart.state?, hc, hd]
  · simp [Chart.state?, hs, hs']

end Lookups

def Lost (c : Chart) (name : String) : Prop :=
  ∃ a s, ReflTransGen c.Parent name a ∧ c.state? a = some s ∧ s.disabled = true

theorem lost_of_disabled {c : Chart} (hd : (c.states.map State.name).Nodup) {s : State}
    (hs : s ∈ c.states) (hoff : s.disabled = true) : Lost c s.name :=
  ⟨s.name, s, .refl, Chart.state?_eq_some hd hs, hoff⟩

theorem Lost.under {c : Chart} {name parent : String} (h : Lost c parent)
    (hp : c.Parent name parent) : Lost c name := by
  obtain ⟨a, s, hup, hs, hoff⟩ := h
  exact ⟨a, s, .head hp hup, hs, hoff⟩

def cascadeEntry (s : State) : Entry :=
  let parent := s.parent.getD ""
  .warning ⟨.cascadingDisable, s!"state {s.name} disabled because its parent {parent} is disabled"⟩

/-- What a part of the cascade may do: it disables lost states, with one warning for each. -/
structure Cascaded (c : Chart) (j : Journal) (d : Chart) : Prop where
  disabling : Disabling c.states d.states
  lost : ∀ s ∈ d.states, s.disabled = true → Lost c s.name
  told : ∃ gone, c.enabledStates.Perm (gone ++ d.enabledStates) ∧ j = gone.map cascadeEntry

theorem Cascaded.refl {c : Chart} (hd : (c.states.map State.name).Nodup) : Cascaded c [] c where
  disabling := Disabling.refl _
  lost := fun _ hs hoff => lost_of_disabled hd hs hoff
  told := ⟨[], by simp, rfl⟩

theorem Cascaded.trans {c d e : Chart} {j k : Journal} (h₁ : Cascaded c j d)
    (h₂ : Cascaded d k e) : Cascaded c (j ++ k) e where
  disabling := h₁.disabling.trans h₂.disabling
  lost := by
    intro s hs hoff
    obtain ⟨a, t, hup, ht, htoff⟩ := h₂.lost s hs hoff
    rw [h₁.disabling.parent_eq] at hup
    obtain ⟨hmem, rfl⟩ := Chart.mem_of_state? ht
    obtain ⟨b, u, hup', hu, huoff⟩ := h₁.lost t hmem htoff
    exact ⟨b, u, hup.trans hup', hu, huoff⟩
  told := by
    obtain ⟨gone, hperm, rfl⟩ := h₁.told
    obtain ⟨gone', hperm', rfl⟩ := h₂.told
    refine ⟨gone ++ gone', ?_, by simp⟩
    rw [List.append_assoc]
    exact hperm.trans (hperm'.append_left gone)

theorem enabled_perm_modify {states : List State} {i : Nat} {s : State}
    (hs : states[i]? = some s) (he : s.disabled = false) :
    (states.filter (!·.disabled)).Perm
      (s :: (states.modify i fun s => { s with disabled := true }).filter (!·.disabled)) := by
  induction states generalizing i with
  | nil => simp at hs
  | cons t ts ih =>
    cases i with
    | zero =>
      obtain rfl : t = s := by simpa using hs
      simp [he]
    | succ i =>
      have hperm := ih (by simpa using hs)
      rw [List.modify_succ_cons]
      cases ht : t.disabled with
      | true => simpa [ht] using hperm
      | false =>
        simp only [List.filter_cons, ht, Bool.not_false, if_true]
        exact (hperm.cons t).trans (List.Perm.swap s t _)

theorem CascadeStep.cascaded {c d : Chart} (hd : (c.states.map State.name).Nodup) {i : Nat}
    {b : Bool} {j : Journal} (h : CascadeStep c i b j d) : Cascaded c j d := by
  cases h with
  | keep => exact .refl hd
  | disable s p hget he hparent hoff =>
    obtain ⟨parent, hparent, hp⟩ := Option.bind_eq_some_iff.1 hparent
    obtain ⟨hpmem, rfl⟩ := Chart.mem_of_state? hp
    have hmem := List.mem_of_getElem? hget
    refine ⟨Disabling.modify _ _, ?_, [s], enabled_perm_modify hget he, ?_⟩
    · intro t ht htoff
      rw [disableState, List.modify_eq_set_getElem?, hget] at ht
      rcases List.mem_or_eq_of_mem_set ht with ht | rfl
      · exact lost_of_disabled hd ht htoff
      · exact (lost_of_disabled hd hpmem hoff).under ⟨s, Chart.state?_eq_some hd hmem, hparent⟩
    · simp [cascadeEntry, hparent]

theorem cascade_cascaded {c d : Chart} (hd : (c.states.map State.name).Nodup) {rounds : Nat}
    {u : Unit} {j : Journal} (h : (cascade rounds).Yields c u j d) : Cascaded c j d := by
  -- distinct names stay distinct, so they are carried along
  let R : Chart → Journal → Chart → Prop := fun c j d =>
    (c.states.map State.name).Nodup → Cascaded c j d
  refine cascade_run (R := R) (fun _ => Cascaded.refl) ?_ (fun h hd => h.cascaded hd) h hd
  intro c d e j k h₁ h₂ hc
  have hcd := h₁ hc
  exact hcd.trans (h₂ (hcd.disabling.names_eq ▸ hc))

def Orphan (c : Chart) (s : State) (parent : String) : Prop :=
  s ∈ c.enabledStates ∧ s.parent = some parent ∧ ∀ p ∈ c.states, p.name ≠ parent

def Orphaned (c : Chart) : Prop :=
  ∃ s parent, Orphan c s parent

theorem Disabling.orphan {c d : Chart} (h : Disabling c.states d.states) {s : State}
    {parent : String} (ho : Orphan d s parent) : Orphan c s parent := by
  obtain ⟨hs, hp, hnone⟩ := ho
  obtain ⟨hmem, he⟩ := Chart.mem_enabledStates.1 hs
  refine ⟨?_, hp, ?_⟩
  · obtain ⟨t, ht, rfl | rfl⟩ := forall₂_exists_left h hmem
    · exact Chart.mem_enabledStates.2 ⟨ht, he⟩
    · simp at he
  · rw [← Chart.state?_eq_none] at hnone ⊢
    exact h.state?_eq_none.1 hnone

def orphanError (s : State) (parent : String) : Error :=
  .unresolved s.origin .parentState parent

theorem cascadeAt_fails {i : Nat} {c c' : Chart} {e : Error} (h : (cascadeAt i).Fails c e c') :
    ∃ s parent, Orphan c s parent ∧ e = orphanError s parent := by
  rw [cascadeAt, Work.fails_get_bind] at h
  cases hs : c.states[i]?.filter (!·.disabled) with
  | none => simp [hs, Work.Fails] at h
  | some s =>
    obtain ⟨hget, he⟩ : c.states[i]? = some s ∧ s.disabled = false := by
      simpa [Option.filter_eq_some_iff] using hs
    cases hp : s.parent with
    | none => simp [hs, hp, Work.Fails] at h
    | some parent =>
      cases hq : c.state? parent with
      | none =>
        simp only [hs, hp, hq, Work.fails_fail] at h
        have hmem := Chart.mem_enabledStates.2 ⟨List.mem_of_getElem? hget, he⟩
        exact ⟨s, parent, ⟨hmem, hp, Chart.state?_eq_none.1 hq⟩, h.1⟩
      | some p =>
        cases hd : p.disabled with
        | false => simp [hs, hp, hq, hd, Work.Fails] at h
        | true =>
          have hwarn : ∀ {k m} {d d' : Chart},
              ¬ (Work.warn k m >>= fun _ => pure true : Check Bool).Fails d e d' := by
            simp [Work.Fails, Work.bind_apply, Work.warn, Work.enter]
          simp only [hs, hp, hq, hd, if_true, Work.fails_modify_bind] at h
          exact absurd h hwarn

theorem round_fails {is : List Nat} {c c' : Chart} {e : Error}
    (h : (Work.collect cascadeAt is).Fails c e c') :
    ∃ s parent, Orphan c s parent ∧ e = orphanError s parent := by
  induction is generalizing c with
  | nil => exact absurd h Work.fails_collect_nil
  | cons i is ih =>
    rcases Work.fails_collect_cons.1 h with hone | ⟨_, _, d, hone, hrest⟩
    · exact cascadeAt_fails hone
    · obtain ⟨s, parent, ho, rfl⟩ := ih hrest
      exact ⟨s, parent, (CascadeStep.of_yields hone).disabling.1.orphan ho, rfl⟩

theorem cascade_fails {rounds : Nat} {c c' : Chart} {e : Error}
    (h : (cascade rounds).Fails c e c') :
    ∃ s parent, Orphan c s parent ∧ e = orphanError s parent := by
  induction rounds generalizing c with
  | zero => simp [cascade, Work.Fails] at h
  | succ rounds ih =>
    rw [cascade_succ, Work.fails_get_bind] at h
    rcases Work.fails_bind.1 h with hround | ⟨changes, _, d, hround, hnext⟩
    · exact round_fails hround
    · split at hnext
      · obtain ⟨s, parent, ho, rfl⟩ := ih hnext
        exact ⟨s, parent, (round_disabling hround).1.orphan ho, rfl⟩
      · simp [Work.Fails] at hnext

/-- What the cascade makes of a chart. -/
structure Drained (c : Chart) (j : Journal) (d : Chart) : Prop where
  frame : d = { c with states := d.states }
  settled : Settled d
  cascaded : Cascaded c j d

theorem drained_of_yields {c d : Chart} (hd : (c.states.map State.name).Nodup) {u : Unit}
    {j : Journal} (h : (cascade (c.states.length + 1)).Yields c u j d) : Drained c j d where
  frame := (cascade_disabling h).2
  settled := cascade_settled (enabledCount_lt _) h
  cascaded := cascade_cascaded hd h

theorem cycle_up {c : Chart} {name parent : String} (h : TransGen c.EnabledParent name name)
    (hp : c.Parent name parent) : TransGen c.EnabledParent parent parent := by
  obtain ⟨q, hq, hrest⟩ := TransGen.head'_iff.1 h
  obtain rfl := hp.unique hq.parent
  exact TransGen.tail' hrest hq

theorem not_lost_of_cycle {c : Chart} {name : String} (h : TransGen c.EnabledParent name name) :
    ¬ Lost c name := by
  intro hl
  obtain ⟨a, s, hup, hs, hoff⟩ := hl
  induction hup using ReflTransGen.head_induction_on with
  | refl =>
    obtain ⟨_, ⟨t, ht, -⟩, -⟩ := TransGen.head'_iff.1 h
    obtain ⟨ht, hon⟩ := Chart.enabledState?_eq_some.1 ht
    rw [hs, Option.some.injEq] at ht
    simp [← ht, hoff] at hon
  | head hp _ ih => exact ih (cycle_up h hp)

section Drained

variable {c d : Chart} {j : Journal} (hd : (c.states.map State.name).Nodup) (h : Drained c j d)
include hd h

theorem Drained.nodup : (d.states.map State.name).Nodup :=
  h.cascaded.disabling.names_eq ▸ hd

theorem Drained.disabled_of_lost {s : State} (hs : s ∈ d.states) (hl : Lost c s.name) :
    s.disabled = true := by
  obtain ⟨a, t, hup, ht, hoff⟩ := hl
  have hfound := Chart.state?_eq_some (h.nodup hd) hs
  clear hs
  generalize s.name = name at hup hfound
  -- from the disabled ancestor downwards: an enabled state would have an enabled parent
  induction hup using ReflTransGen.head_induction_on generalizing s with
  | refl =>
    obtain ⟨t', ht', hor⟩ := h.cascaded.disabling.exists_state? ht
    rw [hfound, Option.some.injEq] at ht'
    rcases hor with rfl | rfl
    · rw [ht', hoff]
    · rw [ht']
  | @head name parent hstep _ ih =>
    by_contra hon
    rw [Bool.not_eq_true] at hon
    rw [← h.cascaded.disabling.parent_eq] at hstep
    obtain ⟨t, ht, hparent⟩ := hstep
    rw [hfound, Option.some.injEq] at ht
    subst ht
    have hmem := Chart.mem_enabledStates.2 ⟨(Chart.mem_of_state? hfound).1, hon⟩
    obtain ⟨p, hp⟩ := h.settled s hmem parent hparent
    obtain ⟨hp, hpon⟩ := Chart.enabledState?_eq_some.1 hp
    simp [ih hp] at hpon

theorem Drained.disabled_iff {s : State} (hs : s ∈ d.states) : s.disabled = true ↔ Lost c s.name :=
  ⟨h.cascaded.lost s hs, h.disabled_of_lost hd hs⟩

theorem Drained.not_orphaned : ¬ Orphaned c := by
  intro ho
  obtain ⟨s, parent, hs, hp, hnone⟩ := ho
  obtain ⟨hmem, he⟩ := Chart.mem_enabledStates.1 hs
  have hfound := Chart.state?_eq_some hd hmem
  rw [← Chart.state?_eq_none] at hnone
  obtain ⟨s', hs', rfl | rfl⟩ := forall₂_exists_right h.cascaded.disabling hmem
  · obtain ⟨p, hq⟩ := h.settled s' (Chart.mem_enabledStates.2 ⟨hs', he⟩) parent hp
    obtain ⟨hq, -⟩ := Chart.enabledState?_eq_some.1 hq
    simp [h.cascaded.disabling.state?_eq_none.2 hnone] at hq
  · -- a state that was lost has a way up to a disabled one, and this way up ends at once
    obtain ⟨a, t, hup, ht, hoff⟩ := h.cascaded.lost _ hs' rfl
    rcases hup.cases_head with rfl | ⟨q, ⟨u, hu, hq⟩, hup⟩
    · rw [hfound, Option.some.injEq] at ht
      simp [← ht, he] at hoff
    · rw [hfound, Option.some.injEq] at hu
      rw [← hu, hp, Option.some.injEq] at hq
      subst hq
      rcases hup.cases_head with rfl | ⟨q, ⟨u, hu, -⟩, -⟩
      · simp [hnone] at ht
      · simp [hnone] at hu

theorem Drained.enabledParent {name parent : String} (hcycle : TransGen c.EnabledParent name name)
    (hp : c.EnabledParent name parent) : d.EnabledParent name parent := by
  obtain ⟨s, hs, hparent⟩ := hp
  obtain ⟨hs, -⟩ := Chart.enabledState?_eq_some.1 hs
  obtain ⟨s', hs', hor⟩ := h.cascaded.disabling.exists_state? hs
  obtain ⟨hmem, hname⟩ := Chart.mem_of_state? hs'
  have hon : s'.disabled = false := by
    rw [← Bool.not_eq_true, h.disabled_iff hd hmem, hname]
    exact not_lost_of_cycle hcycle
  refine ⟨s', Chart.enabledState?_eq_some.2 ⟨hs', hon⟩, ?_⟩
  rcases hor with rfl | rfl
  · exact hparent
  · exact hparent

/-- The cascade takes no cycle of enabled states, and leaves no other. -/
theorem Drained.cyclic_iff : Cyclic d ↔ Cyclic c := by
  constructor
  · intro hcyclic
    obtain ⟨name, hcycle⟩ := hcyclic
    refine ⟨name, TransGen.mono ?_ _ _ hcycle⟩
    intro a b hab
    obtain ⟨s, hs, hp⟩ := hab
    exact ⟨s, h.cascaded.disabling.enabledState? hs, hp⟩
  · intro hcyclic
    obtain ⟨name, hcycle⟩ := hcyclic
    -- every state of the cycle is on it, so none of them is lost
    have hkept : ∀ {a}, TransGen c.EnabledParent a name → TransGen c.EnabledParent a a →
        TransGen d.EnabledParent a name := by
      intro a hup
      induction hup using TransGen.head_induction_on with
      | single hab =>
        intro ha
        exact .single (h.enabledParent hd ha hab)
      | head hab _ ih =>
        intro ha
        exact .head (h.enabledParent hd ha hab) (ih (cycle_up ha hab.parent))
    exact ⟨name, hkept hcycle hcycle⟩

end Drained

end Statechart.Validation
