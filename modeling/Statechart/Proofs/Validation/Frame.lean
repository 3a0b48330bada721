import Statechart.Proofs.Lists
import Statechart.Proofs.Validation.Accounting

/-!
What a validation leaves alone.

The checks change flags, bases, numbers and the spelling of events, each in its own place. Nothing
else of a chart is touched, and nothing in it is lost, added or moved.
-/
set_option autoImplicit false

namespace Statechart.Validation

def StateKept (s s' : State) : Prop :=
  s' = { s with disabled := s'.disabled } ∧ (s.disabled = true → s'.disabled = true)

def GroupKept (g g' : EventGroup) : Prop :=
  g' = { g with base := g'.base, ids := g'.ids } ∧
    ∀ base, g.base = some base → g'.base = some base

/-- An event may be spelled out, but only if its transition stays enabled to the end. -/
def TransitionKept (t t' : Transition) : Prop :=
  t' = { t with event := t'.event, disabled := t'.disabled } ∧
    (t.disabled = true → t'.disabled = true) ∧ t'.event.isSome = t.event.isSome ∧
    (t'.disabled = true → t'.event = t.event)

def SuppressedKept (groups : List EventGroup) (reference event : String) : Prop :=
  ∃ r, lookupEvent groups "SUPPRESS_PRINT" reference = .ok r ∧ event = r.qualified

structure Framed (c d : Chart) : Prop where
  name : d.name = c.name
  options : d.options = c.options
  initial : d.initial = c.initial
  transport : d.transport = c.transport
  ports : d.ports = c.ports
  states : List.Forall₂ StateKept c.states d.states
  groups : List.Forall₂ GroupKept c.groups d.groups
  suppressed : List.Forall₂ (SuppressedKept d.groups) c.suppressed d.suppressed
  transitions : List.Forall₂ TransitionKept c.transitions d.transitions

theorem Disabling.kept {a b : List State} (h : Disabling a b) : List.Forall₂ StateKept a b := by
  refine h.imp ?_
  intro s s' hs
  rcases hs with rfl | rfl
  · exact ⟨rfl, id⟩
  · exact ⟨rfl, fun _ => rfl⟩

theorem groupKept_numbered (previous : Option Nat) (g : EventGroup) :
    GroupKept g (numbered (withBase previous g)) := by
  refine ⟨rfl, ?_⟩
  intro base hbase
  simp [numbered, withBase, hbase]

theorem fillBases_kept (previous : Option Nat) (groups : List EventGroup) :
    List.Forall₂ GroupKept groups ((fillBases previous groups).map numbered) := by
  induction groups generalizing previous with
  | nil => exact .nil
  | cons g gs ih => exact .cons (groupKept_numbered previous g) (ih _)

theorem Pass.forall₂ {treat : Treatment} {ts ts' : List Transition} {j : Journal}
    (h : Pass treat ts ts' j) :
    List.Forall₂ (fun t t' => t.disabled = true ∧ t' = t ∨
      t.disabled = false ∧ ∃ j, treat t = .ok (t', j)) ts ts' := by
  induction h with
  | nil => exact .nil
  | skip hd _ ih => exact .cons (.inl ⟨hd, rfl⟩) ih
  | step he htreat _ ih => exact .cons (.inr ⟨he, _, htreat⟩) ih

/-- What happens to one transition: it is retired, or its event is qualified, or neither. -/
theorem transitionKept_of_passes {c d : Chart} {t u v : Transition}
    (hu : t.disabled = true ∧ u = t ∨ t.disabled = false ∧ ∃ j, retired c t = .ok (u, j))
    (hv : u.disabled = true ∧ v = u ∨ u.disabled = false ∧ ∃ j, qualified d u = .ok (v, j)) :
    TransitionKept t v := by
  have hretired : u = t ∨ u = { t with disabled := true } := by
    obtain ⟨-, rfl⟩ | ⟨-, j, hj⟩ := hu
    · exact .inl rfl
    · exact (retired_cases hj).imp And.left id
  obtain ⟨hoff, rfl⟩ | ⟨hon, j, hj⟩ := hv
  · rcases hretired with rfl | rfl
    · exact ⟨rfl, id, rfl, fun _ => rfl⟩
    · exact ⟨rfl, fun _ => rfl, rfl, fun _ => rfl⟩
  · -- a transition that is enabled now was so before, and no later check disables it
    obtain rfl : u = t := by
      rcases hretired with rfl | rfl
      · rfl
      · simp at hon
    rcases qualified_cases hj with ⟨-, rfl, -⟩ | ⟨event, r, hevent, -, rfl, -⟩
    · exact ⟨rfl, id, rfl, fun _ => rfl⟩
    · refine ⟨rfl, id, by simp [hevent], ?_⟩
      intro hdisabled
      simp [hon] at hdisabled

theorem Pass.kept {c d : Chart} {ts us vs : List Transition} {j j' : Journal}
    (hr : Pass (retired c) ts us j) (hq : Pass (qualified d) us vs j') :
    List.Forall₂ TransitionKept ts vs :=
  forall₂_comp hr.forall₂ hq.forall₂ transitionKept_of_passes

/-- A validated chart: some states disabled, groups numbered, suppressed events qualified,
transitions retired and then qualified, and nothing else. -/
theorem all_parts {c d : Chart} {u : Unit} {j : Journal} (h : all.Yields c u j d) :
    ∃ rs e us c₂ j₁ j₂,
      List.Forall₂ (fun reference r =>
        lookupEvent (allocated c.groups) "SUPPRESS_PRINT" reference = .ok r) c.suppressed rs ∧
      Disabling c.states e.states ∧ Pass (retired e) c.transitions us j₁ ∧
      Pass (qualified c₂) us d.transitions j₂ ∧
      d = { c with
        states := e.states, groups := allocated c.groups, suppressed := rs.map Resolved.qualified,
        transitions := d.transitions } := by
  simp only [all, Work.yields_bind] at h
  obtain ⟨_, _, c₁, _, h₁, ⟨_, _, c₂, _, h₂, h₃, -⟩, -⟩ := h
  obtain ⟨-, -, hsettled, -, -, hends, -⟩ := starts_established h₂
  obtain ⟨rs, hrs, hc₁, -⟩ := events_parts h₁
  obtain ⟨e, _, j₁, hcascade, hretired, hc₂, -⟩ := starts_parts h₂
  obtain ⟨hdis, he⟩ := cascade_disabling hcascade
  obtain ⟨j₂, hqualified, hd, -⟩ := checkTransitions_parts hsettled hends h₃
  have hstates : c₁.states = c.states := by rw [hc₁]
  have htransitions : c₁.transitions = c.transitions := by rw [hc₁]
  rw [hstates] at hdis
  rw [htransitions] at hretired
  refine ⟨rs, e, c₂.transitions, c₂, j₁, j₂, hrs, hdis, hretired, hqualified, ?_⟩
  rw [hd, hc₂, he, hc₁]

theorem all_group_names {c d : Chart} {u : Unit} {j : Journal} (h : all.Yields c u j d) :
    d.groups.map EventGroup.name = c.groups.map EventGroup.name := by
  obtain ⟨_, _, _, _, _, _, -, -, -, -, hd⟩ := all_parts h
  rw [hd]
  refine forall₂_map_eq (fillBases_kept none c.groups) ?_
  intro g g' hkept
  rw [hkept.1]

theorem validation_framed {c : Chart} (h : (all c).result = .ok ()) : Framed c (all c).state := by
  have hall := Work.yields_of_result h
  generalize (all c).state = d at hall ⊢
  obtain ⟨rs, e, _, _, _, _, hrs, hdis, hretired, hqualified, hd⟩ := all_parts hall
  rw [hd]
  exact {
    name := rfl
    options := rfl
    initial := rfl
    transport := rfl
    ports := rfl
    states := hdis.kept
    groups := fillBases_kept none c.groups
    suppressed := List.forall₂_map_right_iff.2 (hrs.imp fun _ r hr => ⟨r, hr, rfl⟩)
    transitions := hretired.kept hqualified }

theorem lamp_framed : (all lamp).result = .ok () ∧ Framed lamp (all lamp).state :=
  ⟨lamp_passes, validation_framed lamp_passes⟩

end Statechart.Validation
