import Statechart.Proofs.Validation.Soundness

/-!
Validation changes nothing the second time.

A consistent chart passes every check again and is left as it is, provided that its events can be
taken apart at their points. The only warnings are on the design itself.
-/
set_option autoImplicit false

namespace Statechart.Validation

def Quiet (j : Journal) : Prop :=
  ∀ w, .warning w ∈ j → w.concern = .designSmell

theorem quiet_nil : Quiet [] := by
  simp [Quiet]

theorem quiet_note (n : Note) : Quiet [.note n] := by
  simp [Quiet]

theorem quiet_smells (messages : List String) : Quiet (Work.warningsOf .designSmell messages) := by
  intro w hw
  obtain ⟨m, -, h⟩ := List.mem_map.1 hw
  cases h
  rfl

theorem Quiet.append {j₁ j₂ : Journal} (h₁ : Quiet j₁) (h₂ : Quiet j₂) : Quiet (j₁ ++ j₂) := by
  intro w hw
  rcases List.mem_append.1 hw with hw | hw
  · exact h₁ w hw
  · exact h₂ w hw

/-- The check passes with value `a`, leaves the chart as it is and tells of no change. -/
def Idle {α : Type} (w : Check α) (a : α) (c : Chart) : Prop :=
  ∃ j, w.Yields c a j c ∧ Quiet j

theorem Idle.bind {α β : Type} {w : Check α} {k : α → Check β} {a : α} {b : β} {c : Chart}
    (hw : Idle w a c) (hk : Idle (k a) b c) : Idle (w >>= k) b c := by
  obtain ⟨j₁, hw, hj₁⟩ := hw
  obtain ⟨j₂, hk, hj₂⟩ := hk
  exact ⟨j₁ ++ j₂, Work.yields_bind.2 ⟨a, j₁, c, j₂, hw, hk, rfl⟩, hj₁.append hj₂⟩

theorem resolutionEntries_qualified (context : String) (qs : List String) :
    (List.zipWith (resolutionEntries context) qs (qs.map fun q => ⟨q, false⟩)).flatten = [] := by
  induction qs with
  | nil => rfl
  | cons q qs ih => simpa [resolutionEntries] using ih

namespace Consistent

variable {c : Chart}

theorem allocateEventIds_idle (h : Consistent c) : Idle allocateEventIds () c := by
  have hbase : ∀ g ∈ c.groups, g.base.isSome := by
    intro g hg
    rw [← h.allocated] at hg
    exact allocated_isSome hg
  refine ⟨allocationEntries c.groups, allocateEventIds_yields.2 ⟨?_, ?_, rfl, ?_⟩, ?_⟩
  · rw [fillBases_eq_self hbase]
    exact h.disjoint
  · rw [fillBases_eq_self hbase]
    exact h.positive
  · rw [h.allocated]
  · rw [allocationEntries, baseWarnings_eq_nil hbase]
    exact quiet_note _

theorem resolveSuppressed_idle (h : Consistent c) (hs : Separable c.groups) :
    Idle resolveSuppressed () c := by
  refine ⟨[], resolveSuppressed_yields.2 ⟨_, Separable.lookups hs _ h.suppressed, ?_, ?_⟩,
    quiet_nil⟩
  · rw [resolutionEntries_qualified]
  · simp [Function.comp_def]

theorem verifyStateParents_idle (h : Consistent c) : Idle verifyStateParents () c :=
  ⟨[], verifyStateParents_yields.2 ⟨cascade_yields_of_settled h.settled, h.ascends⟩, quiet_nil⟩

theorem verifyTransitionStates_idle (h : Consistent c) : Idle verifyTransitionStates () c := by
  refine ⟨[], verifyTransitionStates_yields.2 ⟨c.transitions, Pass.idle ?_, rfl⟩, quiet_nil⟩
  intro t ht he
  exact retired_eq_self (h.ends t (Chart.mem_enabledTransitions.2 ⟨ht, he⟩))

theorem verifyStartTransitions_idle (h : Consistent c) : Idle verifyStartTransitions () c :=
  ⟨_, verifyStartTransitions_yields.2 ⟨h.started, rfl, rfl⟩,
    (quiet_smells _).append (quiet_note _)⟩

/-- A resolved event is its own normal form. -/
theorem normalizedEvent_eq (h : Consistent c) (hs : Separable c.groups) {t : Transition}
    (ht : t ∈ c.enabledTransitions) {e : String} (he : t.event = some e) :
    normalizedEvent c e = e :=
  normalizedEvent_of_lookup (hs.lookupEvent_eq (h.resolved t ht e he) "")

theorem checkEndEventReuse_idle (h : Consistent c) (hs : Separable c.groups) :
    Idle checkEndEventReuse (!(endTransitions c).isEmpty) c := by
  refine ⟨[], checkEndEventReuse_yields.2 ⟨?_, rfl, rfl, rfl⟩, quiet_nil⟩
  intro t ht u hu htt hut e he f hf heq
  rw [h.normalizedEvent_eq hs ht he, h.normalizedEvent_eq hs hu hf] at heq
  exact h.end_events t ht u hu htt hut e he (heq ▸ hf)

theorem resolveTransitionEvents_idle (h : Consistent c) (hs : Separable c.groups) :
    Idle resolveTransitionEvents () c := by
  refine ⟨[], resolveTransitionEvents_yields.2 ⟨c.transitions, Pass.idle ?_, rfl⟩, quiet_nil⟩
  intro t ht he
  cases hev : t.event with
  | none => simp [qualified, hev]
  | some e =>
    have hr := h.resolved t (Chart.mem_enabledTransitions.2 ⟨ht, he⟩) e hev
    simp only [qualified, hev, hs.lookupEvent_eq hr, Except.map, resolutionEntries]
    rw [← hev]
    rfl

theorem checkCommonAncestors_idle (h : Consistent c) : Idle checkCommonAncestors () c := by
  refine ⟨[], checkCommonAncestors_yields.2 ⟨c.transitions, Pass.idle ?_, rfl⟩, quiet_nil⟩
  intro t ht he
  exact h.joins t (Chart.mem_enabledTransitions.2 ⟨ht, he⟩)

theorem events_idle (h : Consistent c) (hs : Separable c.groups) : Idle events () c :=
  h.allocateEventIds_idle.bind <| (h.resolveSuppressed_idle hs).bind
    ⟨_, verifyPorts_yields.2 ⟨rfl, rfl⟩, quiet_smells _⟩

theorem starts_idle (h : Consistent c) : Idle starts () c :=
  h.verifyStateParents_idle.bind <| h.verifyTransitionStates_idle.bind h.verifyStartTransitions_idle

theorem checkTransitions_idle (h : Consistent c) (hs : Separable c.groups) :
    Idle checkTransitions () c := by
  have hsources : Idle warnUntriggerableSources () c :=
    ⟨_, warnUntriggerableSources_yields.2 ⟨rfl, rfl⟩, quiet_smells _⟩
  have hless : Idle (checkEventless (!(endTransitions c).isEmpty)) () c :=
    ⟨_, checkEventless_yields.2 ⟨h.eventless, rfl, rfl⟩, quiet_smells _⟩
  have hends : Idle verifyEndTransitions () c :=
    ⟨[], verifyEndTransitions_yields.2 ⟨h.end_sources, rfl, rfl⟩, quiet_nil⟩
  have hreport : Idle reportDisabledTransitions () c :=
    ⟨_, reportDisabledTransitions_yields.2 ⟨rfl, rfl⟩, quiet_smells _⟩
  have hnote : Idle (Work.note .info "transitions verified" []) () c :=
    ⟨_, Work.yields_note.2 ⟨rfl, rfl⟩, quiet_note _⟩
  exact hsources.bind <| (h.checkEndEventReuse_idle hs).bind <| hless.bind <|
    (h.resolveTransitionEvents_idle hs).bind <| h.checkCommonAncestors_idle.bind <|
    hends.bind <| hreport.bind hnote

theorem all_idle (h : Consistent c) (hs : Separable c.groups) : Idle all () c :=
  (h.events_idle hs).bind <| h.starts_idle.bind (h.checkTransitions_idle hs)

end Consistent

theorem separable_allocated {groups : List EventGroup}
    (htrim : ∀ g ∈ groups, Reading.Trimmed g)
    (hpoint : ∀ g ∈ groups, Text.containsChar '.' g.name = false) :
    Separable (allocated groups) := by
  constructor
  · intro g hg
    obtain ⟨g', hg', hname, -⟩ := exists_of_mem_allocated hg
    exact hname ▸ (htrim g' hg').1
  · intro g hg
    obtain ⟨g', hg', -, hevents⟩ := exists_of_mem_allocated hg
    exact hevents ▸ (htrim g' hg').2
  · intro g hg
    obtain ⟨g', hg', hname, -⟩ := exists_of_mem_allocated hg
    exact hname ▸ hpoint g' hg'

theorem all_idempotent {label text : String} {base : Path} {read : Reading.FileReader} {c : Chart}
    (hread : (Chart.read label text base read ()).result = .ok c)
    (hall : (all c).result = .ok ())
    (hpoint : ∀ g ∈ c.groups, Text.containsChar '.' g.name = false) :
    (all (all c).state).result = .ok () ∧ (all (all c).state).state = (all c).state ∧
      ∀ w, .warning w ∈ (all (all c).state).journal →
        w.concern ≠ .autoAssignedBase ∧ w.concern ≠ .autoQualifiedEvent ∧
          w.concern ≠ .cascadingDisable := by
  obtain ⟨hcons, hgroups, -, -⟩ := consistent_of_yields (Work.yields_of_result hall)
  have hsep : Separable (all c).state.groups := by
    rw [hgroups]
    exact separable_allocated (Chart.read_groups_trimmed hread) hpoint
  obtain ⟨j, hagain, hquiet⟩ := hcons.all_idle hsep
  refine ⟨hagain.result_eq, hagain.state_eq, ?_⟩
  intro w hw
  rw [hagain.journal_eq] at hw
  simp [hquiet w hw]

theorem lamp_validated_twice :
    (Chart.read "lamp" (Text.unlines lampLines) ⟨""⟩ lampFiles ()).result = .ok lamp ∧
      (all lamp).result = .ok () ∧
      (∀ g ∈ lamp.groups, Text.containsChar '.' g.name = false) ∧
      (all (all lamp).state).result = .ok () ∧ (all (all lamp).state).state = (all lamp).state ∧
      ∀ w, .warning w ∈ (all (all lamp).state).journal →
        w.concern ≠ .autoAssignedBase ∧ w.concern ≠ .autoQualifiedEvent ∧
          w.concern ≠ .cascadingDisable := by
  have hpoint : ∀ g ∈ lamp.groups, Text.containsChar '.' g.name = false := by decide +kernel
  exact ⟨lamp_read, lamp_passes, hpoint, all_idempotent lamp_read lamp_passes hpoint⟩

end Statechart.Validation
