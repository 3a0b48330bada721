import Statechart.Proofs.Validation.Checks
import Statechart.Proofs.Validation.References

/-!
Events of end transitions.

The check on them runs before events are qualified, and compares what the events mean. Qualifying a
transition leaves that alone (`Respelled`), so the check comes to the same verdict afterwards.
-/
set_option autoImplicit false

namespace Statechart.Validation

structure Respelled (c : Chart) (t t' : Transition) : Prop where
  name : t'.name = t.name
  source : t'.source = t.source
  target : t'.target = t.target
  event : t'.event.map (normalizedEvent c) = t.event.map (normalizedEvent c)

theorem respelled_of_qualified {c : Chart} (hn : PlainNames c.groups) {t t' : Transition}
    {j : Journal} (h : qualified c t = .ok (t', j)) : Respelled c t t' := by
  rcases qualified_cases h with ⟨-, rfl, -⟩ | ⟨event, r, hevent, hr, rfl, -⟩
  · exact ⟨rfl, rfl, rfl, rfl⟩
  · have hagain : lookupEvent c.groups "" r.qualified = .ok ⟨r.qualified, false⟩ :=
      lookupEvent_eq_ok_iff.2 ((lookupEvent_eq_ok_iff.1 hr).again hn)
    refine ⟨rfl, rfl, rfl, ?_⟩
    rw [hevent, Option.map_some, Option.map_some, normalizedEvent_of_lookup hr,
      normalizedEvent_of_lookup hagain]

theorem exists_pass {treat : Treatment} {ts : List Transition}
    (h : ∀ t ∈ ts, t.disabled = false → ∃ r, treat t = .ok r) : ∃ ts' j, Pass treat ts ts' j := by
  induction ts with
  | nil => exact ⟨[], [], .nil⟩
  | cons t ts ih =>
    obtain ⟨ht, hts⟩ := List.forall_mem_cons.1 h
    obtain ⟨ts', j, hpass⟩ := ih hts
    cases hd : t.disabled with
    | true => exact ⟨t :: ts', j, .skip hd hpass⟩
    | false =>
      obtain ⟨⟨t', j'⟩, htreat⟩ := ht hd
      exact ⟨t' :: ts', j' ++ j, .step hd htreat hpass⟩

theorem Pass.enabled {treat : Treatment} {ts ts' : List Transition} {j : Journal}
    (h : Pass treat ts ts' j)
    (hflag : ∀ {t t' j}, treat t = .ok (t', j) → t'.disabled = t.disabled) :
    List.Forall₂ (fun t t' => ∃ j, treat t = .ok (t', j)) (ts.filter (!·.disabled))
      (ts'.filter (!·.disabled)) := by
  induction h with
  | nil => exact .nil
  | skip hd _ ih => simpa [hd] using ih
  | step he htreat _ ih =>
    have he' := (hflag htreat).trans he
    rw [List.filter_cons_of_pos (by simp [he]), List.filter_cons_of_pos (by simp [he'])]
    exact .cons ⟨_, htreat⟩ ih

theorem respelled_of_pass {c : Chart} (hn : PlainNames c.groups) {ts : List Transition}
    {j : Journal} (h : Pass (qualified c) c.transitions ts j) :
    List.Forall₂ (Respelled c) c.enabledTransitions
      ({ c with transitions := ts } : Chart).enabledTransitions := by
  refine (h.enabled fun hq => (qualified_ends hq).2.2).imp ?_
  intro t t' hq
  obtain ⟨j, hq⟩ := hq
  exact respelled_of_qualified hn hq

/-- What the check finds: a reused event, or whether the chart has an end. -/
def endVerdict (c : Chart) : Except Error Bool :=
  (endEventReuse? c (endTransitions c)).elim (.ok !(endTransitions c).isEmpty) .error

theorem checkEndEventReuse_eq (c : Chart) : checkEndEventReuse c = ⟨c, [], endVerdict c⟩ := by
  simp only [checkEndEventReuse, Work.bind_apply, Work.get, endVerdict]
  cases endEventReuse? c (endTransitions c) with
  | none => rfl
  | some e => rfl

theorem normalizedEvent_congr {c d : Chart} (h : d.groups = c.groups) :
    normalizedEvent d = normalizedEvent c := by
  funext e
  simp only [normalizedEvent, h]

section Respelled

variable {c d : Chart} (hgroups : d.groups = c.groups)
  (h : List.Forall₂ (Respelled c) c.enabledTransitions d.enabledTransitions)
include hgroups h

theorem reuse?_respelled (event : String) {f : Transition → Error}
    (hf : ∀ {t t'}, Respelled c t t' → f t' = f t) :
    (reuse? d event).map f = (reuse? c event).map f := by
  refine forall₂_map_find? h ?_ hf
  intro t t' hr
  have hany : ∀ u : Transition, (u.event.any fun e => normalizedEvent c e == event) =
      (u.event.map (normalizedEvent c)).any (· == event) := by
    intro u
    rw [Option.any_map]
  rw [normalizedEvent_congr hgroups, hany, hany, hr.event, hr.target]

theorem endEventReuse?_respelled {ts ts' : List Transition}
    (hts : List.Forall₂ (Respelled c) ts ts') : endEventReuse? d ts' = endEventReuse? c ts := by
  induction hts with
  | nil => rfl
  | @cons t t' ts ts' hr _ ih =>
    have hevent : t'.event.map (normalizedEvent d) = t.event.map (normalizedEvent c) := by
      rw [normalizedEvent_congr hgroups, hr.event]
    rw [endEventReuse?, endEventReuse?, hevent]
    cases t.event.map (normalizedEvent c) with
    | none => exact ih
    | some event =>
      have hreuse := reuse?_respelled hgroups h event
        (f := fun other => .reusedEndEvent other.name event other.source.label)
        (fun hr => by rw [hr.name, hr.source])
      cases hc : reuse? c event with
      | none =>
        rw [hc, Option.map_none, Option.map_eq_none_iff] at hreuse
        simpa only [hc, hreuse] using ih
      | some other =>
        rw [hc, Option.map_some, Option.map_eq_some_iff] at hreuse
        obtain ⟨other', hd, herror⟩ := hreuse
        simp only [hc, hd, herror]

omit hgroups in
theorem endTransitions_respelled :
    List.Forall₂ (Respelled c) (endTransitions c) (endTransitions d) := by
  refine List.rel_filter ?_ h
  intro t t' hr
  simp [hr.target]

theorem endVerdict_respelled : endVerdict d = endVerdict c := by
  have hends := endTransitions_respelled h
  have hempty : (endTransitions d).isEmpty = (endTransitions c).isEmpty := by
    rw [Bool.eq_iff_iff, List.isEmpty_iff_length_eq_zero, List.isEmpty_iff_length_eq_zero,
      hends.length_eq]
  rw [endVerdict, endVerdict, endEventReuse?_respelled hgroups h hends, hempty]

end Respelled

theorem endEventReuse?_eq_some {c : Chart} {ts : List Transition} {e : Error}
    (h : endEventReuse? c ts = some e) :
    ∃ name event state, e = .reusedEndEvent name event state := by
  induction ts with
  | nil => simp [endEventReuse?] at h
  | cons t ts ih =>
    rw [endEventReuse?] at h
    split at h
    · exact ih h
    · split at h
      · cases h
        exact ⟨_, _, _, rfl⟩
      · exact ih h

/-- An end transition and another one have events that mean the same, however they are written. -/
def EndEventReused (c : Chart) : Prop :=
  ∃ t ∈ c.enabledTransitions, ∃ u ∈ c.enabledTransitions, t.target = .stop ∧ u.target ≠ .stop ∧
    ∃ e f q, t.event = some e ∧ u.event = some f ∧
      (∃ w, Denotes c.groups e q w) ∧ ∃ w, Denotes c.groups f q w

theorem normalizedEvent_eq_iff {c : Chart} {context event q : String} {r : Resolved}
    (h : lookupEvent c.groups context event = .ok r) :
    normalizedEvent c event = q ↔ ∃ w, Denotes c.groups event q w := by
  rw [normalizedEvent_of_lookup h]
  constructor
  · rintro rfl
    exact ⟨r.unqualified, lookupEvent_eq_ok_iff.1 h⟩
  · rintro ⟨w, hdenotes⟩
    have hlookup : lookupEvent c.groups context event = .ok ⟨q, w⟩ :=
      lookupEvent_eq_ok_iff.2 hdenotes
    rw [h] at hlookup
    cases hlookup
    rfl

def Resolves (c : Chart) : Prop :=
  ∀ t ∈ c.enabledTransitions, ∀ e, t.event = some e →
    ∃ r, lookupEvent c.groups t.name e = .ok r

theorem endEventsApart_iff {c : Chart} (h : Resolves c) :
    EndEventsApart c ↔ ¬ EndEventReused c := by
  constructor
  · rintro hapart ⟨t, ht, u, hu, hstop, hstate, e, f, q, he, hf, hq, hq'⟩
    obtain ⟨r, hr⟩ := h t ht e he
    obtain ⟨r', hr'⟩ := h u hu f hf
    refine hapart t ht u hu hstop hstate e he f hf ?_
    rw [(normalizedEvent_eq_iff hr).2 hq, (normalizedEvent_eq_iff hr').2 hq']
  · intro hreused t ht u hu hstop hstate e he f hf heq
    obtain ⟨r, hr⟩ := h t ht e he
    obtain ⟨r', hr'⟩ := h u hu f hf
    exact hreused ⟨t, ht, u, hu, hstop, hstate, e, f, _, he, hf,
      (normalizedEvent_eq_iff hr).1 heq, (normalizedEvent_eq_iff hr').1 rfl⟩

theorem endVerdict_error_iff {c : Chart} (h : Resolves c) :
    (∃ name event state, endVerdict c = .error (.reusedEndEvent name event state)) ↔
      EndEventReused c := by
  rw [← not_iff_not, ← endEventsApart_iff h, ← endEventReuse?_endTransitions, endVerdict]
  cases hfault : endEventReuse? c (endTransitions c) with
  | none => simp
  | some e =>
    obtain ⟨name, event, state, rfl⟩ := endEventReuse?_eq_some hfault
    simp

theorem endVerdict_ok_iff {c : Chart} (h : Resolves c) {hasEnd : Bool} :
    endVerdict c = .ok hasEnd ↔
      ¬ EndEventReused c ∧ (hasEnd = true ↔ ∃ t ∈ c.enabledTransitions, t.target = .stop) := by
  have hend : (!(endTransitions c).isEmpty) = true ↔
      ∃ t ∈ c.enabledTransitions, t.target = .stop := by
    simp [endTransitions]
  rw [← endEventsApart_iff h, ← endEventReuse?_endTransitions, ← hend, ← Bool.eq_iff_iff,
    endVerdict]
  cases endEventReuse? c (endTransitions c) with
  | none => simp [eq_comm]
  | some e => simp

theorem exists_resolved {c : Chart} (h : Resolves c) :
    ∃ ts j, Pass (qualified c) c.transitions ts j := by
  refine exists_pass fun t ht hon => ?_
  cases he : t.event with
  | none => exact ⟨(t, []), by simp [qualified, he]⟩
  | some e =>
    obtain ⟨r, hr⟩ := h t (Chart.mem_enabledTransitions.2 ⟨ht, hon⟩) e he
    refine ⟨({ t with event := some r.qualified }, resolutionEntries t.name e r), ?_⟩
    simp only [qualified, he, hr, Except.map]

/-- Where the events of a chart can be resolved, the check refuses it exactly if an end transition
and another one have events that mean the same, and it does so before and after they are
qualified. -/
theorem end_events_compared_by_meaning {c : Chart} (hn : PlainNames c.groups) (h : Resolves c) :
    ∃ verdict j d, checkEndEventReuse c = ⟨c, [], verdict⟩ ∧
      resolveTransitionEvents.Yields c () j d ∧ checkEndEventReuse d = ⟨d, [], verdict⟩ ∧
      ((∃ name event state, verdict = .error (.reusedEndEvent name event state)) ↔
        EndEventReused c) ∧
      ∀ hasEnd, verdict = .ok hasEnd ↔
        ¬ EndEventReused c ∧ (hasEnd = true ↔ ∃ t ∈ c.enabledTransitions, t.target = .stop) := by
  obtain ⟨ts, j, hpass⟩ := exists_resolved h
  have hsame : endVerdict { c with transitions := ts } = endVerdict c :=
    endVerdict_respelled rfl (respelled_of_pass hn hpass)
  refine ⟨endVerdict c, j, { c with transitions := ts }, checkEndEventReuse_eq c,
    resolveTransitionEvents_yields.2 ⟨ts, hpass, rfl⟩, ?_, endVerdict_error_iff h,
    fun hasEnd => endVerdict_ok_iff h⟩
  rw [checkEndEventReuse_eq, hsame]

/-- A stroke that ends the chart and starts it, written in two ways, and a disabled transition on an
event that no group has. -/
def gong : Chart where
  name := "Gong"
  states :=
    [⟨"STATE_1", "Idle", none, .simple, .absent, .absent, .absent, false⟩,
      ⟨"STATE_2", "Ringing", none, .simple, .absent, .absent, .absent, false⟩]
  groups :=
    [⟨"EVENTS_1", "Key", some 1, ["press"], []⟩, ⟨"EVENTS_2", "Mallet", some 10, ["hit"], []⟩]
  transitions :=
    [⟨"TRANSITION_1", .start, .state "Idle", none, .absent, .absent, false⟩,
      ⟨"TRANSITION_2", .state "Ringing", .stop, some " hit ", .absent, .absent, false⟩,
      ⟨"TRANSITION_3", .state "Idle", .state "Ringing", some "Mallet . hit", .absent, .absent,
        false⟩,
      ⟨"TRANSITION_4", .state "Idle", .stop, some "wave", .absent, .absent, true⟩]

theorem gong_end_event_reused :
    PlainNames gong.groups ∧ Resolves gong ∧ EndEventReused gong ∧
      ∃ name event state j d,
        (checkEndEventReuse gong).result = .error (.reusedEndEvent name event state) ∧
        resolveTransitionEvents.Yields gong () j d ∧
        (checkEndEventReuse d).result = .error (.reusedEndEvent name event state) := by
  have hnames : PlainNames gong.groups := ⟨by decide, by decide⟩
  have hresolves : Resolves gong := by
    have hall : ∀ t ∈ gong.enabledTransitions, ∀ e ∈ t.event,
        (lookupEvent gong.groups t.name e).toOption.isSome = true := by
      decide +kernel
    intro t ht e he
    exact exists_of_toOption (hall t ht e he)
  have hbare : lookupEvent gong.groups "" " hit " = .ok ⟨"Mallet.hit", true⟩ :=
    ok_of_toOption (by decide +kernel)
  have hpoint : lookupEvent gong.groups "" "Mallet . hit" = .ok ⟨"Mallet.hit", false⟩ :=
    ok_of_toOption (by decide +kernel)
  have hreused : EndEventReused gong :=
    ⟨_, .tail _ (.head _), _, .tail _ (.tail _ (.head _)), rfl, by decide, " hit ", "Mallet . hit",
      "Mallet.hit", rfl, rfl, ⟨_, lookupEvent_eq_ok_iff.1 hbare⟩, _, lookupEvent_eq_ok_iff.1 hpoint⟩
  obtain ⟨verdict, j, d, hbefore, hyields, hafter, herror, -⟩ :=
    end_events_compared_by_meaning hnames hresolves
  obtain ⟨name, event, state, rfl⟩ := herror.2 hreused
  exact ⟨hnames, hresolves, hreused, name, event, state, j, d, by rw [hbefore], hyields,
    by rw [hafter]⟩

end Statechart.Validation
