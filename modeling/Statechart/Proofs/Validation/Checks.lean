import Statechart.Proofs.Validation.Transitions
import Statechart.Validation

/-!
What a validation establishes.

The checks that change nothing are told by when they go through. Together with the passes over
states and transitions they leave a `Consistent` chart; whatever a later pass changes, it keeps what
the earlier ones have found.
-/
set_option autoImplicit false

namespace Statechart.Validation

theorem verifyStartTransitions_yields {c c' : Chart} {u : Unit} {j : Journal} :
    verifyStartTransitions.Yields c u j c' ↔
      unstarted? c = none ∧
        j = Work.warningsOf .designSmell (startWarnings c) ++
          [.note ⟨.info, "start transitions verified", []⟩] ∧
        c' = c := by
  rw [verifyStartTransitions, Work.yields_get_bind, Work.yields_warnAll_bind]
  cases unstarted? c with
  | none =>
    simp only [Work.yields_note, true_and]
    constructor
    · rintro ⟨_, ⟨rfl, rfl⟩, rfl⟩
      exact ⟨rfl, rfl⟩
    · rintro ⟨rfl, rfl⟩
      exact ⟨_, ⟨rfl, rfl⟩, rfl⟩
  | some s => simp

theorem warnUntriggerableSources_yields {c c' : Chart} {u : Unit} {j : Journal} :
    warnUntriggerableSources.Yields c u j c' ↔
      j = Work.warningsOf .designSmell ((sources c).filterMap (untriggerable? c)) ∧ c' = c := by
  rw [warnUntriggerableSources, Work.yields_get_bind, Work.yields_warnAll]

theorem endEventReuse?_eq_none {c : Chart} {ts : List Transition} :
    endEventReuse? c ts = none ↔
      ∀ t ∈ ts, ∀ event, t.event = some event → reuse? c (normalizedEvent c event) = none := by
  induction ts with
  | nil => simp [endEventReuse?]
  | cons t ts ih =>
    cases he : t.event with
    | none => simp [endEventReuse?, he, ih]
    | some event =>
      cases hr : reuse? c (normalizedEvent c event) with
      | none => simp [endEventReuse?, he, hr, ih]
      | some other => simp [endEventReuse?, he, hr]

def EndEventsApart (c : Chart) : Prop :=
  ∀ t ∈ c.enabledTransitions, ∀ u ∈ c.enabledTransitions, t.target = .stop → u.target ≠ .stop →
    ∀ e, t.event = some e → ∀ f, u.event = some f → normalizedEvent c e ≠ normalizedEvent c f

theorem endEventReuse?_endTransitions {c : Chart} :
    endEventReuse? c (endTransitions c) = none ↔ EndEventsApart c := by
  simp only [endEventReuse?_eq_none, endTransitions, List.mem_filter, decide_eq_true_eq, reuse?,
    List.find?_eq_none, Bool.and_eq_true, Option.any_eq_true, beq_iff_eq, not_and, not_exists,
    EndEventsApart]
  constructor
  · intro h t ht u hu htt hut e he f hf heq
    exact h t ⟨ht, htt⟩ e he u hu hut f hf heq.symm
  · rintro h t ⟨ht, htt⟩ e he u hu hut f hf heq
    exact h t ht u hu htt hut e he f hf heq.symm

theorem checkEndEventReuse_yields {c c' : Chart} {b : Bool} {j : Journal} :
    checkEndEventReuse.Yields c b j c' ↔
      EndEventsApart c ∧ b = !(endTransitions c).isEmpty ∧ j = [] ∧ c' = c := by
  rw [checkEndEventReuse, Work.yields_get_bind, ← endEventReuse?_endTransitions]
  cases endEventReuse? c (endTransitions c) with
  | none => simp
  | some e => simp

/-- Where a chart has an end, a transition without event leaves no state where it starts. -/
def EventlessApart (c : Chart) : Prop :=
  endTransitions c ≠ [] → ∀ t ∈ c.enabledTransitions, t.event = none → t.source ≠ .start →
    ∀ u ∈ c.enabledTransitions, u.source = .start → u.target ≠ t.source

def eventlessEntries (c : Chart) : Journal :=
  Work.warningsOf .designSmell
    ((c.enabledTransitions.filter isEventless).map fun t =>
      s!"{t.name}: transition {t.arrow} has no event")

theorem checkEventless_yields {c c' : Chart} {u : Unit} {j : Journal} :
    (checkEventless (!(endTransitions c).isEmpty)).Yields c u j c' ↔
      EventlessApart c ∧ j = eventlessEntries c ∧ c' = c := by
  have hnone : ((c.enabledTransitions.filter isEventless).find? fun t =>
      (!(endTransitions c).isEmpty) && leavesDefault c t) = none ↔ EventlessApart c := by
    simp only [List.find?_eq_none, List.mem_filter, isEventless, Bool.and_eq_true,
      Option.isNone_iff_eq_none, decide_eq_true_eq, Bool.not_eq_true', List.isEmpty_eq_false_iff,
      leavesDefault, List.any_eq_true, not_and, not_exists, EventlessApart, and_imp]
    constructor
    · intro h hend t ht he hs u hu hsu
      exact h t ht he hs hend u hu hsu
    · intro h t ht he hs hend u hu hsu
      exact h hend t ht he hs u hu hsu
  rw [checkEventless, Work.yields_get_bind, ← hnone]
  simp only
  cases (c.enabledTransitions.filter isEventless).find? fun t =>
      (!(endTransitions c).isEmpty) && leavesDefault c t with
  | none => simp [eventlessEntries]
  | some t => simp

def EndsOnTop (c : Chart) : Prop :=
  ∀ t ∈ c.enabledTransitions, t.target = .stop →
    ∀ name, t.source = .state name → isNested c name = false

theorem verifyEndTransitions_yields {c c' : Chart} {u : Unit} {j : Journal} :
    verifyEndTransitions.Yields c u j c' ↔ EndsOnTop c ∧ j = [] ∧ c' = c := by
  have hnone : ((endTransitions c).findSome? fun t =>
      (t.source.state?.filter (isNested c)).map fun s => Error.nestedEnd t.name s) = none ↔
        EndsOnTop c := by
    simp only [List.findSome?_eq_none_iff, endTransitions, List.mem_filter, decide_eq_true_eq,
      Option.map_eq_none_iff, Option.filter_eq_none_iff, EndsOnTop, and_imp]
    refine forall₃_congr fun t _ _ => ?_
    cases t.source <;> simp [Endpoint.state?]
  rw [verifyEndTransitions, Work.yields_get_bind, ← hnone]
  cases (endTransitions c).findSome? fun t =>
      (t.source.state?.filter (isNested c)).map fun s => Error.nestedEnd t.name s with
  | none => simp
  | some e => simp

def disabledEntries (c : Chart) : Journal :=
  Work.warningsOf .designSmell ((c.transitions.filter (·.disabled)).map fun t =>
    s!"{t.name} ({t.arrow}) is disabled and will not be generated")

theorem reportDisabledTransitions_yields {c c' : Chart} {u : Unit} {j : Journal} :
    reportDisabledTransitions.Yields c u j c' ↔ j = disabledEntries c ∧ c' = c := by
  rw [reportDisabledTransitions, Work.yields_get_bind, Work.yields_warnAll, disabledEntries]

/-- A state that is not composite, where neither it nor a sibling is started. -/
def isUnstarted (c : Chart) (s : State) : Bool :=
  !s.kind.isComposite && !(siblings c s).any (startsInto c)

/-- What is known of the parents in `checked` is known of every state with such a parent, since it
has the same siblings. So nothing is missed by looking at siblings once. -/
theorem unstartedAmong_eq_find? {c : Chart} {checked : List (Option String)} {ss : List State}
    (h : ∀ s : State, s.parent ∈ checked → (siblings c s).any (startsInto c) = true) :
    unstartedAmong c checked ss = ss.find? (isUnstarted c) := by
  induction ss generalizing checked with
  | nil => rfl
  | cons s ss ih =>
    rw [unstartedAmong, List.find?_cons]
    by_cases hskip : s.kind.isComposite = true ∨ s.parent ∈ checked
    · have hno : isUnstarted c s = false := by
        rcases hskip with hkind | hseen
        · simp [isUnstarted, hkind]
        · simp [isUnstarted, h s hseen]
      rw [if_pos (by simpa using hskip), hno, ih h]
    · obtain ⟨hkind, -⟩ := not_or.1 hskip
      rw [if_neg (by simpa using hskip)]
      cases hstart : (siblings c s).any (startsInto c) with
      | false => simp [isUnstarted, hkind, hstart]
      | true =>
        have hmore : ∀ t : State, t.parent ∈ s.parent :: checked →
            (siblings c t).any (startsInto c) = true := by
          intro t ht
          rcases List.mem_cons.1 ht with hsame | hseen
          · rwa [siblings, hsame, ← siblings]
          · exact h t hseen
        simp [isUnstarted, hstart, ih hmore]

theorem unstarted?_eq_find? (c : Chart) : unstarted? c = c.enabledStates.find? (isUnstarted c) :=
  unstartedAmong_eq_find? (by simp)

theorem isUnstarted_eq_false {c : Chart} {s : State} :
    isUnstarted c s = false ↔ (s.kind.isComposite = false →
      ∃ p ∈ c.enabledStates, p.parent = s.parent ∧ startsInto c p.name = true) := by
  simp only [isUnstarted, siblings, Bool.and_eq_false_imp, Bool.not_eq_true', Bool.not_eq_false',
    List.any_eq_true, List.mem_map, List.mem_filter, decide_eq_true_eq]
  grind

theorem unstarted?_eq_none {c : Chart} :
    unstarted? c = none ↔ ∀ s ∈ c.enabledStates, s.kind.isComposite = false →
      ∃ p ∈ c.enabledStates, p.parent = s.parent ∧ startsInto c p.name = true := by
  simp only [unstarted?_eq_find?, List.find?_eq_none, Bool.not_eq_true, isUnstarted_eq_false]

theorem startsInto_eq_true {c : Chart} {name : String} :
    startsInto c name = true ↔
      ∃ t ∈ c.enabledTransitions, t.source = .start ∧ t.target = .state name := by
  have htarget : ∀ e : Endpoint, e.state? = some name ↔ e = .state name := by
    intro e
    cases e <;> simp [Endpoint.state?]
  simp only [startsInto, List.any_eq_true, Bool.and_eq_true, decide_eq_true_eq, htarget]

theorem events_established {c d : Chart} {u : Unit} {j : Journal} (h : events.Yields c u j d) :
    d = { c with groups := allocated c.groups, suppressed := d.suppressed } ∧
      collision? d.groups = none ∧ d.groups.find? (·.base = some 0) = none ∧
      ∀ q ∈ d.suppressed, Declared d.groups q := by
  simp only [events, Work.yields_bind, allocateEventIds_yields, resolveSuppressed_yields,
    verifyPorts_yields] at h
  obtain ⟨_, _, _, _, ⟨hcol, hzero, -, rfl⟩, ⟨_, _, _, _, ⟨rs, hrs, -, rfl⟩, ⟨-, rfl⟩, -⟩, -⟩ := h
  refine ⟨rfl, ?_, ?_, declared_of_lookups hrs⟩
  · exact (collision?_numbered _).trans hcol
  · have hbase : ∀ g ∈ fillBases none c.groups, g.base ≠ some 0 := by simpa using hzero
    rw [List.find?_eq_none]
    intro g hg
    obtain ⟨g', hg', rfl⟩ := List.mem_map.1 hg
    exact fun h => hbase g' hg' (of_decide_eq_true h)

def screen : Check Unit :=
  verifyStateParents >>= fun _ => verifyTransitionStates

theorem screen_established {c d : Chart} {u : Unit} {j : Journal} (h : screen.Yields c u j d) :
    d = { c with states := d.states, transitions := d.transitions } ∧
      Disabling c.states d.states ∧ Settled d ∧
      (∀ s ∈ d.enabledStates, ∃ a, ancestry d s.name = .ok a) ∧
      (∀ t ∈ d.enabledTransitions, EndsEnabled d t) ∧
      d.transitions.map Transition.name = c.transitions.map Transition.name := by
  simp only [screen, Work.yields_bind, verifyTransitionStates_yields] at h
  obtain ⟨_, _, e, _, hstates, ⟨ts, hpass, rfl⟩, -⟩ := h
  obtain ⟨hcascade, hasc⟩ := verifyStateParents_yields.1 hstates
  obtain ⟨hdis, he⟩ := cascade_disabling hcascade
  have hset : Settled e := cascade_settled (enabledCount_lt _) hcascade
  have hway : ancestry { e with transitions := ts } = ancestry e := ancestry_congr rfl
  refine ⟨by rw [he], hdis, hset, ?_, ?_, ?_⟩
  · rw [hway]
    exact hasc
  · intro t ht
    obtain ⟨hmem, hen⟩ := Chart.mem_enabledTransitions.1 ht
    rcases hpass.origin hmem with ⟨-, hd⟩ | ⟨t', -, -, j, htreat⟩
    · simp [hen] at hd
    · rcases retired_cases htreat with ⟨rfl, -, hends⟩ | rfl
      · exact hends
      · simp at hen
  · have htransitions : e.transitions = c.transitions := by rw [he]
    rw [← htransitions]
    exact hpass.names retired_name

theorem starts_established {c d : Chart} {u : Unit} {j : Journal} (h : starts.Yields c u j d) :
    d = { c with states := d.states, transitions := d.transitions } ∧
      Disabling c.states d.states ∧ Settled d ∧
      (∀ s ∈ d.enabledStates, ∃ a, ancestry d s.name = .ok a) ∧ unstarted? d = none ∧
      (∀ t ∈ d.enabledTransitions, EndsEnabled d t) ∧
      d.transitions.map Transition.name = c.transitions.map Transition.name := by
  simp only [starts, Work.yields_bind] at h
  obtain ⟨_, _, e, _, hparents, ⟨_, _, _, _, hends, hstart, -⟩, -⟩ := h
  obtain ⟨hstart, -, rfl⟩ := verifyStartTransitions_yields.1 hstart
  have hscreen : screen.Yields c _ _ d := Work.yields_bind.2 ⟨_, _, e, _, hparents, hends, rfl⟩
  obtain ⟨hd, hdis, hset, hasc, hends, hnames⟩ := screen_established hscreen
  exact ⟨hd, hdis, hset, hasc, hstart, hends, hnames⟩

/-- How the last checks change transitions: an enabled one is left enabled, with its event resolved,
or is disabled, but the latter only if it leaves a state. -/
structure Refined (c d : Chart) : Prop where
  origin : ∀ t' ∈ d.enabledTransitions, ∃ t ∈ c.enabledTransitions,
    (∃ j, qualified c t = .ok (t', j)) ∧ joined c t' = .ok (t', [])
  starts : ∀ t ∈ c.enabledTransitions, t.source = .start →
    ∃ t' ∈ d.enabledTransitions, ∃ j, qualified c t = .ok (t', j)

theorem qualified_ends {c : Chart} {t t' : Transition} {j : Journal}
    (h : qualified c t = .ok (t', j)) :
    t'.source = t.source ∧ t'.target = t.target ∧ t'.disabled = t.disabled := by
  rcases qualified_cases h with ⟨-, rfl, -⟩ | ⟨_, _, -, -, rfl, -⟩
  · exact ⟨rfl, rfl, rfl⟩
  · exact ⟨rfl, rfl, rfl⟩

theorem refined_of_passes {c d : Chart} {ts : List Transition} {j j' : Journal}
    (hq : Pass (qualified c) c.transitions ts j) (hj : Pass (joined c) ts d.transitions j') :
    Refined c d := by
  constructor
  · intro t' ht'
    obtain ⟨hmem, hen⟩ := Chart.mem_enabledTransitions.1 ht'
    rcases hj.origin hmem with ⟨-, hd⟩ | ⟨t, ht, hte, j₁, htreat⟩
    · simp [hen] at hd
    · rcases joined_cases htreat with ⟨rfl, rfl⟩ | ⟨-, rfl⟩
      · rcases hq.origin ht with ⟨-, hd⟩ | ⟨u, hu, hue, j₂, hqual⟩
        · simp [hen] at hd
        · exact ⟨u, Chart.mem_enabledTransitions.2 ⟨hu, hue⟩, ⟨j₂, hqual⟩, htreat⟩
      · simp at hen
  · intro t ht hs
    obtain ⟨hmem, hen⟩ := Chart.mem_enabledTransitions.1 ht
    obtain ⟨u, hu, j₁, hqual⟩ := hq.outcome hmem hen
    obtain ⟨hsource, -, hdis⟩ := qualified_ends hqual
    obtain ⟨v, hv, j₂, htreat⟩ := hj.outcome hu (hdis.trans hen)
    rcases joined_cases htreat with ⟨rfl, -⟩ | ⟨hne, -⟩
    · exact ⟨v, Chart.mem_enabledTransitions.2 ⟨hv, hdis.trans hen⟩, j₁, hqual⟩
    · exact absurd (hsource.trans hs) hne

theorem joined_transitions (c : Chart) (ts : List Transition) :
    joined { c with transitions := ts } = joined c :=
  joined_congr rfl

theorem checkTransitions_established {c d : Chart} {u : Unit} {j : Journal}
    (h : checkTransitions.Yields c u j d) :
    d = { c with transitions := d.transitions } ∧ Refined c d ∧ EndEventsApart c ∧
      EventlessApart c ∧ EndsOnTop d ∧
      d.transitions.map Transition.name = c.transitions.map Transition.name := by
  simp only [checkTransitions, Work.yields_bind, warnUntriggerableSources_yields,
    checkEndEventReuse_yields, resolveTransitionEvents_yields, checkCommonAncestors_yields,
    verifyEndTransitions_yields, reportDisabledTransitions_yields, Work.yields_note] at h
  obtain ⟨_, _, _, _, ⟨-, rfl⟩, ⟨_, _, _, _, ⟨hend, rfl, -, rfl⟩, ⟨_, _, _, _, hless, hrest, -⟩, -⟩,
    -⟩ := h
  obtain ⟨hless, -, rfl⟩ := checkEventless_yields.1 hless
  obtain ⟨_, _, _, _, ⟨ts, hq, rfl⟩, ⟨_, _, _, _, ⟨us, hj, rfl⟩, hlast, -⟩, -⟩ := hrest
  obtain ⟨_, _, _, _, ⟨htop, -, rfl⟩, ⟨_, _, _, _, ⟨-, rfl⟩, ⟨-, rfl⟩, -⟩, -⟩ := hlast
  rw [joined_transitions] at hj
  exact ⟨rfl, refined_of_passes hq hj, hend, hless, htop,
    (hj.names joined_name).trans (hq.names qualified_name)⟩

structure Consistent (c : Chart) : Prop where
  allocated : allocated c.groups = c.groups
  disjoint : collision? c.groups = none
  positive : c.groups.find? (·.base = some 0) = none
  suppressed : ∀ q ∈ c.suppressed, Declared c.groups q
  settled : Settled c
  ascends : ∀ s ∈ c.enabledStates, ∃ a, ancestry c s.name = .ok a
  started : unstarted? c = none
  ends : ∀ t ∈ c.enabledTransitions, EndsEnabled c t
  resolved : ∀ t ∈ c.enabledTransitions, ∀ e, t.event = some e → Declared c.groups e
  joins : ∀ t ∈ c.enabledTransitions, joined c t = .ok (t, [])
  end_events : ∀ t ∈ c.enabledTransitions, ∀ u ∈ c.enabledTransitions, t.target = .stop →
    u.target ≠ .stop → ∀ e, t.event = some e → u.event ≠ some e
  eventless : EventlessApart c
  end_sources : EndsOnTop c

theorem normalizedEvent_of_lookup {c : Chart} {context event : String} {r : Resolved}
    (h : lookupEvent c.groups context event = .ok r) : normalizedEvent c event = r.qualified := by
  simp only [normalizedEvent, lookupEvent_context "" h]

theorem qualified_event {c : Chart} {t t' : Transition} {j : Journal} {e : String}
    (h : qualified c t = .ok (t', j)) (he : t'.event = some e) :
    Declared c.groups e ∧ ∃ f, t.event = some f ∧ normalizedEvent c f = e := by
  rcases qualified_cases h with ⟨hnone, rfl, -⟩ | ⟨f, r, hf, hr, rfl, -⟩
  · simp [hnone] at he
  · cases he
    exact ⟨lookupEvent_declared hr, f, hf, normalizedEvent_of_lookup hr⟩

theorem qualified_eventless {c : Chart} {t t' : Transition} {j : Journal}
    (h : qualified c t = .ok (t', j)) (he : t'.event = none) : t.event = none := by
  rcases qualified_cases h with ⟨hnone, -, -⟩ | ⟨f, r, hf, hr, rfl, -⟩
  · exact hnone
  · simp at he

namespace Refined

variable {c d : Chart}

/-- Start transitions are kept, so what is started stays so. -/
theorem started (h : Refined c d) (hd : d.states = c.states) (hs : unstarted? c = none) :
    unstarted? d = none := by
  have hstates : d.enabledStates = c.enabledStates := by simp only [Chart.enabledStates, hd]
  rw [unstarted?_eq_none, hstates]
  intro s hmem hkind
  obtain ⟨p, hp, hpar, hinto⟩ := unstarted?_eq_none.1 hs s hmem hkind
  obtain ⟨t, ht, hsource, htarget⟩ := startsInto_eq_true.1 hinto
  obtain ⟨t', ht', j, hq⟩ := h.starts t ht hsource
  obtain ⟨hs', ht'', -⟩ := qualified_ends hq
  exact ⟨p, hp, hpar,
    startsInto_eq_true.2 ⟨t', ht', hs'.trans hsource, ht''.trans htarget⟩⟩

theorem ends (h : Refined c d) (hd : d.states = c.states)
    (he : ∀ t ∈ c.enabledTransitions, EndsEnabled c t) :
    ∀ t ∈ d.enabledTransitions, EndsEnabled d t := by
  intro t' ht' name hname
  obtain ⟨t, ht, ⟨j, hq⟩, -⟩ := h.origin t' ht'
  obtain ⟨hs, ht'', -⟩ := qualified_ends hq
  rw [hs, ht''] at hname
  simp only [Chart.enabledState?, Chart.state?, hd]
  exact he t ht name hname

theorem resolved (h : Refined c d) :
    ∀ t ∈ d.enabledTransitions, ∀ e, t.event = some e → Declared c.groups e := by
  intro t' ht' e he
  obtain ⟨t, -, ⟨j, hq⟩, -⟩ := h.origin t' ht'
  exact (qualified_event hq he).1

theorem end_events (h : Refined c d) (ha : EndEventsApart c) :
    ∀ t ∈ d.enabledTransitions, ∀ u ∈ d.enabledTransitions, t.target = .stop →
      u.target ≠ .stop → ∀ e, t.event = some e → u.event ≠ some e := by
  intro t' ht' u' hu' htt hut e hte hue
  obtain ⟨t, ht, ⟨j, hqt⟩, -⟩ := h.origin t' ht'
  obtain ⟨u, hu, ⟨j', hqu⟩, -⟩ := h.origin u' hu'
  obtain ⟨-, f, hf, hfe⟩ := qualified_event hqt hte
  obtain ⟨-, g, hg, hge⟩ := qualified_event hqu hue
  rw [(qualified_ends hqt).2.1] at htt
  rw [(qualified_ends hqu).2.1] at hut
  exact ha t ht u hu htt hut f hf g hg (hfe.trans hge.symm)

theorem eventless (h : Refined c d) (ha : EventlessApart c) : EventlessApart d := by
  intro hend t' ht' he hs u' hu' hus
  have hend' : endTransitions c ≠ [] := by
    obtain ⟨v', hv'⟩ := List.exists_mem_of_ne_nil _ hend
    obtain ⟨hv', htarget⟩ := List.mem_filter.1 hv'
    obtain ⟨v, hv, ⟨j, hqv⟩, -⟩ := h.origin v' hv'
    rw [(qualified_ends hqv).2.1] at htarget
    exact List.ne_nil_of_mem (List.mem_filter.2 ⟨hv, htarget⟩)
  obtain ⟨t, ht, ⟨j, hqt⟩, -⟩ := h.origin t' ht'
  obtain ⟨u, hu, ⟨j', hqu⟩, -⟩ := h.origin u' hu'
  rw [(qualified_ends hqt).1] at hs ⊢
  rw [(qualified_ends hqu).1] at hus
  rw [(qualified_ends hqu).2.1]
  exact ha hend' t ht (qualified_eventless hqt he) hs u hu hus

end Refined

/-- A validation that goes through leaves a consistent chart, with the same names. -/
theorem consistent_of_yields {c d : Chart} {u : Unit} {j : Journal} (h : all.Yields c u j d) :
    Consistent d ∧ d.groups = allocated c.groups ∧ Disabling c.states d.states ∧
      d.transitions.map Transition.name = c.transitions.map Transition.name := by
  simp only [all, Work.yields_bind] at h
  obtain ⟨_, _, c₁, _, h₁, ⟨_, _, c₂, _, h₂, h₃, -⟩, -⟩ := h
  obtain ⟨hc₁, hcol, hzero, hsup⟩ := events_established h₁
  obtain ⟨hc₂, hdis, hset, hasc, hstart, hends, hnames₂⟩ := starts_established h₂
  obtain ⟨hd, href, hend, hless, htop, hnames₃⟩ := checkTransitions_established h₃
  have hstates : d.states = c₂.states := by rw [hd]
  have hgroups₂ : c₂.groups = c₁.groups := by rw [hc₂]
  have hgroups : d.groups = c₁.groups := by rw [hd]; exact hgroups₂
  have halloc : c₁.groups = allocated c.groups := by rw [hc₁]
  have hsuppressed : d.suppressed = c₁.suppressed := by rw [hd, hc₂]
  have hinit : c₁.states = c.states := by rw [hc₁]
  have htransitions : c₁.transitions = c.transitions := by rw [hc₁]
  refine ⟨?_, hgroups.trans halloc, by rw [hstates, ← hinit]; exact hdis,
    htransitions ▸ hnames₃.trans hnames₂⟩
  constructor
  case allocated => rw [hgroups, halloc, allocated_allocated]
  case disjoint => rw [hgroups]; exact hcol
  case positive => rw [hgroups]; exact hzero
  case suppressed => rw [hgroups, hsuppressed]; exact hsup
  case settled => rw [hd]; exact hset
  case ascends =>
    rw [ancestry_congr hstates, Chart.enabledStates, hstates]
    exact hasc
  case started => exact href.started hstates hstart
  case ends => exact href.ends hstates hends
  case resolved => rw [hgroups, ← hgroups₂]; exact href.resolved
  case joins =>
    intro t ht
    obtain ⟨-, -, -, hj⟩ := href.origin t ht
    rw [joined_congr hstates]
    exact hj
  case end_events => exact href.end_events hend
  case eventless => exact href.eventless hless
  case end_sources => exact htop

end Statechart.Validation
