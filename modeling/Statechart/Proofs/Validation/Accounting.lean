import Statechart.Proofs.Validation.Soundness

/-!
Every change is told.

A validation fills in bases, disables states and transitions, and qualifies events. Each of these
makes one entry of its own concern and no other step makes such an entry, so the warnings can be
counted off against the chart before and after.
-/
set_option autoImplicit false

namespace Statechart.Validation

/-- The journal tells of so many new bases, disabled states or transitions, and qualified events. -/
def Tells (j : Journal) (bases disabled references : Nat) : Prop :=
  Warning.countOf .autoAssignedBase j.warnings = bases ∧
    Warning.countOf .cascadingDisable j.warnings = disabled ∧
    Warning.countOf .autoQualifiedEvent j.warnings = references

theorem tells_nil : Tells [] 0 0 0 :=
  ⟨rfl, rfl, rfl⟩

theorem tells_note (n : Note) : Tells [.note n] 0 0 0 :=
  ⟨rfl, rfl, rfl⟩

theorem countOf_append (k : Concern) (ws us : List Warning) :
    Warning.countOf k (ws ++ us) = Warning.countOf k ws + Warning.countOf k us := by
  simp [Warning.countOf]

theorem Tells.append {j₁ j₂ : Journal} {b₁ d₁ r₁ b₂ d₂ r₂ : Nat} (h₁ : Tells j₁ b₁ d₁ r₁)
    (h₂ : Tells j₂ b₂ d₂ r₂) : Tells (j₁ ++ j₂) (b₁ + b₂) (d₁ + d₂) (r₁ + r₂) := by
  obtain ⟨rfl, rfl, rfl⟩ := h₁
  obtain ⟨rfl, rfl, rfl⟩ := h₂
  refine ⟨?_, ?_, ?_⟩ <;> rw [Journal.warnings_append, countOf_append]

theorem countOf_warningsOf (k k' : Concern) (messages : List String) :
    Warning.countOf k (Work.warningsOf k' messages : Journal).warnings =
      if k' = k then messages.length else 0 := by
  induction messages with
  | nil => simp [Work.warningsOf, Journal.warnings, Warning.countOf]
  | cons m ms ih =>
    by_cases h : k' = k
    · simp_all [Work.warningsOf, Journal.warnings, Warning.countOf]
    · simp_all [Work.warningsOf, Journal.warnings, Warning.countOf]

theorem tells_smells (messages : List String) :
    Tells (Work.warningsOf .designSmell messages) 0 0 0 := by
  simp [Tells, countOf_warningsOf]

theorem tells_eventless (c : Chart) : Tells (eventlessEntries c) 0 0 0 :=
  tells_smells _

theorem tells_disabled (c : Chart) : Tells (disabledEntries c) 0 0 0 :=
  tells_smells _

theorem length_baseWarnings (previous : Option Nat) (groups : List EventGroup) :
    (baseWarnings previous groups).length = groups.countP (·.base.isNone) := by
  induction groups generalizing previous with
  | nil => rfl
  | cons g gs ih =>
    cases hb : g.base with
    | none => simp [baseWarnings, hb, ih]
    | some base => simp [baseWarnings, hb, ih]

theorem tells_allocation (groups : List EventGroup) :
    Tells (allocationEntries groups) (groups.countP (·.base.isNone)) 0 0 := by
  have hbases : Tells (Work.warningsOf .autoAssignedBase (baseWarnings none groups))
      (groups.countP (·.base.isNone)) 0 0 := by
    rw [← length_baseWarnings none]
    simp [Tells, countOf_warningsOf]
  exact hbases.append (tells_note _)

def isBare (reference : String) : Bool :=
  !Text.containsChar '.' reference

theorem unqualified_eq_isBare {groups : List EventGroup} {context reference : String}
    {r : Resolved} (h : lookupEvent groups context reference = .ok r) :
    r.unqualified = isBare reference := by
  have hcut : (Text.cut? (· = '.') (Text.trim reference)).isSome =
      Text.containsChar '.' reference := by
    rw [Text.isSome_cut?, Text.containsChar_trim rfl]
  simp only [lookupEvent] at h
  split at h
  · rename_i hsome
    rw [hsome] at hcut
    split at h
    · obtain rfl := Except.ok.inj h
      simp [isBare, ← hcut]
    · cases h
  · rename_i hnone
    rw [hnone] at hcut
    split at h
    · cases h
    · obtain rfl := Except.ok.inj h
      simp [isBare, ← hcut]
    · cases h

theorem tells_resolution {groups : List EventGroup} {context reference : String} {r : Resolved}
    (h : lookupEvent groups context reference = .ok r) :
    Tells (resolutionEntries context reference r) 0 0 (if isBare reference then 1 else 0) := by
  rw [resolutionEntries, unqualified_eq_isBare h]
  cases isBare reference with
  | true => exact ⟨rfl, rfl, rfl⟩
  | false => exact tells_nil

theorem tells_resolutions {groups : List EventGroup} {context : String}
    {references : List String} {rs : List Resolved}
    (h : List.Forall₂ (fun reference r => lookupEvent groups context reference = .ok r)
      references rs) :
    Tells (List.zipWith (resolutionEntries context) references rs).flatten 0 0
      (references.countP isBare) := by
  induction h with
  | nil => exact tells_nil
  | cons hr _ ih =>
    rw [List.countP_cons, Nat.add_comm]
    exact (tells_resolution hr).append ih

def raised (before after : List Bool) : Nat :=
  (before.zip after).countP fun flags => !flags.1 && flags.2

theorem Disabling.raised_add {a b : List State} (h : Disabling a b) :
    raised (a.map State.disabled) (b.map State.disabled) + enabledCount b = enabledCount a := by
  induction h with
  | nil => rfl
  | @cons s s' ss ss' hs _ ih =>
    simp only [raised, enabledCount, List.map_cons, List.zip_cons_cons, List.countP_cons] at ih ⊢
    rcases hs with rfl | rfl
    · cases s'.disabled with
      | true => simpa using ih
      | false =>
        simp only [Bool.not_false, Bool.and_false, Bool.false_eq_true, if_false, if_true]
        omega
    · cases s.disabled with
      | true => simpa using ih
      | false =>
        simp only [Bool.not_false, Bool.not_true, Bool.and_true, Bool.false_eq_true, if_false,
          if_true]
        omega

theorem enabledCount_modify {states : List State} {i : Nat} {s : State}
    (hs : states[i]? = some s) (he : s.disabled = false) :
    1 + enabledCount (states.modify i fun s => { s with disabled := true }) =
      enabledCount states := by
  induction states generalizing i with
  | nil => simp at hs
  | cons t ts ih =>
    cases i with
    | zero =>
      simp only [List.getElem?_cons_zero, Option.some.injEq] at hs
      subst hs
      simp [enabledCount, he, Nat.add_comm]
    | succ i =>
      have h := ih (by simpa using hs)
      simp only [enabledCount, List.modify_succ_cons, List.countP_cons] at h ⊢
      omega

def TellsStates (c c' : Chart) (j : Journal) : Prop :=
  ∃ n, Tells j 0 n 0 ∧ n + enabledCount c'.states = enabledCount c.states

theorem TellsStates.refl (c : Chart) : TellsStates c c [] :=
  ⟨0, tells_nil, Nat.zero_add _⟩

theorem TellsStates.trans {c d e : Chart} {j₁ j₂ : Journal} (h₁ : TellsStates c d j₁)
    (h₂ : TellsStates d e j₂) : TellsStates c e (j₁ ++ j₂) := by
  obtain ⟨n, hn, hcd⟩ := h₁
  obtain ⟨m, hm, hde⟩ := h₂
  exact ⟨n + m, hn.append hm, by omega⟩

theorem CascadeStep.tells {i : Nat} {c c' : Chart} {b : Bool} {j : Journal}
    (h : CascadeStep c i b j c') : TellsStates c c' j := by
  cases h with
  | keep => exact .refl c
  | disable s p hget he => exact ⟨1, ⟨rfl, rfl, rfl⟩, enabledCount_modify hget he⟩

theorem cascade_tells {rounds : Nat} {c c' : Chart} {u : Unit} {j : Journal}
    (h : (cascade rounds).Yields c u j c') : TellsStates c c' j :=
  cascade_run (R := fun c j c' => TellsStates c c' j) TellsStates.refl TellsStates.trans
    CascadeStep.tells h

theorem retired_tells {c : Chart} {t t' : Transition} {j : Journal}
    (h : retired c t = .ok (t', j)) (he : t.disabled = false) :
    Tells j 0 (if t'.disabled then 1 else 0) 0 ∧ t'.event = t.event := by
  rw [retired] at h
  obtain ⟨state, -, hstate⟩ := map_eq_ok.1 h
  cases state with
  | none =>
    cases hstate
    simpa [he] using tells_nil
  | some name =>
    cases hstate
    exact ⟨⟨rfl, rfl, rfl⟩, rfl⟩

theorem Pass.retired_tells {c : Chart} {ts ts' : List Transition} {j : Journal}
    (h : Pass (retired c) ts ts' j) :
    Tells j 0 (raised (ts.map Transition.disabled) (ts'.map Transition.disabled)) 0 ∧
      ts'.map Transition.event = ts.map Transition.event := by
  induction h with
  | nil => exact ⟨tells_nil, rfl⟩
  | skip hd _ ih => simpa [raised, hd] using ih
  | @step t t' ts ts' j₁ j₂ he htreat _ ih =>
    obtain ⟨htells, hevent⟩ := Validation.retired_tells htreat he
    have hflags : raised ((t :: ts).map Transition.disabled) ((t' :: ts').map Transition.disabled) =
        (if t'.disabled then 1 else 0) +
          raised (ts.map Transition.disabled) (ts'.map Transition.disabled) := by
      simp [raised, List.countP_cons, he, Nat.add_comm]
    refine ⟨?_, by simp [hevent, ih.2]⟩
    rw [hflags]
    exact htells.append ih.1

/-- How many events of enabled transitions do not name their group. -/
def bareEvents (events : List (Option String)) (disabled : List Bool) : Nat :=
  (events.zip disabled).countP fun p => !p.2 && p.1.any isBare

theorem qualified_tells {c : Chart} {t t' : Transition} {j : Journal}
    (h : qualified c t = .ok (t', j)) : Tells j 0 0 (if t.event.any isBare then 1 else 0) := by
  rcases qualified_cases h with ⟨hnone, -, rfl⟩ | ⟨event, r, hevent, hr, -, rfl⟩
  · simpa [hnone] using tells_nil
  · simpa [hevent] using tells_resolution hr

theorem Pass.qualified_tells {c : Chart} {ts ts' : List Transition} {j : Journal}
    (h : Pass (qualified c) ts ts' j) :
    Tells j 0 0 (bareEvents (ts.map Transition.event) (ts'.map Transition.disabled)) ∧
      ts'.map Transition.disabled = ts.map Transition.disabled := by
  induction h with
  | nil => exact ⟨tells_nil, rfl⟩
  | skip hd _ ih => simpa [bareEvents, hd] using ih
  | @step t t' ts ts' j₁ j₂ he htreat _ ih =>
    have hd : t'.disabled = t.disabled := (qualified_ends htreat).2.2
    have hcount : bareEvents ((t :: ts).map Transition.event)
          ((t' :: ts').map Transition.disabled) =
        (if t.event.any isBare then 1 else 0) +
          bareEvents (ts.map Transition.event) (ts'.map Transition.disabled) := by
      simp [bareEvents, List.countP_cons, hd, he, Nat.add_comm]
    refine ⟨?_, by simp [hd, ih.2]⟩
    rw [hcount]
    exact (Validation.qualified_tells htreat).append ih.1

theorem Pass.unchanged {treat : Treatment} {ts ts' : List Transition} {j : Journal}
    (h : Pass treat ts ts' j)
    (hsame : ∀ t ∈ ts, t.disabled = false → ∀ t' j, treat t = .ok (t', j) → t' = t ∧ j = []) :
    ts' = ts ∧ j = [] := by
  induction h with
  | nil => exact ⟨rfl, rfl⟩
  | skip _ _ ih =>
    obtain ⟨rfl, rfl⟩ := ih (List.forall_mem_cons.1 hsame).2
    exact ⟨rfl, rfl⟩
  | step he htreat _ ih =>
    obtain ⟨ht, hts⟩ := List.forall_mem_cons.1 hsame
    obtain ⟨rfl, rfl⟩ := ht he _ _ htreat
    obtain ⟨rfl, rfl⟩ := ih hts
    exact ⟨rfl, rfl⟩

/-- In a settled chart the way up from an enabled state meets no disabled one. -/
theorem ancestryFrom_complete {c : Chart} (hc : Settled c) {name current : String} {steps : Nat}
    {names : List String} {s : State} {a : Ancestry} (hs : c.enabledState? current = some s)
    (h : ancestryFrom c name steps names current = .ok a) : ∃ up, a = .complete up := by
  induction steps generalizing names current s with
  | zero =>
    obtain ⟨hfound, he⟩ := Chart.enabledState?_eq_some.1 hs
    simp [ancestryFrom, hfound, he] at h
  | succ steps ih =>
    obtain ⟨hfound, he⟩ := Chart.enabledState?_eq_some.1 hs
    rw [ancestryFrom] at h
    simp only [hfound, he, Bool.false_eq_true, if_false] at h
    cases hp : s.parent with
    | none =>
      simp only [hp, Except.ok.injEq] at h
      exact ⟨_, h.symm⟩
    | some parent =>
      have hmem : s ∈ c.enabledStates :=
        Chart.mem_enabledStates.2 ⟨(Chart.mem_of_state? hfound).1, he⟩
      obtain ⟨p, hq⟩ := hc s hmem parent hp
      simp only [hp] at h
      exact ih hq h

/-- So no transition between enabled states is disabled on account of an ancestor. -/
theorem joined_unchanged {c : Chart} (hc : Settled c) {t t' : Transition} {j : Journal}
    (hends : EndsEnabled c t) (h : joined c t = .ok (t', j)) : t' = t ∧ j = [] := by
  rw [joined] at h
  split at h
  · rename_i source target hs ht
    have hstate : ∀ {e : Endpoint} {n : String}, e.state? = some n → e = .state n := by
      intro e n he
      cases e <;> simp_all [Endpoint.state?]
    obtain ⟨s, hsource⟩ := hends source (.inl (hstate hs))
    obtain ⟨p, htarget⟩ := hends target (.inr (hstate ht))
    obtain ⟨a, ha, h⟩ := bind_eq_ok.1 h
    obtain ⟨b, hb, h⟩ := bind_eq_ok.1 h
    obtain ⟨up, rfl⟩ := ancestryFrom_complete hc hsource ha
    obtain ⟨other, rfl⟩ := ancestryFrom_complete hc htarget hb
    rw [verdict] at h
    split at h
    · cases h
      exact ⟨rfl, rfl⟩
    · cases h
  · cases h
    exact ⟨rfl, rfl⟩

theorem events_parts {c d : Chart} {u : Unit} {j : Journal} (h : events.Yields c u j d) :
    ∃ rs, List.Forall₂ (fun reference r =>
        lookupEvent (allocated c.groups) "SUPPRESS_PRINT" reference = .ok r) c.suppressed rs ∧
      d = { c with groups := allocated c.groups, suppressed := rs.map Resolved.qualified } ∧
      j = allocationEntries c.groups ++
        ((List.zipWith (resolutionEntries "SUPPRESS_PRINT") c.suppressed rs).flatten ++
          Work.warningsOf .designSmell (d.ports.filterMap (portWarning? d))) := by
  simp only [events, Work.yields_bind, allocateEventIds_yields, resolveSuppressed_yields,
    verifyPorts_yields] at h
  obtain ⟨_, _, _, _, ⟨-, -, rfl, rfl⟩, ⟨_, _, _, _, ⟨rs, hrs, rfl, rfl⟩, ⟨rfl, rfl⟩, rfl⟩, rfl⟩ := h
  exact ⟨rs, hrs, rfl, rfl⟩

theorem events_tells {c d : Chart} {u : Unit} {j : Journal} (h : events.Yields c u j d) :
    Tells j (c.groups.countP (·.base.isNone)) 0 (c.suppressed.countP isBare) := by
  obtain ⟨rs, hrs, -, rfl⟩ := events_parts h
  simpa using (tells_allocation c.groups).append ((tells_resolutions hrs).append (tells_smells _))

theorem starts_parts {c d : Chart} {u : Unit} {j : Journal} (h : starts.Yields c u j d) :
    ∃ e j₁ j₂, (cascade (c.states.length + 1)).Yields c () j₁ e ∧
      Pass (retired e) c.transitions d.transitions j₂ ∧
      d = { e with transitions := d.transitions } ∧
      j = j₁ ++ (j₂ ++ (Work.warningsOf .designSmell (startWarnings d) ++
        [.note ⟨.info, "start transitions verified", []⟩])) := by
  simp only [starts, Work.yields_bind, verifyTransitionStates_yields,
    verifyStartTransitions_yields] at h
  obtain ⟨_, j₁, e, _, hstates, ⟨_, j₂, _, _, ⟨ts, hpass, rfl⟩, ⟨-, rfl, rfl⟩, rfl⟩, rfl⟩ := h
  obtain ⟨hcascade, -⟩ := verifyStateParents_yields.1 hstates
  have htransitions : e.transitions = c.transitions := by rw [(cascade_disabling hcascade).2]
  rw [htransitions] at hpass
  exact ⟨e, j₁, j₂, hcascade, hpass, rfl, rfl⟩

theorem starts_tells {c d : Chart} {u : Unit} {j : Journal} (h : starts.Yields c u j d) :
    Tells j 0 (raised (c.states.map State.disabled) (d.states.map State.disabled) +
        raised (c.transitions.map Transition.disabled) (d.transitions.map Transition.disabled)) 0 ∧
      d.transitions.map Transition.event = c.transitions.map Transition.event := by
  obtain ⟨e, _, _, hcascade, hpass, hd, rfl⟩ := starts_parts h
  obtain ⟨hdis, -⟩ := cascade_disabling hcascade
  obtain ⟨n, hn, hcount⟩ := cascade_tells hcascade
  have hstates : d.states = e.states := by rw [hd]
  have hraised : n = raised (c.states.map State.disabled) (d.states.map State.disabled) := by
    have := hdis.raised_add
    rw [hstates]
    omega
  obtain ⟨htells, hevents⟩ := hpass.retired_tells
  refine ⟨?_, hevents⟩
  rw [← hraised]
  simpa using hn.append (htells.append ((tells_smells _).append (tells_note _)))

/-- In a settled chart the last checks do no more than to qualify events. -/
theorem checkTransitions_parts {c d : Chart} {u : Unit} {j : Journal} (hc : Settled c)
    (hends : ∀ t ∈ c.enabledTransitions, EndsEnabled c t) (h : checkTransitions.Yields c u j d) :
    ∃ j', Pass (qualified c) c.transitions d.transitions j' ∧
      d = { c with transitions := d.transitions } ∧
      j = Work.warningsOf .designSmell ((sources c).filterMap (untriggerable? c)) ++
        (eventlessEntries c ++ (j' ++ (disabledEntries d ++
          [.note ⟨.info, "transitions verified", []⟩]))) := by
  simp only [checkTransitions, Work.yields_bind, warnUntriggerableSources_yields,
    checkEndEventReuse_yields, resolveTransitionEvents_yields, checkCommonAncestors_yields,
    verifyEndTransitions_yields, reportDisabledTransitions_yields, Work.yields_note] at h
  obtain ⟨_, _, _, _, ⟨rfl, rfl⟩, ⟨_, _, _, _, ⟨-, rfl, rfl, rfl⟩, ⟨_, _, _, _, hless, hrest, rfl⟩,
    rfl⟩, rfl⟩ := h
  obtain ⟨-, rfl, rfl⟩ := checkEventless_yields.1 hless
  obtain ⟨_, j', _, _, ⟨ts, hq, rfl⟩, ⟨_, _, _, _, ⟨us, hj, rfl⟩, hlast, rfl⟩, rfl⟩ := hrest
  obtain ⟨_, _, _, _, ⟨-, rfl, rfl⟩, ⟨_, _, _, _, ⟨rfl, rfl⟩, ⟨rfl, rfl⟩, rfl⟩, rfl⟩ := hlast
  rw [joined_transitions] at hj
  obtain ⟨rfl, rfl⟩ := hj.unchanged fun t ht hen t' j' htreat => by
    refine joined_unchanged hc ?_ htreat
    rcases hq.origin ht with ⟨-, hd⟩ | ⟨v, hv, hve, _, hqual⟩
    · simp [hen] at hd
    · obtain ⟨hsource, htarget, -⟩ := qualified_ends hqual
      have hv' := hends v (Chart.mem_enabledTransitions.2 ⟨hv, hve⟩)
      rw [EndsEnabled, hsource, htarget]
      exact hv'
  exact ⟨j', hq, rfl, by simp⟩

theorem checkTransitions_tells {c d : Chart} {u : Unit} {j : Journal} (hc : Settled c)
    (hends : ∀ t ∈ c.enabledTransitions, EndsEnabled c t) (h : checkTransitions.Yields c u j d) :
    Tells j 0 0 (bareEvents (c.transitions.map Transition.event)
        (d.transitions.map Transition.disabled)) ∧
      d.transitions.map Transition.disabled = c.transitions.map Transition.disabled := by
  obtain ⟨_, hq, -, rfl⟩ := checkTransitions_parts hc hends h
  obtain ⟨htells, hdis⟩ := hq.qualified_tells
  refine ⟨?_, hdis⟩
  simpa using (tells_smells _).append ((tells_eventless _).append
    (htells.append ((tells_disabled _).append (tells_note _))))

theorem all_tells {c d : Chart} {u : Unit} {j : Journal} (h : all.Yields c u j d) :
    Tells j (c.groups.countP (·.base.isNone))
      (raised (c.states.map State.disabled) (d.states.map State.disabled) +
        raised (c.transitions.map Transition.disabled) (d.transitions.map Transition.disabled))
      (c.suppressed.countP isBare +
        bareEvents (c.transitions.map Transition.event) (d.transitions.map Transition.disabled)) := by
  simp only [all, Work.yields_bind] at h
  obtain ⟨_, _, c₁, _, h₁, ⟨_, _, c₂, _, h₂, h₃, rfl⟩, rfl⟩ := h
  obtain ⟨hc₁, -⟩ := events_established h₁
  obtain ⟨-, -, hsettled, -, -, hends, -⟩ := starts_established h₂
  obtain ⟨hd, -⟩ := checkTransitions_established h₃
  obtain ⟨hstarts, hevents⟩ := starts_tells h₂
  obtain ⟨hchecks, hflags⟩ := checkTransitions_tells hsettled hends h₃
  -- The flags of states are final after the second part, those of transitions as well.
  have hstates : c₂.states = d.states := by rw [hd]
  have hbefore : c₁.states = c.states ∧ c₁.transitions = c.transitions := by rw [hc₁]; simp
  rw [hstates, ← hflags, hbefore.1, hbefore.2] at hstarts
  rw [hevents, hbefore.2] at hchecks
  simpa using (events_tells h₁).append (hstarts.append hchecks)

theorem changes_are_told {c : Chart} (h : (all c).result = .ok ()) :
    let after := (all c).state
    let warnings := (all c).journal.warnings
    after.states.map State.name = c.states.map State.name ∧
      after.transitions.map Transition.name = c.transitions.map Transition.name ∧
      Warning.countOf .autoAssignedBase warnings = c.groups.countP (·.base.isNone) ∧
      Warning.countOf .cascadingDisable warnings =
        raised (c.states.map State.disabled) (after.states.map State.disabled) +
          raised (c.transitions.map Transition.disabled)
            (after.transitions.map Transition.disabled) ∧
      Warning.countOf .autoQualifiedEvent warnings =
        c.suppressed.countP isBare +
          (c.transitions.zip after.transitions).countP fun p =>
            !p.2.disabled && p.1.event.any isBare := by
  have hall := Work.yields_of_result h
  obtain ⟨-, -, hdis, hnames⟩ := consistent_of_yields hall
  obtain ⟨hbases, hdisabled, hreferences⟩ := all_tells hall
  refine ⟨hdis.names_eq, hnames, hbases, hdisabled, ?_⟩
  rw [hreferences, bareEvents, List.zip_map, List.countP_map]
  rfl

/-- The lamp is given one base, loses a transition to its disabled state, and has one event that is
qualified; another one is left alone, since its transition is disabled. -/
theorem lamp_changes_are_told :
    (all lamp).result = .ok () ∧
      Warning.countOf .autoAssignedBase (all lamp).journal.warnings = 1 ∧
      Warning.countOf .cascadingDisable (all lamp).journal.warnings = 1 ∧
      Warning.countOf .autoQualifiedEvent (all lamp).journal.warnings = 1 := by
  obtain ⟨-, -, hbases, hdisabled, hreferences⟩ := changes_are_told lamp_passes
  refine ⟨lamp_passes, hbases, ?_, ?_⟩
  · rw [hdisabled]
    decide +kernel
  · rw [hreferences]
    decide +kernel

end Statechart.Validation
