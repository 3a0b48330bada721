import Statechart.Proofs.Lists
import Statechart.Proofs.Validation.Checks

/-!
Where a chart starts.

A state that is not composite is entered by default only through a start transition into it or into
one of its siblings. The check goes through the enabled states, looks at each set of siblings once,
and ends at the first state that is not started. Composite states that are not started themselves
are told of, whether the check goes through or not.
-/
set_option autoImplicit false

namespace Statechart.Validation

def StartTarget (c : Chart) (s : State) : Prop :=
  ∃ t ∈ c.enabledTransitions, t.source = .start ∧
    ∃ name, t.target = .state name ∧ c.state? name = some s

/-- Of the enabled states with the same parent, one is where a start transition leads. -/
def Started (c : Chart) (s : State) : Prop :=
  ∃ p ∈ c.enabledStates, p.parent = s.parent ∧ StartTarget c p

/-- The warning about a composite state that is not started. -/
def neverEntered (s : State) : Warning :=
  ⟨.designSmell,
    s!"no Start transition into composite state {s.name}, it is never entered by default"⟩

section

variable {c : Chart} (hnames : (c.states.map State.name).Nodup)

include hnames

theorem startTarget_iff {s : State} (hs : s ∈ c.enabledStates) :
    StartTarget c s ↔ startsInto c s.name = true := by
  have hfound : c.state? s.name = some s :=
    Chart.state?_eq_some hnames (Chart.mem_enabledStates.1 hs).1
  rw [startsInto_eq_true]
  constructor
  · intro h
    obtain ⟨t, ht, hsource, name, htarget, hname⟩ := h
    obtain ⟨-, rfl⟩ := Chart.mem_of_state? hname
    exact ⟨t, ht, hsource, htarget⟩
  · intro h
    obtain ⟨t, ht, hsource, htarget⟩ := h
    exact ⟨t, ht, hsource, s.name, htarget, hfound⟩

theorem started_iff {s : State} :
    Started c s ↔
      ∃ p ∈ c.enabledStates, p.parent = s.parent ∧ startsInto c p.name = true := by
  constructor
  · intro h
    obtain ⟨p, hp, hparent, htarget⟩ := h
    exact ⟨p, hp, hparent, (startTarget_iff hnames hp).1 htarget⟩
  · intro h
    obtain ⟨p, hp, hparent, hinto⟩ := h
    exact ⟨p, hp, hparent, (startTarget_iff hnames hp).2 hinto⟩

theorem isUnstarted_eq_false_iff {s : State} :
    isUnstarted c s = false ↔ (s.kind.isComposite = false → Started c s) := by
  rw [isUnstarted_eq_false, started_iff hnames]

theorem isUnstarted_eq_true_iff {s : State} :
    isUnstarted c s = true ↔ s.kind.isComposite = false ∧ ¬ Started c s := by
  rw [← Bool.not_eq_false, isUnstarted_eq_false_iff hnames, Classical.not_imp]

/-- The search ends at a state whose predecessors need not be started, or are. -/
theorem unstarted?_eq_some {s : State} :
    unstarted? c = some s ↔
      ∃ before rest, c.enabledStates = before ++ s :: rest ∧
        (s.kind.isComposite = false ∧ ¬ Started c s) ∧
        ∀ b ∈ before, b.kind.isComposite = false → Started c b := by
  rw [unstarted?_eq_find?, List.find?_eq_some_iff_append, isUnstarted_eq_true_iff hnames]
  simp only [Bool.not_eq_true', isUnstarted_eq_false_iff hnames]
  constructor
  · intro h
    obtain ⟨hs, before, rest, hsplit, hbefore⟩ := h
    exact ⟨before, rest, hsplit, hs, hbefore⟩
  · intro h
    obtain ⟨before, rest, hsplit, hs, hbefore⟩ := h
    exact ⟨hs, before, rest, hsplit, hbefore⟩

end

/-- The enabled composite states that no start transition leads to. -/
def idleStates (c : Chart) : List State :=
  c.enabledStates.filter fun s => s.kind.isComposite && !startsInto c s.name

theorem mem_idleStates {c : Chart} (hnames : (c.states.map State.name).Nodup) {s : State} :
    s ∈ idleStates c ↔
      s ∈ c.enabledStates ∧ s.kind.isComposite = true ∧ ¬ StartTarget c s := by
  rw [idleStates, List.mem_filter]
  refine and_congr_right fun hs => ?_
  rw [startTarget_iff hnames hs]
  simp

theorem warnings_warningsOf (concern : Concern) (messages : List String) :
    (Work.warningsOf concern messages : Journal).warnings =
      messages.map fun m => ⟨concern, m⟩ := by
  induction messages with
  | nil => rfl
  | cons m ms ih => exact congrArg (List.cons _) ih

theorem verifyStartTransitions_apply (c : Chart) :
    ∃ n : Note, verifyStartTransitions c =
      ⟨c, Work.warningsOf .designSmell (startWarnings c) ++ [.note n],
        ofFault ((unstarted? c).map fun s => .missingStart (siblings c s))⟩ := by
  have hwarn : (Work.warnAll .designSmell (startWarnings c) : Check Unit) c =
      ⟨c, Work.warningsOf .designSmell (startWarnings c), .ok ()⟩ :=
    Work.yields_warnAll.2 ⟨rfl, rfl⟩
  cases hsearch : unstarted? c with
  | none =>
    refine ⟨⟨.info, "start transitions verified", []⟩, ?_⟩
    simp only [verifyStartTransitions, Work.bind_apply, Work.get, hwarn, hsearch]
    rfl
  | some s =>
    refine ⟨⟨.debug, "disabled Start transitions in design", [("disabled", toString
      (c.transitions.filter fun t => t.disabled && t.source = .start).length)]⟩, ?_⟩
    simp only [verifyStartTransitions, Work.bind_apply, Work.get, hwarn, hsearch]
    rfl

theorem startWarnings_told (c : Chart) :
    (verifyStartTransitions c).journal.warnings = (idleStates c).map neverEntered := by
  obtain ⟨n, hcheck⟩ := verifyStartTransitions_apply c
  rw [hcheck, Journal.warnings_append, warnings_warningsOf, startWarnings, List.map_map]
  exact List.append_nil _

theorem neverEntered_inj {s t : State} (h : neverEntered s = neverEntered t) :
    s.name = t.name := by
  have hmessage := congrArg (fun w => w.message.toList) h
  have hchars : (toString s.name).toList = (toString t.name).toList := by
    simpa [neverEntered] using hmessage
  exact String.ext hchars

theorem idleStates_warned_once {c : Chart} (hnames : (c.states.map State.name).Nodup) :
    ((idleStates c).map neverEntered).Nodup := by
  have hsub : ((idleStates c).map State.name).Nodup :=
    hnames.sublist ((List.filter_sublist.trans List.filter_sublist).map _)
  refine List.Nodup.map_on ?_ (List.Nodup.of_map State.name hsub)
  intro s hs t ht h
  exact List.inj_on_of_nodup_map hsub hs ht (neverEntered_inj h)

/-- The check goes through exactly if every enabled state that is not composite is started. Else it
names the siblings of the first that is not. -/
theorem start_check_exact {c : Chart} (hnames : (c.states.map State.name).Nodup) :
    let after := verifyStartTransitions c
    after.state = c ∧
      (after.result = .ok () ↔
        ∀ s ∈ c.enabledStates, s.kind.isComposite = false → Started c s) ∧
      (∀ e, after.result = .error e ↔
        ∃ before s rest, c.enabledStates = before ++ s :: rest ∧
          (s.kind.isComposite = false ∧ ¬ Started c s) ∧
          (∀ b ∈ before, b.kind.isComposite = false → Started c b) ∧
          e = .missingStart
            ((c.enabledStates.filter fun p => p.parent = s.parent).map State.name)) ∧
      ∃ idle : List State, idle.Sublist c.enabledStates ∧
        (∀ s, s ∈ idle ↔
          s ∈ c.enabledStates ∧ s.kind.isComposite = true ∧ ¬ StartTarget c s) ∧
        after.journal.warnings = idle.map neverEntered ∧ after.journal.warnings.Nodup := by
  intro after
  obtain ⟨n, hcheck⟩ := verifyStartTransitions_apply c
  have hresult : after.result =
      ofFault ((unstarted? c).map fun s => .missingStart (siblings c s)) :=
    congrArg Step.result hcheck
  have htold : after.journal.warnings = (idleStates c).map neverEntered := startWarnings_told c
  refine ⟨congrArg Step.state hcheck, ?_, fun e => ?_, idleStates c, List.filter_sublist,
    fun s => mem_idleStates hnames, htold, htold ▸ idleStates_warned_once hnames⟩
  · rw [hresult, ofFault_eq_ok, Option.map_eq_none_iff, unstarted?_eq_none]
    simp only [started_iff hnames]
  · rw [hresult, ofFault_eq_error, Option.map_eq_some_iff]
    simp only [unstarted?_eq_some hnames]
    constructor
    · intro h
      obtain ⟨s, ⟨before, rest, hsplit, hs, hbefore⟩, rfl⟩ := h
      exact ⟨before, s, rest, hsplit, hs, hbefore, rfl⟩
    · intro h
      obtain ⟨before, s, rest, hsplit, hs, hbefore, rfl⟩ := h
      exact ⟨s, ⟨before, rest, hsplit, hs, hbefore⟩, rfl⟩

/-- A hall with two doors, of which one is started, and a yard that is not started and has a gate, a
shed and a disabled well. -/
def manor : Chart where
  name := "Manor"
  states :=
    [⟨"STATE_1", "Hall", none, .hierarchical, .absent, .absent, .absent, false⟩,
      ⟨"STATE_2", "Porch", some "Hall", .simple, .absent, .absent, .absent, false⟩,
      ⟨"STATE_3", "Gate", some "Yard", .simple, .absent, .absent, .absent, false⟩,
      ⟨"STATE_4", "Stair", some "Hall", .history, .absent, .absent, .absent, false⟩,
      ⟨"STATE_5", "Yard", none, .concurrent, .absent, .absent, .absent, false⟩,
      ⟨"STATE_6", "Well", some "Yard", .simple, .absent, .absent, .absent, true⟩,
      ⟨"STATE_7", "Shed", some "Yard", .hierarchical, .absent, .absent, .absent, false⟩]
  transitions :=
    [⟨"TRANSITION_1", .start, .state "Hall", none, .absent, .absent, false⟩,
      ⟨"TRANSITION_2", .start, .state "Stair", none, .absent, .absent, false⟩,
      ⟨"TRANSITION_3", .start, .state "Gate", none, .absent, .absent, true⟩]

def manorOpened : Chart :=
  { manor with transitions := manor.transitions.map fun t => { t with disabled := false } }

/-- The gate would be started by a disabled transition only. With that transition enabled the check
goes through. -/
theorem manor_start_check :
    (manor.states.map State.name).Nodup ∧
      (∃ s ∈ manor.enabledStates, s.kind.isComposite = false ∧ ¬ Started manor s ∧
        (manor.enabledStates.filter fun p => p.parent = s.parent).map State.name =
          ["Gate", "Shed"]) ∧
      ((verifyStartTransitions manor).journal.warnings.Nodup ∧
        (verifyStartTransitions manor).journal.warnings.map Warning.message =
          ["no Start transition into composite state Yard, it is never entered by default",
            "no Start transition into composite state Shed, it is never entered by default"]) ∧
      ∀ s ∈ manorOpened.enabledStates, s.kind.isComposite = false → Started manorOpened s := by
  have hnames : (manor.states.map State.name).Nodup := by decide
  have hfails : (verifyStartTransitions manor).result = .error (.missingStart ["Gate", "Shed"]) :=
    rfl
  have hpasses : (verifyStartTransitions manorOpened).result = .ok () := rfl
  obtain ⟨-, -, hfirst, idle, -, -, -, honce⟩ := start_check_exact hnames
  obtain ⟨before, s, rest, hsplit, hs, -, hcandidates⟩ := (hfirst _).1 hfails
  obtain ⟨-, hall, -⟩ := start_check_exact (c := manorOpened) hnames
  refine ⟨hnames, ⟨s, by simp [hsplit], hs.1, hs.2, (Error.missingStart.inj hcandidates).symm⟩,
    ⟨honce, by decide +kernel⟩, hall.1 hpasses⟩

end Statechart.Validation
