import Statechart.Proofs.Reading.Chart
import Statechart.Proofs.Validation.Checks

/-!
Validated charts are sound.

A chart that was read and has passed every check has no loose ends among its enabled states,
transitions and events, although the checks look at it one after the other and change it in between.
-/
set_option autoImplicit false

namespace Statechart.Validation

structure Sound (c : Chart) : Prop where
  /-- The way up from an enabled state meets declared, enabled states and ends at the top. -/
  rooted : ∀ s ∈ c.enabledStates, Rooted c s
  ends_enabled : ∀ t ∈ c.enabledTransitions, ∀ name,
    t.source = .state name ∨ t.target = .state name → ∃ s ∈ c.enabledStates, s.name = name
  events_declared : (∀ t ∈ c.enabledTransitions, ∀ e, t.event = some e → Declared c.groups e) ∧
    ∀ e ∈ c.suppressed, Declared c.groups e
  end_events_apart : ∀ t ∈ c.enabledTransitions, ∀ u ∈ c.enabledTransitions, t.target = .stop →
    u.target ≠ .stop → ∀ e, t.event = some e → u.event ≠ some e
  /-- Where the chart has an end, a state it starts with is left on an event. -/
  defaults_left_on_event : (∃ t ∈ c.enabledTransitions, t.target = .stop) →
    ∀ t ∈ c.enabledTransitions, t.event = none → ∀ name, t.source = .state name →
      ¬ ∃ u ∈ c.enabledTransitions, u.source = .start ∧ u.target = .state name
  ends_on_top : ∀ t ∈ c.enabledTransitions, t.target = .stop →
    ∀ s ∈ c.enabledStates, t.source = .state s.name → s.parent = none
  /-- A state that is not composite has a sibling, or is itself, where its parent starts. -/
  started : ∀ s ∈ c.enabledStates, s.kind.isComposite = false →
    ∃ p ∈ c.enabledStates, p.parent = s.parent ∧
      ∃ t ∈ c.enabledTransitions, t.source = .start ∧ t.target = .state p.name

theorem Consistent.rooted {c : Chart} (h : Consistent c) (hd : (c.states.map State.name).Nodup) :
    ∀ s ∈ c.enabledStates, Rooted c s := by
  intro s hs
  obtain ⟨hmem, he⟩ := Chart.mem_enabledStates.1 hs
  have hfound : c.enabledState? s.name = some s :=
    Chart.enabledState?_eq_some.2 ⟨Chart.state?_eq_some hd hmem, he⟩
  obtain ⟨a, ha⟩ := h.ascends s hs
  exact ancestryFrom_rooted h.settled hfound ha

theorem Consistent.ends_on_top {c : Chart} (h : Consistent c)
    (hd : (c.states.map State.name).Nodup) {t : Transition} (ht : t ∈ c.enabledTransitions)
    (hstop : t.target = .stop) {s : State} (hs : s ∈ c.enabledStates)
    (hsource : t.source = .state s.name) : s.parent = none := by
  have hfound := Chart.state?_eq_some hd (Chart.mem_enabledStates.1 hs).1
  have hnested := h.end_sources t ht hstop s.name hsource
  simpa [isNested, hfound] using hnested

theorem Consistent.sound {c : Chart} (h : Consistent c) (hd : (c.states.map State.name).Nodup) :
    Sound c where
  rooted := h.rooted hd
  ends_enabled := by
    intro t ht name hname
    obtain ⟨s, hs⟩ := h.ends t ht name hname
    obtain ⟨hfound, he⟩ := Chart.enabledState?_eq_some.1 hs
    obtain ⟨hmem, hn⟩ := Chart.mem_of_state? hfound
    exact ⟨s, Chart.mem_enabledStates.2 ⟨hmem, he⟩, hn⟩
  events_declared := ⟨h.resolved, h.suppressed⟩
  end_events_apart := h.end_events
  defaults_left_on_event := by
    rintro ⟨v, hv, hstop⟩ t ht he name hsource ⟨u, hu, hstart, htarget⟩
    have hend : endTransitions c ≠ [] :=
      List.ne_nil_of_mem (List.mem_filter.2 ⟨hv, decide_eq_true hstop⟩)
    exact h.eventless hend t ht he (by simp [hsource]) u hu hstart (htarget.trans hsource.symm)
  ends_on_top := fun t ht hstop s hs hsource => h.ends_on_top hd ht hstop hs hsource
  started := by
    intro s hs hkind
    obtain ⟨p, hp, hparent, hinto⟩ := unstarted?_eq_none.1 h.started s hs hkind
    exact ⟨p, hp, hparent, startsInto_eq_true.1 hinto⟩

/-- A chart as a validation leaves it that went through. -/
def Validated (c : Chart) : Prop :=
  ∃ label text base read c₀, (Chart.read label text base read ()).result = .ok c₀ ∧
    (all c₀).result = .ok () ∧ c = (all c₀).state

theorem Validated.consistent {c : Chart} (h : Validated c) : Consistent c := by
  obtain ⟨_, _, _, _, c₀, -, hall, rfl⟩ := h
  exact (consistent_of_yields (Work.yields_of_result hall)).1

theorem Validated.states_nodup {c : Chart} (h : Validated c) : (c.states.map State.name).Nodup := by
  obtain ⟨_, _, _, _, c₀, hread, hall, rfl⟩ := h
  obtain ⟨-, -, hdis, -⟩ := consistent_of_yields (Work.yields_of_result hall)
  rw [hdis.names_eq]
  exact Chart.read_states_nodup hread

theorem Validated.transitions_nodup {c : Chart} (h : Validated c) :
    (c.transitions.map Transition.name).Nodup := by
  obtain ⟨_, _, _, _, c₀, hread, hall, rfl⟩ := h
  obtain ⟨-, -, -, hnames⟩ := consistent_of_yields (Work.yields_of_result hall)
  rw [hnames]
  exact Chart.read_transitions_nodup hread

/-- A lamp with a disabled state, an event that is not qualified and a group without a base. -/
def lampLines : List String :=
  ["[STATECHART]", "name: Lamp", "[OPTIONS]",
    "[EVENTS_1]", "name: Key", "base: None", "event_1: press",
    "[STATE_1]", "name: top", "parent: None", "type: HierarchicalState",
    "entry: None", "do: None", "exit: None",
    "[STATE_2]", "name: Idle", "parent: None", "type: State",
    "entry: dim", "do: None", "exit: None",
    "[STATE_3]", "name: Lit", "parent: top", "type: State",
    "entry: None", "do: None", "exit: None",
    "[STATE_4]", "name: Broken", "parent: None", "type: State",
    "entry: None", "do: None", "exit: None", "disable: 1",
    "[TRANSITION_1]", "start: Start", "end: Idle", "event: None", "guard: None", "action: None",
    "[TRANSITION_2]", "start: Start", "end: Lit", "event: None", "guard: None", "action: None",
    "[TRANSITION_3]", "start: Start", "end: top", "event: None", "guard: None", "action: None",
    "[TRANSITION_4]", "start: top", "end: Idle", "event: press", "guard: None", "action: dim",
    "[TRANSITION_5]", "start: Lit", "end: Broken", "event: press", "guard: None", "action: None"]

def lamp : Chart where
  name := "Lamp"
  states :=
    [⟨"STATE_1", "top", none, .hierarchical, .absent, .absent, .absent, false⟩,
      ⟨"STATE_2", "Idle", none, .simple, .bare "dim", .absent, .absent, false⟩,
      ⟨"STATE_3", "Lit", some "top", .simple, .absent, .absent, .absent, false⟩,
      ⟨"STATE_4", "Broken", none, .simple, .absent, .absent, .absent, true⟩]
  groups := [⟨"EVENTS_1", "Key", none, ["press"], []⟩]
  transitions :=
    [⟨"TRANSITION_1", .start, .state "Idle", none, .absent, .absent, false⟩,
      ⟨"TRANSITION_2", .start, .state "Lit", none, .absent, .absent, false⟩,
      ⟨"TRANSITION_3", .start, .state "top", none, .absent, .absent, false⟩,
      ⟨"TRANSITION_4", .state "top", .state "Idle", some "press", .absent, .bare "dim", false⟩,
      ⟨"TRANSITION_5", .state "Lit", .state "Broken", some "press", .absent, .absent, false⟩]

def lampFiles : Reading.FileReader := fun _ => .error .notFound

theorem lamp_read :
    (Chart.read "lamp" (Text.unlines lampLines) ⟨""⟩ lampFiles ()).result = .ok lamp :=
  Chart.read_unlines (by repeat constructor) (by decide +kernel) (by decide +kernel)

theorem lamp_passes : (all lamp).result = .ok () :=
  ok_of_toOption (by decide +kernel)

theorem lamp_validated : Validated (all lamp).state :=
  ⟨"lamp", _, _, _, lamp, lamp_read, lamp_passes, rfl⟩

theorem sound_of_read_of_validated {label text : String} {base : Path}
    {read : Reading.FileReader} {c : Chart}
    (hread : (Chart.read label text base read ()).result = .ok c)
    (hall : (all c).result = .ok ()) : Sound (all c).state := by
  obtain ⟨hcons, -⟩ := consistent_of_yields (Work.yields_of_result hall)
  exact hcons.sound (Validated.states_nodup ⟨_, _, _, _, c, hread, hall, rfl⟩)

theorem lamp_sound :
    (Chart.read "lamp" (Text.unlines lampLines) ⟨""⟩ lampFiles ()).result = .ok lamp ∧
      (all lamp).result = .ok () ∧ Sound (all lamp).state :=
  ⟨lamp_read, lamp_passes, sound_of_read_of_validated lamp_read lamp_passes⟩

end Statechart.Validation
