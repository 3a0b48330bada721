import Statechart.Proofs.Design.Headers
import Statechart.Proofs.Reading.Chart

/-!
Charts that were read are well-formed.

What is looked up by name later on, or by section, is there once: names are distinct where a name
that was there before is refused, and sections are distinct since a family has none of them twice.
-/
set_option autoImplicit false

namespace Statechart

structure State.WellFormed (s : State) : Prop where
  trimmed : Text.trim s.name = s.name
  nonempty : s.name ≠ ""
  present : s.name ≠ "None"
  parent : ∀ p ∈ s.parent, Text.trim p = p ∧ p ≠ ""

structure EventGroup.WellFormed (g : EventGroup) : Prop where
  trimmed : Text.trim g.name = g.name
  inhabited : g.events ≠ []
  events_trimmed : ∀ e ∈ g.events, Text.trim e = e
  events_distinct : g.events.Nodup
  /-- Identifiers are given out later. -/
  ids : g.ids = []

structure Transition.WellFormed (t : Transition) : Prop where
  /-- An event is named and not declared. -/
  event : ∀ e ∈ t.event, ¬ "Event(".toList <:+: e.toList

structure Chart.WellFormed (c : Chart) : Prop where
  states_inhabited : c.states ≠ []
  states : ∀ s ∈ c.states, s.WellFormed
  state_names : (c.states.map State.name).Nodup
  state_origins : (c.states.map State.origin).Nodup
  groups : ∀ g ∈ c.groups, g.WellFormed
  group_names : (c.groups.map EventGroup.name).Nodup
  group_origins : (c.groups.map EventGroup.origin).Nodup
  transitions_inhabited : c.transitions ≠ []
  transitions : ∀ t ∈ c.transitions, t.WellFormed
  /-- Transitions are named after their sections. -/
  transition_names : (c.transitions.map Transition.name).Nodup
  port_names : (c.ports.map Port.name).Nodup
  port_origins : (c.ports.map Port.origin).Nodup
  transport : c.transport.isSome = true ↔ c.ports ≠ []

namespace Reading

open Design

variable {f : File} {j : Journal} {u : Unit}

/-- Members that go with the sections of a family: there are some if there are sections, all of them
are as one member is, and the sections that they come from are distinct. -/
theorem members_of_family {α : Type} {P : α → Prop} {origin : α → String} {family : String}
    {as : List α} (h : List.Forall₂ (fun s a => origin a = s.name ∧ P a) (f.family family) as) :
    (f.family family ≠ [] → as ≠ []) ∧ (∀ a ∈ as, P a) ∧ (as.map origin).Nodup := by
  refine ⟨fun hne hnil => hne ?_, fun a ha => ?_, ?_⟩
  · rw [hnil] at h
    exact List.forall₂_nil_right_iff.1 h
  · obtain ⟨_, -, -, hP⟩ := forall₂_exists_left h ha
    exact hP
  · rw [forall₂_map_eq h And.left]
    exact File.family_nodup f family

theorem states_wellFormed {ss : List State} (h : (states f).Yields () ss j u) :
    ss ≠ [] ∧ (∀ s ∈ ss, s.WellFormed) ∧ (ss.map State.origin).Nodup := by
  obtain ⟨hne, _, _, hturn⟩ := states_inTurn h
  refine (members_of_family (inTurn_forall₂ ?_ hturn)).imp_left fun hsome => hsome hne
  intro before s a j u ha
  obtain ⟨horigin, -, htrimmed, hnonempty, hpresent, hparent⟩ := state_read ha
  exact ⟨horigin, htrimmed, hnonempty, hpresent, hparent⟩

theorem groups_wellFormed {gs : List EventGroup} (h : (groups f).Yields () gs j u) :
    (∀ g ∈ gs, g.WellFormed) ∧ (gs.map EventGroup.origin).Nodup := by
  obtain ⟨_, _, hturn⟩ := groups_inTurn h
  refine (members_of_family (inTurn_forall₂ ?_ hturn)).2
  intro before s g j u hg
  obtain ⟨horigin, -, ⟨hname, hevents⟩, hinhabited, hdistinct, hids⟩ := group_read hg
  exact ⟨horigin, hname, hinhabited, hevents, hdistinct, hids⟩

theorem transitions_wellFormed {ts : List Transition} (h : (transitions f).Yields () ts j u) :
    ts ≠ [] ∧ ∀ t ∈ ts, t.WellFormed := by
  obtain ⟨hne, _, _, hts⟩ := transitions_collect h
  have hmembers : List.Forall₂ (fun s t => t.name = s.name ∧ t.WellFormed)
      (f.family "TRANSITION_") ts := by
    refine collect_forall₂ (fun s t j u ht => ?_) hts
    obtain ⟨hname, -, -, hevent⟩ := transition_read ht
    refine ⟨hname, ⟨fun e he hdeclares => ?_⟩⟩
    have hfree := hevent e he
    rw [Text.contains_iff.2 hdeclares] at hfree
    cases hfree
  obtain ⟨hsome, hall, -⟩ := members_of_family hmembers
  exact ⟨hsome hne, hall⟩

theorem ports_wellFormed {transport : Option Transport} {ps : List Port}
    (h : (ports f).Yields () (transport, ps) j u) :
    (ps.map Port.name).Nodup ∧ (ps.map Port.origin).Nodup ∧
      (transport.isSome = true ↔ ps ≠ []) := by
  rcases ports_inTurn h with hnone | ⟨hsome, hne, _, _, hturn⟩
  · obtain ⟨rfl, rfl⟩ := Prod.mk.inj hnone
    simp
  · have hmembers : List.Forall₂ (fun s p => p.origin = s.name ∧ True) (f.family "PORT_") ps :=
      inTurn_forall₂ (fun _ _ _ _ _ hp => ⟨(port_read hp).1, trivial⟩) hturn
    obtain ⟨hinhabited, -, horigins⟩ := members_of_family hmembers
    exact ⟨inTurn_nodup (fun _ _ _ _ _ hp => (port_read hp).2) hturn, horigins,
      iff_of_true hsome (hinhabited hne)⟩

end Reading

/-- Whatever text a chart is read from, and wherever its files are sought, it is well-formed. -/
theorem Chart.wellFormed_of_read {label text : String} {base : Path} {read : Reading.FileReader}
    {c : Chart} (h : (Chart.read label text base read ()).result = .ok c) : c.WellFormed := by
  obtain ⟨f, -, ⟨_, _, hs⟩, ⟨_, _, hg⟩, ⟨_, _, ht⟩, _, _, hp⟩ := read_parts h
  obtain ⟨hstates, hstate, hstateOrigins⟩ := Reading.states_wellFormed hs
  obtain ⟨hgroup, hgroupOrigins⟩ := Reading.groups_wellFormed hg
  obtain ⟨htransitions, htransition⟩ := Reading.transitions_wellFormed ht
  obtain ⟨hportNames, hportOrigins, htransport⟩ := Reading.ports_wellFormed hp
  exact {
    states_inhabited := hstates
    states := hstate
    state_names := Reading.states_nodup hs
    state_origins := hstateOrigins
    groups := hgroup
    group_names := Reading.groups_nodup hg
    group_origins := hgroupOrigins
    transitions_inhabited := htransitions
    transitions := htransition
    transition_names := Reading.transitions_nodup ht
    port_names := hportNames
    port_origins := hportOrigins
    transport := htransport }

namespace Reading

open Design

/-- A tram with a bell, and a state that is named like the end of a chart. -/
def tramLines : List String :=
  ["[STATECHART]", "name: Tram", "[OPTIONS]",
    "[EVENTS_1]", "base:", "name: Bell", "event_1: ring", "event_2: rest",
    "[STATE_1]", "name: Run", "parent:", "type: State", "entry:", "do:", "exit:",
    "[STATE_1_1]", "name: End", "parent: Run", "type: State", "entry:", "do:", "exit:",
    "[TRANSITION_1]", "start: Run", "end: End", "event: ring", "guard:", "action:",
    "[PORT_INIT]", "import_type: zmq", "import_name: wire",
    "[PORT_1]", "host: h", "port: 1", "name: line", "type: push", "format: AnyEvent", "events:"]

def tram : Chart where
  name := "Tram"
  states :=
    [⟨"STATE_1", "Run", none, .simple, .absent, .absent, .absent, false⟩,
      ⟨"STATE_1_1", "End", some "Run", .simple, .absent, .absent, .absent, false⟩]
  groups := [⟨"EVENTS_1", "Bell", none, ["ring", "rest"], []⟩]
  transitions := [⟨"TRANSITION_1", .state "Run", .stop, some "ring", .absent, .absent, false⟩]
  transport := some ⟨"zmq", "wire"⟩
  ports := [⟨"PORT_1", "h", 1, "line", .push, .anyEvent, none, false⟩]

def tramEdge : Section :=
  ⟨"TRANSITION_1", [⟨"start", "Run"⟩, ⟨"end", "End"⟩, ⟨"event", "ring"⟩, ⟨"guard", ""⟩,
    ⟨"action", ""⟩]⟩

def tramFile : File :=
  ⟨"tram.ini", tramLines,
    [⟨"STATECHART", [⟨"name", "Tram"⟩]⟩, ⟨"OPTIONS", []⟩,
      ⟨"EVENTS_1", [⟨"base", ""⟩, ⟨"name", "Bell"⟩, ⟨"event_1", "ring"⟩, ⟨"event_2", "rest"⟩]⟩,
      ⟨"STATE_1", [⟨"name", "Run"⟩, ⟨"parent", ""⟩, ⟨"type", "State"⟩, ⟨"entry", ""⟩, ⟨"do", ""⟩,
        ⟨"exit", ""⟩]⟩,
      ⟨"STATE_1_1", [⟨"name", "End"⟩, ⟨"parent", "Run"⟩, ⟨"type", "State"⟩, ⟨"entry", ""⟩,
        ⟨"do", ""⟩, ⟨"exit", ""⟩]⟩,
      tramEdge,
      ⟨"PORT_INIT", [⟨"import_type", "zmq"⟩, ⟨"import_name", "wire"⟩]⟩,
      ⟨"PORT_1", [⟨"host", "h"⟩, ⟨"port", "1"⟩, ⟨"name", "line"⟩, ⟨"type", "push"⟩,
        ⟨"format", "AnyEvent"⟩, ⟨"events", ""⟩]⟩]⟩

def tramFiles : FileReader := fun _ => .error .notFound

theorem tram_parsed : File.parse "tram.ini" (Text.unlines tramLines) = .ok tramFile :=
  File.parse_unlines (by repeat constructor) (by decide +kernel) (by decide +kernel)

theorem tram_read :
    (Chart.read "tram.ini" (Text.unlines tramLines) ⟨""⟩ tramFiles ()).result = .ok tram :=
  Chart.read_unlines (by repeat constructor) (by decide +kernel) (by decide +kernel)

theorem tram_wellFormed :
    (Chart.read "tram.ini" (Text.unlines tramLines) ⟨""⟩ tramFiles ()).result = .ok tram ∧
      tram.WellFormed :=
  ⟨tram_read, Chart.wellFormed_of_read tram_read⟩

end Reading

end Statechart
