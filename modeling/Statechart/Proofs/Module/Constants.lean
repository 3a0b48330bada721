import Mathlib.Data.List.TakeDrop
import Statechart.Proofs.Compile.Stages
import Statechart.Proofs.Module.Names
import Statechart.Proofs.Target.Literals
import Statechart.Proofs.Validation.Allocation

/-!
The constants of events.

The end of a range is cut off at the largest word, and a constant is made where there is both an
event and an identifier. So a group loses the events at its end whose identifiers would reach the
largest word.
-/
set_option autoImplicit false

namespace Statechart

namespace EventGroup

def Parallel (g : EventGroup) : Prop :=
  ∃ base, g.base = some base ∧ g.ids.length = g.events.length ∧
    ∀ i < g.events.length, g.ids[i]? = some (base + i)

/-- Counted from the base, no event reaches the largest word. -/
def HasRoom (g : EventGroup) : Prop :=
  ∃ base, g.base = some base ∧ ∀ i < g.events.length, base + i < maxWord

/-- The events before the first that reaches the largest word. -/
def covered (g : EventGroup) : List String :=
  g.events.take (maxWord - g.base.getD 0)

theorem take_covered (g : EventGroup) : g.events.take g.covered.length = g.covered := by
  rw [covered, List.take_eq_take_iff, List.length_take]
  omega

theorem covered_eq_events_iff {g : EventGroup} {base : Nat} (h : g.base = some base) :
    g.covered = g.events ↔ g.HasRoom := by
  simp only [covered, HasRoom, h, Option.getD_some, Option.some.injEq, exists_eq_left',
    List.take_eq_self_iff]
  constructor
  · intro hle i hi
    omega
  · intro hall
    by_contra hlt
    have hlast := hall (g.events.length - 1) (by omega)
    omega

def Allotted (g : EventGroup) : Prop :=
  ∃ base, g.base = some base ∧ g.ids = List.range' base g.covered.length

theorem Allotted.parallel_iff {g : EventGroup} (h : g.Allotted) : g.Parallel ↔ g.HasRoom := by
  obtain ⟨base, hbase, hids⟩ := h
  rw [← covered_eq_events_iff hbase]
  constructor
  · intro hpar
    obtain ⟨-, -, hlen, -⟩ := hpar
    rw [hids, List.length_range'] at hlen
    exact (List.take_prefix _ _).eq_of_length hlen
  · intro heq
    rw [heq] at hids
    refine ⟨base, hbase, by simp [hids], ?_⟩
    intro i hi
    simp [hids, hi]

end EventGroup

namespace Validation

theorem Numbered.allotted {g g' : EventGroup} (h : Numbered g g') : g'.Allotted := by
  obtain ⟨r, ⟨base, hbase, rfl⟩, rfl⟩ := h
  refine ⟨base, hbase, ?_⟩
  simp only [EventGroup.covered, hbase, Option.getD_some, List.length_take]
  congr 1
  omega

theorem allocation_allotted {c : Chart} (h : (allocateEventIds c).result = .ok ()) :
    ∀ g ∈ (allocateEventIds c).state.groups, g.Allotted := by
  obtain ⟨-, -, -, hstate⟩ := allocateEventIds_yields.1 (Work.yields_of_result h)
  intro g hg
  rw [hstate] at hg
  obtain ⟨f, hf, rfl⟩ := List.mem_map.1 hg
  exact (numbered_of_isSome (fillBases_isSome hf)).allotted

end Validation

namespace Module

open Target Validation

def constants? : List Token → Option (List (String × Nat))
  | [] => some []
  | .ident "pub" :: .ident "const" :: .ident name :: .punct ':' false :: .ident "EventId" ::
      .punct '=' false :: .ident "EventId" :: .group .paren [.literal id] :: .punct ';' false ::
      rest => do
    return (name, ← Literal.number? id) :: (← constants? rest)
  | _ => none

def declared? : List Token → Option (List (String × List (String × Nat)))
  | [] => some []
  | .punct '#' false :: .group .bracket _ :: .ident "pub" :: .ident "struct" :: .ident name ::
      .punct ';' false :: .ident "impl" :: .ident owner :: .group .brace body :: rest =>
    if owner = name then do
      return (name, ← constants? body) :: (← declared? rest)
    else none
  | _ => none

theorem constants?_tokens (ks : List EventConstant) :
    constants? (ks.flatMap EventConstant.tokens) = some (ks.map fun k => (k.name.text, k.id)) := by
  have hconst : code "pub const" = [.ident "pub", .ident "const"] := code_ofList _
  have htype : code ": EventId = EventId" =
      [.punct ':' false, .ident "EventId", .punct '=' false, .ident "EventId"] := code_ofList _
  have hend : Token.op ";" = [.punct ';' false] := rfl
  induction ks with
  | nil => rfl
  | cons k ks ih =>
    have hid : Literal.number? k.id.repr = some k.id := Literal.number?_toString k.id
    rw [List.flatMap_cons, EventConstant.tokens, hconst, htype, hend]
    simp [Ident.tokens, Token.word, Token.parens, numberLiteral, constants?, hid, ih]

theorem declared?_tokens (types : List GroupType) :
    declared? (types.flatMap GroupType.tokens) =
      some (types.map fun t => (t.name.text, t.constants.map fun k => (k.name.text, k.id))) := by
  induction types with
  | nil => rfl
  | cons t types ih =>
    rw [List.flatMap_cons, GroupType.tokens_eq]
    simp [declared?, constants?_tokens, ih]

def Spells (origin name text : String) : Prop :=
  ∃ i, readIdent origin name = .ok i ∧ text = i.text

/-- One constant for each of the events, in order, with identifiers counted from the base. -/
def Declares (g : EventGroup) (events : List String) (constants : List (String × Nat)) : Prop :=
  ∃ base, g.base = some base ∧ constants.map Prod.snd = List.range' base events.length ∧
    List.Forall₂ (fun event k => Spells g.origin event k.1) events constants

theorem readConstants_eq_ok {origin : String} {events : List String} {ids : List Nat}
    {constants : List EventConstant}
    (h : GroupType.readConstants origin events ids = .ok constants) :
    constants.map EventConstant.id = ids.take events.length ∧
      List.Forall₂ (fun event k => readIdent origin event = .ok k.name)
        (events.take ids.length) constants := by
  induction events generalizing ids constants with
  | nil =>
    obtain rfl := Except.ok.inj h
    simp
  | cons event events ih =>
    cases ids with
    | nil =>
      obtain rfl := Except.ok.inj h
      simp
    | cons id ids =>
      rw [GroupType.readConstants] at h
      obtain ⟨name, hname, h⟩ := bind_eq_ok.1 h
      obtain ⟨rest, hrest, h⟩ := bind_eq_ok.1 h
      obtain rfl := Except.ok.inj h
      obtain ⟨hids, hnames⟩ := ih hrest
      exact ⟨by simp [hids], .cons hname hnames⟩

theorem declares_of_ofGroup {g : EventGroup} {t : GroupType} (hg : g.Allotted)
    (h : GroupType.ofGroup g = .ok t) :
    Spells g.origin g.name t.name.text ∧
      Declares g g.covered (t.constants.map fun k => (k.name.text, k.id)) := by
  obtain ⟨base, hbase, hids⟩ := hg
  obtain ⟨name, hname, h⟩ := bind_eq_ok.1 h
  obtain ⟨constants, hconstants, h⟩ := bind_eq_ok.1 h
  obtain rfl := Except.ok.inj h
  obtain ⟨hnumbers, hnames⟩ := readConstants_eq_ok hconstants
  have hle : g.covered.length ≤ g.events.length := (List.take_prefix _ _).length_le
  refine ⟨⟨name, hname, rfl⟩, base, hbase, ?_, ?_⟩
  · rw [List.map_map, ← List.take_of_length_le (by simpa using hle) (l := List.range' _ _), ← hids]
    exact hnumbers
  · rw [hids, List.length_range', g.take_covered] at hnames
    exact List.forall₂_map_right_iff.2 (hnames.imp fun _ k hk => ⟨k.name, hk, rfl⟩)

theorem declares_events_iff {g : EventGroup} {constants : List (String × Nat)} (hg : g.Allotted)
    (h : Declares g g.covered constants) : Declares g g.events constants ↔ g.HasRoom := by
  obtain ⟨base, hbase, hids⟩ := hg
  rw [← EventGroup.covered_eq_events_iff hbase]
  constructor
  · intro hall
    obtain ⟨-, -, -, hcovered⟩ := h
    obtain ⟨-, -, -, hevents⟩ := hall
    exact (List.take_prefix _ _).eq_of_length (hcovered.length_eq.trans hevents.length_eq.symm)
  · intro heq
    rwa [heq] at h

/-- The name of the group, and of every event that is covered, is an identifier. -/
def Spellable (g : EventGroup) : Prop :=
  (∃ i, readIdent g.origin g.name = .ok i) ∧
    ∀ event ∈ g.covered, ∃ i, readIdent g.origin event = .ok i

theorem exists_ok_pair {ε α β γ : Type} {x : Except ε α} {y : Except ε β} {f : α → β → γ} :
    (∃ c, (do return f (← x) (← y)) = Except.ok c) ↔ (∃ a, x = .ok a) ∧ ∃ b, y = .ok b := by
  cases x with
  | error e => simp [bind, Except.bind]
  | ok a => cases y <;> simp [bind, Except.bind, pure, Except.pure]

theorem exists_readConstants {origin : String} {events : List String} {ids : List Nat} :
    (∃ constants, GroupType.readConstants origin events ids = .ok constants) ↔
      ∀ event ∈ events.take ids.length, ∃ i, readIdent origin event = .ok i := by
  induction events generalizing ids with
  | nil => simp [GroupType.readConstants]
  | cons event events ih =>
    cases ids with
    | nil => simp [GroupType.readConstants]
    | cons id ids =>
      rw [List.length_cons, List.take_succ_cons, List.forall_mem_cons, ← ih]
      exact exists_ok_pair

theorem exists_ofGroup {g : EventGroup} (hg : g.Allotted) :
    (∃ t, GroupType.ofGroup g = .ok t) ↔ Spellable g := by
  obtain ⟨base, -, hids⟩ := hg
  have hcovered : g.events.take g.ids.length = g.covered := by
    rw [hids, List.length_range', g.take_covered]
  rw [Spellable, ← hcovered, ← exists_readConstants]
  exact exists_ok_pair

theorem exists_mapAll {ε α β : Type} {f : α → Except ε β} {as : List α} :
    (∃ bs, mapAll f as = .ok bs) ↔ ∀ a ∈ as, ∃ b, f a = .ok b := by
  induction as with
  | nil => simp [mapAll]
  | cons a as ih =>
    rw [List.forall_mem_cons, ← ih]
    exact exists_ok_pair

theorem exists_eventGroups {c : Chart} :
    (∃ tokens, eventGroups c = .ok tokens) ↔ ∃ types, groupTypes c = .ok types := by
  constructor
  · rintro ⟨tokens, h⟩
    obtain ⟨types, htypes, -⟩ := bind_eq_ok.1 h
    exact ⟨types, htypes⟩
  · rintro ⟨types, htypes⟩
    exact ⟨_, bind_eq_ok.2 ⟨types, htypes, rfl⟩⟩

theorem event_constants_complete_iff {c : Chart} (h : (allocateEventIds c).result = .ok ()) :
    let after := (allocateEventIds c).state
    (∀ g ∈ after.groups, g.Allotted ∧ (g.Parallel ↔ g.HasRoom)) ∧
      ((∃ tokens, eventGroups after = .ok tokens) ↔ ∀ g ∈ after.groups, Spellable g) ∧
      ∀ tokens, eventGroups after = .ok tokens → ∃ declared, declared? tokens = some declared ∧
        List.Forall₂ (fun g d => Spells g.origin g.name d.1 ∧ Declares g g.covered d.2 ∧
          (Declares g g.events d.2 ↔ g.HasRoom)) after.groups declared := by
  intro after
  have hallotted := allocation_allotted h
  refine ⟨fun g hg => ⟨hallotted g hg, (hallotted g hg).parallel_iff⟩, ?_, ?_⟩
  · rw [exists_eventGroups, groupTypes, exists_mapAll]
    exact forall₂_congr fun g hg => exists_ofGroup (hallotted g hg)
  · intro tokens htokens
    obtain ⟨types, htypes, htokens⟩ := bind_eq_ok.1 htokens
    obtain rfl := Except.ok.inj htokens
    refine ⟨_, declared?_tokens types, List.forall₂_map_right_iff.2 ?_⟩
    refine ((List.forall₂_and_left _ _).2 ⟨hallotted, mapAll_eq_ok.1 htypes⟩).imp ?_
    intro g t hgt
    obtain ⟨hname, hdeclares⟩ := declares_of_ofGroup hgt.1 hgt.2
    exact ⟨hname, hdeclares, declares_events_iff hgt.1 hdeclares⟩

theorem bulb_constants_complete :
    (allocateEventIds bulb).result = .ok () ∧
      ∃ tokens declared, eventGroups (allocateEventIds bulb).state = .ok tokens ∧
        declared? tokens = some declared ∧
        List.Forall₂ (fun g d => g.Parallel ∧ Declares g g.events d.2)
          (allocateEventIds bulb).state.groups declared := by
  have hpasses : (allocateEventIds bulb).result = .ok () := ok_of_toOption (by decide +kernel)
  have hgroups : (allocateEventIds bulb).state.groups =
      [⟨"EVENTS_1", "Key", some 1, ["press"], [1]⟩] := by decide +kernel
  have htypes : groupTypes (allocateEventIds bulb).state =
      .ok [⟨.ofText "Key", [⟨.ofText "press", 1⟩]⟩] := ok_of_toOption (by decide +kernel)
  have hroom : ∀ g ∈ (allocateEventIds bulb).state.groups, g.HasRoom := by
    rw [hgroups]
    intro g hg
    obtain rfl := List.mem_singleton.1 hg
    exact ⟨1, rfl, by decide⟩
  obtain ⟨tokens, htokens⟩ := exists_eventGroups.2 ⟨_, htypes⟩
  obtain ⟨hparallel, -, hdeclares⟩ := event_constants_complete_iff hpasses
  obtain ⟨declared, hread, hall⟩ := hdeclares tokens htokens
  refine ⟨hpasses, tokens, declared, htokens, hread, ?_⟩
  have hgood : ∀ g ∈ (allocateEventIds bulb).state.groups, g.Parallel ∧ g.HasRoom :=
    fun g hg => ⟨(hparallel g hg).2.2 (hroom g hg), hroom g hg⟩
  refine ((List.forall₂_and_left _ _).2 ⟨hgood, hall⟩).imp ?_
  rintro g d ⟨⟨hpar, hrooms⟩, -, -, hiff⟩
  exact ⟨hpar, hiff.2 hrooms⟩

/-- The bulb, with its key at the largest word. -/
def brimLines : List String :=
  bulbLines.map fun l => if l = "base = 1" then "base = 4294967295" else l

def brim : Chart :=
  { bulb with groups := [⟨"EVENTS_1", "Key", some 4294967295, ["press"], []⟩] }

/-- The key is numbered without complaint, and is declared without its one event. -/
theorem brim_event_lost :
    (Chart.read "bulb.ini" (Text.unlines brimLines) ⟨""⟩ (fun _ => .error .notFound) ()).result =
        .ok brim ∧
      (allocateEventIds brim).result = .ok () ∧
      (∃ g ∈ (allocateEventIds brim).state.groups, g.events = ["press"] ∧ ¬ g.Parallel) ∧
      ∃ tokens, eventGroups (allocateEventIds brim).state = .ok tokens ∧
        declared? tokens = some [("Key", [])] := by
  have hgroups : (allocateEventIds brim).state.groups =
      [⟨"EVENTS_1", "Key", some 4294967295, ["press"], []⟩] := by decide +kernel
  have htypes : groupTypes (allocateEventIds brim).state = .ok [⟨.ofText "Key", []⟩] :=
    ok_of_toOption (by decide +kernel)
  refine ⟨Chart.read_unlines (by repeat constructor) (by decide +kernel) (by decide +kernel),
    ok_of_toOption (by decide +kernel), ?_, ?_⟩
  · refine ⟨_, by rw [hgroups]; exact List.mem_singleton_self _, rfl, ?_⟩
    intro hparallel
    obtain ⟨base, -, hlen, -⟩ := hparallel
    simp at hlen
  · exact ⟨_, bind_eq_ok.2 ⟨_, htypes, rfl⟩, declared?_tokens _⟩

end Module

end Statechart
