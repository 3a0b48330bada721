import Mathlib.Data.List.Nodup
import Mathlib.Data.List.Pairwise
import Statechart.Module.Wrapper
import Statechart.Proofs.Module.Constants
import Statechart.Proofs.Target.Literals
import Statechart.Proofs.Target.Syntax

/-!
The ports that events leave through.

The route function of a module is a match on the identifier of an event. Its arms are tried from top
to bottom. Each has the identifiers of a group, and no identifier is in two groups, so the arm that
is taken is that of the first port for the group of the event.
-/
set_option autoImplicit false

namespace Statechart

def EventGroup.HasId (g : EventGroup) (id : Nat) : Prop :=
  ∃ (i : Nat) (e : String), g.events[i]? = some e ∧ g.ids[i]? = some id

theorem EventGroup.Allotted.hasId_iff {g : EventGroup} (h : g.Allotted) {id : Nat} :
    g.HasId id ↔ id ∈ g.ids := by
  obtain ⟨base, -, hids⟩ := h
  have hle : g.ids.length ≤ g.events.length := by
    rw [hids, List.length_range']
    exact (List.take_prefix _ _).length_le
  constructor
  · intro hid
    obtain ⟨i, -, -, hi⟩ := hid
    exact List.mem_of_getElem? hi
  · intro hid
    obtain ⟨i, hi, rfl⟩ := List.mem_iff_getElem.1 hid
    have hevent : i < g.events.length := Nat.lt_of_lt_of_le hi hle
    exact ⟨i, g.events[i], List.getElem?_eq_getElem hevent, List.getElem?_eq_getElem hi⟩

theorem EventGroup.Allotted.mem_ids_iff {g : EventGroup} (h : g.Allotted) {first last : Nat}
    (hfirst : g.ids.head? = some first) (hlast : g.ids.getLast? = some last) {id : Nat} :
    id ∈ g.ids ↔ first ≤ id ∧ id ≤ last := by
  obtain ⟨base, -, hids⟩ := h
  rw [hids] at hfirst hlast ⊢
  generalize g.covered.length = n at hfirst hlast ⊢
  cases n with
  | zero => simp at hfirst
  | succ n =>
    obtain rfl : base = first := by simpa [List.range'_succ] using hfirst
    obtain rfl : base + n = last := by simpa [List.getLast?_range'] using hlast
    rw [List.mem_range'_1]
    omega

def Port.Serves (p : Port) (group : String) : Prop :=
  p.disabled = false ∧ p.direction.isInput = false ∧ p.filter = some group

instance (p : Port) (group : String) : Decidable (p.Serves group) :=
  inferInstanceAs (Decidable (_ ∧ _ ∧ _))

/-- The name of the first port of the chart that serves the group. -/
def Chart.FirstServing (c : Chart) (group name : String) : Prop :=
  ∃ before p rest, c.ports = before ++ p :: rest ∧ p.Serves group ∧ p.name = name ∧
    ∀ q ∈ before, ¬ q.Serves group

namespace Module

open Target Validation

/-- The value of a match on a number, by the first arm whose range has it. A match that is not made
up of ranges with a text each, and an arm for the rest, has none. -/
def select (v : Nat) : List Token → Option (Option String)
  | [.ident "_", .punct '=' true, .punct '>' false, .ident "None", .punct ',' false] => some none
  | .literal first :: .punct '.' true :: .punct '.' true :: .punct '=' false :: .literal last ::
      .punct '=' true :: .punct '>' false :: .ident "Some" :: .group .paren [.literal port] ::
      .punct ',' false :: arms =>
    match Literal.number? first, Literal.number? last with
    | some first, some last =>
      if first ≤ v ∧ v ≤ last then (Literal.string? port).map some else select v arms
    | _, _ => none
  | _ => none

def HasArms (tokens arms : List Token) : Prop :=
  ∃ header, tokens =
    header ++ Token.braces (code "match event . 0" ++ Token.braces arms)

def Route.captures (r : Route) (v : Nat) : Bool :=
  r.first ≤ v && v ≤ r.last

theorem select_route (v : Nat) (r : Route) (arms : List Token) :
    select v (r.tokens ++ arms) = if r.captures v then some (some r.port) else select v arms := by
  have harrow : code "=> Some" = [.punct '=' true, .punct '>' false, .ident "Some"] :=
    code_ofList _
  have htokens : r.tokens ++ arms =
      .literal (toString r.first) :: .punct '.' true :: .punct '.' true :: .punct '=' false ::
        .literal (toString r.last) :: .punct '=' true :: .punct '>' false :: .ident "Some" ::
        .group .paren [.literal (Text.quoted r.port)] :: .punct ',' false :: arms := by
    rw [Route.tokens, harrow]
    rfl
  rw [htokens, select]
  simp only [Literal.number?_toString, Literal.string?_quoted, Option.map_some, Route.captures,
    Bool.and_eq_true, decide_eq_true_eq]

theorem select_routes (v : Nat) (rs : List Route) :
    select v (rs.flatMap Route.tokens ++ code "_ => None ,") =
      some ((rs.find? (·.captures v)).map Route.port) := by
  have hrest : code "_ => None ," =
      [.ident "_", .punct '=' true, .punct '>' false, .ident "None", .punct ',' false] :=
    code_ofList _
  induction rs with
  | nil =>
    rw [List.flatMap_nil, List.nil_append, hrest]
    rfl
  | cons r rs ih =>
    rw [List.flatMap_cons, List.append_assoc, select_route, ih, List.find?_cons]
    cases r.captures v <;> rfl

theorem route?_eq_some {c : Chart} {p : Port} {r : Route} :
    route? c p = some r ↔
      ∃ name g, p.filter = some name ∧ c.group? name = some g ∧
        g.ids.head? = some r.first ∧ g.ids.getLast? = some r.last ∧ r.port = p.name := by
  simp only [route?, Option.bind_eq_bind, Option.bind_eq_some_iff, Option.pure_def,
    Option.some.injEq]
  constructor
  · intro h
    obtain ⟨g, ⟨name, hname, hg⟩, first, hfirst, last, hlast, rfl⟩ := h
    exact ⟨name, g, hname, hg, hfirst, hlast, rfl⟩
  · intro h
    obtain ⟨name, g, hname, hg, hfirst, hlast, hport⟩ := h
    exact ⟨g, ⟨name, hname, hg⟩, r.first, hfirst, r.last, hlast, by rw [← hport]⟩

theorem group?_eq_some {c : Chart} (hnames : (c.groups.map EventGroup.name).Nodup)
    {name : String} {g : EventGroup} :
    c.group? name = some g ↔ g ∈ c.groups ∧ g.name = name :=
  find?_key_eq_some hnames

def leads (c : Chart) (v : Nat) (p : Port) : Bool :=
  !p.disabled && !p.direction.isInput && (route? c p).any (·.captures v)

theorem find_routes (c : Chart) (v : Nat) :
    ((routes c).find? (·.captures v)).map Route.port =
      (c.ports.find? (leads c v)).map Port.name := by
  have hsearch : (routes c).find? (·.captures v) =
      (c.ports.find? (leads c v)).bind (route? c) := by
    rw [routes, List.find?_filterMap, Chart.enabledPorts, List.find?_filter, List.find?_filter]
    congr 2
    funext p
    simp [leads, Bool.and_assoc]
  rw [hsearch]
  cases hport : c.ports.find? (leads c v) with
  | none => rfl
  | some p =>
    have hleads : leads c v p = true := List.find?_some hport
    simp only [leads, Bool.and_eq_true, Option.any_eq_true] at hleads
    obtain ⟨-, r, hr, -⟩ := hleads
    obtain ⟨-, -, -, -, -, -, hname⟩ := route?_eq_some.1 hr
    simp [hr, hname]

theorem group_unique {groups : List EventGroup} (h : (groups.flatMap EventGroup.ids).Nodup)
    {g g' : EventGroup} (hg : g ∈ groups) (hg' : g' ∈ groups) {v : Nat} (hv : v ∈ g.ids)
    (hv' : v ∈ g'.ids) : g = g' := by
  by_contra hne
  have hsymm : Std.Symm fun a b : EventGroup => List.Disjoint a.ids b.ids :=
    ⟨fun _ _ hdisjoint _ hb ha => hdisjoint ha hb⟩
  exact (List.nodup_flatMap.1 h).2.forall hg hg' hne hv hv'

section

variable {c : Chart} (hnames : (c.groups.map EventGroup.name).Nodup)
  (hallotted : ∀ g ∈ c.groups, g.Allotted)

include hnames hallotted

theorem leads_iff {p : Port} {v : Nat} :
    leads c v p = true ↔ ∃ g ∈ c.groups, v ∈ g.ids ∧ p.Serves g.name := by
  simp only [leads, Bool.and_eq_true, Bool.not_eq_true', Option.any_eq_true, Port.Serves,
    Route.captures, decide_eq_true_eq]
  constructor
  · intro h
    obtain ⟨⟨hon, hout⟩, r, hr, hv⟩ := h
    obtain ⟨name, g, hfilter, hfound, hfirst, hlast, -⟩ := route?_eq_some.1 hr
    obtain ⟨hg, rfl⟩ := (group?_eq_some hnames).1 hfound
    exact ⟨g, hg, ((hallotted g hg).mem_ids_iff hfirst hlast).2 hv, hon, hout, hfilter⟩
  · intro h
    obtain ⟨g, hg, hv, hon, hout, hfilter⟩ := h
    have hne : g.ids ≠ [] := List.ne_nil_of_mem hv
    have hfirst := List.head?_eq_some_head hne
    have hlast := List.getLast?_eq_some_getLast hne
    refine ⟨⟨hon, hout⟩, ⟨g.ids.head hne, g.ids.getLast hne, p.name⟩, ?_,
      ((hallotted g hg).mem_ids_iff hfirst hlast).1 hv⟩
    exact route?_eq_some.2
      ⟨g.name, g, hfilter, (group?_eq_some hnames).2 ⟨hg, rfl⟩, hfirst, hlast, rfl⟩

/-- Since an identifier belongs to one group, the first arm with it is that of the first port for
its group. -/
theorem find_port_iff (hids : (c.groups.flatMap EventGroup.ids).Nodup) {v : Nat}
    {name : String} :
    (c.ports.find? (leads c v)).map Port.name = some name ↔
      ∃ g ∈ c.groups, v ∈ g.ids ∧ c.FirstServing g.name name := by
  simp only [Option.map_eq_some_iff, List.find?_eq_some_iff_append, Bool.not_eq_true',
    ← Bool.not_eq_true, leads_iff hnames hallotted]
  constructor
  · intro h
    obtain ⟨p, ⟨⟨g, hg, hv, hserves⟩, before, rest, hsplit, hbefore⟩, rfl⟩ := h
    refine ⟨g, hg, hv, before, p, rest, hsplit, hserves, rfl, fun q hq hserved => ?_⟩
    exact hbefore q hq ⟨g, hg, hv, hserved⟩
  · intro h
    obtain ⟨g, hg, hv, before, p, rest, hsplit, hserves, hname, hbefore⟩ := h
    refine ⟨p, ⟨⟨g, hg, hv, hserves⟩, before, rest, hsplit, fun q hq hserved => ?_⟩, hname⟩
    obtain ⟨g', hg', hv', hserved⟩ := hserved
    rw [group_unique hids hg' hg hv' hv] at hserved
    exact hbefore q hq hserved

end

/-- The route function of a chart that was read and numbered sends an event through the first
enabled output port for its group. -/
theorem routing_exact {label text : String} {base : Path} {read : Reading.FileReader} {c : Chart}
    (hread : (Chart.read label text base read ()).result = .ok c)
    (halloc : (allocateEventIds c).result = .ok ()) :
    let after := (allocateEventIds c).state
    ∃ arms, HasArms (routeFn after) arms ∧ ∀ v : Nat,
      (∀ name, select v arms = some (some name) ↔
        ∃ g ∈ after.groups, g.HasId v ∧ after.FirstServing g.name name) ∧
      ((∀ g ∈ after.groups, ¬ g.HasId v) → select v arms = some none) ∧
      ∀ g ∈ after.groups, g.HasId v → (∀ p ∈ after.ports, ¬ p.Serves g.name) →
        select v arms = some none := by
  intro after
  obtain ⟨hcol, -, -, hafter⟩ := allocateEventIds_yields.1 (Work.yields_of_result halloc)
  have hgroups : after.groups = allocated c.groups := congrArg Chart.groups hafter
  have hbases : ∀ g ∈ fillBases none c.groups, g.base.isSome := fun _ hg => fillBases_isSome hg
  have hallotted : ∀ g ∈ after.groups, g.Allotted := allocation_allotted halloc
  have hnames : (after.groups.map EventGroup.name).Nodup := by
    rw [hgroups, names_allocated]
    exact Chart.read_groups_nodup hread
  have hids : (after.groups.flatMap EventGroup.ids).Nodup := by
    rw [hgroups]
    exact ids_nodup hbases ((collision?_eq_none hbases).1 hcol)
  have hfind : ∀ {v : Nat} {name : String},
      (after.ports.find? (leads after v)).map Port.name = some name ↔
        ∃ g ∈ after.groups, v ∈ g.ids ∧ after.FirstServing g.name name :=
    find_port_iff hnames hallotted hids
  refine ⟨(routes after).flatMap Route.tokens ++ code "_ => None ,", ⟨_, rfl⟩, fun v => ?_⟩
  rw [select_routes, find_routes]
  refine ⟨fun name => ?_, fun hno => ?_, fun g hg hid hunserved => ?_⟩
  · rw [Option.some.injEq, hfind]
    refine exists_congr fun g => and_congr_right fun hg => ?_
    rw [(hallotted g hg).hasId_iff]
  · cases hport : (after.ports.find? (leads after v)).map Port.name with
    | none => rfl
    | some name =>
      obtain ⟨g, hg, hv, -⟩ := hfind.1 hport
      exact absurd ((hallotted g hg).hasId_iff.2 hv) (hno g hg)
  · cases hport : (after.ports.find? (leads after v)).map Port.name with
    | none => rfl
    | some name =>
      obtain ⟨g', hg', hv, before, p, rest, hsplit, hserves, -⟩ := hfind.1 hport
      rw [group_unique hids hg' hg hv ((hallotted g hg).hasId_iff.1 hid)] at hserves
      exact absurd hserves (hunserved p (by simp [hsplit]))

/-- A depot whose orders leave through a till, with a bell that listens before it and a copy after
it. Its stock stays. -/
def depotLines : List String :=
  ["[STATECHART]", "name = Depot", "[OPTIONS]",
    "[EVENTS_1]", "name = Order", "base = 10", "event_1 = placed", "event_2 = paid",
    "[EVENTS_2]", "name = Stock", "base = None", "event_1 = low",
    "[STATE_1]", "name = Idle", "parent = None", "type = State",
    "entry = None", "do = None", "exit = None",
    "[TRANSITION_1]", "start = Start", "end = Idle", "event = None", "guard = None",
    "action = None",
    "[PORT_INIT]", "import_type = zmq", "import_name = wire",
    "[PORT_1]", "host = h", "port = 1", "name = bell", "type = pull", "format = AnyEvent",
    "events = Order",
    "[PORT_2]", "host = h", "port = 2", "name = till", "type = push", "format = AnyEvent",
    "events = Order",
    "[PORT_3]", "host = h", "port = 3", "name = copy", "type = push", "format = AnyEvent",
    "events = Order"]

def depot : Chart where
  name := "Depot"
  states := [⟨"STATE_1", "Idle", none, .simple, .absent, .absent, .absent, false⟩]
  groups :=
    [⟨"EVENTS_1", "Order", some 10, ["placed", "paid"], []⟩,
      ⟨"EVENTS_2", "Stock", none, ["low"], []⟩]
  transitions := [⟨"TRANSITION_1", .start, .state "Idle", none, .absent, .absent, false⟩]
  transport := some ⟨"zmq", "wire"⟩
  ports :=
    [⟨"PORT_1", "h", 1, "bell", .pull, .anyEvent, some "Order", false⟩,
      ⟨"PORT_2", "h", 2, "till", .push, .anyEvent, some "Order", false⟩,
      ⟨"PORT_3", "h", 3, "copy", .push, .anyEvent, some "Order", false⟩]

theorem depot_routing :
    (Chart.read "depot.ini" (Text.unlines depotLines) ⟨""⟩ (fun _ => .error .notFound) ()).result =
        .ok depot ∧
      (allocateEventIds depot).result = .ok () ∧
      ∃ arms, HasArms (routeFn (allocateEventIds depot).state) arms ∧
        select 11 arms = some (some "till") ∧ select 12 arms = some none ∧
        select 13 arms = some none := by
  have hread : (Chart.read "depot.ini" (Text.unlines depotLines) ⟨""⟩
      (fun _ => .error .notFound) ()).result = .ok depot :=
    Chart.read_unlines (by repeat constructor) (by decide +kernel) (by decide +kernel)
  have hclear : collision? (fillBases none depot.groups) = none := by
    have hbases : ∀ g ∈ fillBases none depot.groups, g.base.isSome := fun _ => fillBases_isSome
    have hclaimed : claimed (fillBases none depot.groups) =
        [⟨"Order", 10, 12⟩, ⟨"Stock", 12, 13⟩] := by
      decide +kernel
    rw [collision?_eq_none hbases, ← pairwise_claimed_iff hbases, hclaimed, List.pairwise_pair]
    intro hmeets
    obtain ⟨id, ⟨-, hstop⟩, hbase, -⟩ := hmeets
    exact absurd hbase (Nat.not_le_of_lt hstop)
  have hyields : allocateEventIds.Yields depot () _ _ :=
    allocateEventIds_yields.2 ⟨hclear, by decide, rfl, rfl⟩
  have hgroups : (allocateEventIds depot).state.groups =
      [⟨"EVENTS_1", "Order", some 10, ["placed", "paid"], [10, 11]⟩,
        ⟨"EVENTS_2", "Stock", some 12, ["low"], [12]⟩] := by
    rw [hyields.state_eq]
    decide +kernel
  have hports : (allocateEventIds depot).state.ports = depot.ports := by rw [hyields.state_eq]
  obtain ⟨arms, harms, hselect⟩ := routing_exact hread hyields.result_eq
  simp only [Chart.FirstServing, hports, hgroups, List.forall_mem_cons] at hselect
  refine ⟨hread, hyields.result_eq, arms, harms, ?_, ?_, ?_⟩
  · refine ((hselect 11).1 "till").2 ⟨_, List.mem_cons_self, ⟨1, "paid", rfl, rfl⟩, ?_⟩
    exact ⟨depot.ports.take 1, _, _, rfl, by decide, rfl, by decide⟩
  · exact (hselect 12).2.2.2.1 ⟨0, "low", rfl, rfl⟩ (by decide)
  · refine (hselect 13).2.1 ⟨?_, ?_, by simp⟩
    · intro hid
      obtain ⟨i, e, -, hi⟩ := hid
      simpa using List.mem_of_getElem? hi
    · intro hid
      obtain ⟨i, e, -, hi⟩ := hid
      simpa using List.mem_of_getElem? hi

end Module

end Statechart
