import Mathlib.Data.List.Perm.Subperm
import Statechart.Proofs.Lists
import Statechart.Proofs.Validation.Events

/-!
What references to events mean.

`Denotes` gives the meaning of a reference apart from the search for it: a text with a point names
the group and the event on its two sides, a text without one the event of the only group that has
it. The search finds exactly this. What it finds is the form of a declared event and means itself,
and where names are distinct it is the form of one declared event only.

The suppressed events are out of the chart while they are resolved, so that one without a meaning
loses them all.
-/
set_option autoImplicit false

namespace Statechart

theorem lookupEvent_qualified (groups : List EventGroup) (context : String) {a b : String}
    (ha : Text.containsChar '.' a = false) :
    lookupEvent groups context (a ++ "." ++ b) =
      if groups.any fun g => g.name == Text.trim a && g.contains (Text.trim b) then
        .ok ⟨Text.trim a ++ "." ++ Text.trim b, false⟩
      else .error (.unresolved context .event (Text.trim (a ++ "." ++ b))) := by
  obtain ⟨a', b', hcut, ha', hb'⟩ := Text.cut?_trim_around (b := b) (c := '.') rfl ha
  have hcut : Text.cut? (· = '.') (Text.trim (a ++ "." ++ b)) = some (a', b') := hcut
  simp only [lookupEvent, hcut, ha', hb']

theorem cut?_trim_bare {reference : String} (h : Text.containsChar '.' reference = false) :
    Text.cut? (· = '.') (Text.trim reference) = none := by
  have hnone := Text.isSome_cut? '.' (Text.trim reference)
  rw [Text.containsChar_trim rfl, h] at hnone
  simpa using hnone

theorem lookupEvent_bare_eq_ok {groups : List EventGroup} {context reference : String}
    {resolved : Resolved} (h : Text.containsChar '.' reference = false) :
    lookupEvent groups context reference = .ok resolved ↔
      ∃ g, groups.filter (·.contains (Text.trim reference)) = [g] ∧
        resolved = ⟨g.name ++ "." ++ Text.trim reference, true⟩ := by
  simp only [lookupEvent, cut?_trim_bare h]
  cases groups.filter (·.contains (Text.trim reference)) with
  | nil => simp
  | cons g gs =>
    cases gs with
    | nil => simp [eq_comm]
    | cons g' gs => simp

theorem lookupEvent_bare_ambiguous {groups : List EventGroup} {context reference : String}
    (h : Text.containsChar '.' reference = false) :
    (∃ place event owners,
        lookupEvent groups context reference = .error (.ambiguous place event owners)) ↔
      2 ≤ (groups.filter (·.contains (Text.trim reference))).length := by
  simp only [lookupEvent, cut?_trim_bare h]
  cases groups.filter (·.contains (Text.trim reference)) with
  | nil => simp
  | cons g gs =>
    cases gs with
    | nil => simp
    | cons g' gs => simp

/-- What references mean: the qualified form of an event, and whether it was written without its
group. Blanks around the parts do not matter. -/
inductive Denotes (groups : List EventGroup) : (reference qualified : String) → Bool → Prop where
  | qualified {g : EventGroup} {a b : String} : g ∈ groups → Text.containsChar '.' a = false →
      Text.trim a = g.name → Text.trim b ∈ g.events →
      Denotes groups (a ++ "." ++ b) (g.name ++ "." ++ Text.trim b) false
  | bare {g : EventGroup} {reference : String} : Text.containsChar '.' reference = false →
      groups.filter (·.contains (Text.trim reference)) = [g] →
      Denotes groups reference (g.name ++ "." ++ Text.trim reference) true

theorem lookupEvent_eq_ok_iff {groups : List EventGroup} {context reference q : String}
    {w : Bool} :
    lookupEvent groups context reference = .ok ⟨q, w⟩ ↔ Denotes groups reference q w := by
  constructor
  · intro h
    cases hpoint : Text.containsChar '.' reference with
    | false =>
      obtain ⟨g, hone, hresolved⟩ := (lookupEvent_bare_eq_ok hpoint).1 h
      obtain ⟨rfl, rfl⟩ := Resolved.mk.inj hresolved
      exact .bare hpoint hone
    | true =>
      obtain ⟨a, b, rfl, ha⟩ := Text.exists_around hpoint
      have h : lookupEvent groups context (a ++ "." ++ b) = .ok ⟨q, w⟩ := h
      rw [lookupEvent_qualified groups context ha] at h
      split at h
      · rename_i hany
        obtain ⟨g, hg, hboth⟩ := List.any_eq_true.1 hany
        obtain ⟨hname, hevent⟩ : g.name = Text.trim a ∧ Text.trim b ∈ g.events := by
          simpa [EventGroup.contains] using hboth
        obtain ⟨rfl, rfl⟩ := Resolved.mk.inj (Except.ok.inj h)
        rw [← hname]
        exact .qualified hg ha hname.symm hevent
      · cases h
  · intro h
    cases h with
    | @qualified g a b hg ha hname hevent =>
      have hany : (groups.any fun g => g.name == Text.trim a && g.contains (Text.trim b)) = true :=
        List.any_eq_true.2 ⟨g, hg, by simp [hname, EventGroup.contains, hevent]⟩
      rw [lookupEvent_qualified groups context ha, if_pos hany, hname]
    | bare hpoint hone => exact (lookupEvent_bare_eq_ok hpoint).2 ⟨_, hone, rfl⟩

theorem Denotes.unqualified_eq_false_iff {groups : List EventGroup} {reference q : String}
    {w : Bool} (h : Denotes groups reference q w) :
    w = false ↔ Text.containsChar '.' reference = true := by
  cases h with
  | @qualified g a b =>
    have hpoint : Text.containsChar '.' (a ++ "." ++ b) = true := by simp [Text.containsChar]
    exact iff_of_true rfl hpoint
  | bare hpoint => simp [hpoint]

/-- Group names that end at the first point of a qualified event. -/
structure PlainNames (groups : List EventGroup) : Prop where
  name_trimmed : ∀ g ∈ groups, Text.trim g.name = g.name
  no_point : ∀ g ∈ groups, Text.containsChar '.' g.name = false

theorem Denotes.again {groups : List EventGroup} (hn : PlainNames groups) {reference q : String}
    {w : Bool} (h : Denotes groups reference q w) : Denotes groups q q false := by
  have hself : ∀ g ∈ groups, ∀ b, Text.trim b ∈ g.events →
      Denotes groups (g.name ++ "." ++ Text.trim b) (g.name ++ "." ++ Text.trim b) false := by
    intro g hg b hb
    have hagain := Denotes.qualified (b := Text.trim b) hg (hn.no_point g hg)
      (hn.name_trimmed g hg) (by rwa [Text.trim_trim])
    rwa [Text.trim_trim] at hagain
  cases h with
  | @qualified g a b hg _ _ hb => exact hself g hg b hb
  | @bare g _ _ hone =>
    have hg : g ∈ groups.filter (·.contains (Text.trim reference)) := by simp [hone]
    obtain ⟨hg, hevent⟩ := List.mem_filter.1 hg
    exact hself g hg reference (by simpa [EventGroup.contains] using hevent)

def declaredEvents (groups : List EventGroup) : List (EventGroup × String) :=
  groups.flatMap fun g => g.events.map fun e => (g, e)

def qualify (d : EventGroup × String) : String :=
  d.1.name ++ "." ++ d.2

theorem mem_declaredEvents {groups : List EventGroup} {d : EventGroup × String} :
    d ∈ declaredEvents groups ↔ d.1 ∈ groups ∧ d.2 ∈ d.1.events := by
  obtain ⟨g, e⟩ := d
  simp only [declaredEvents, List.mem_flatMap, List.mem_map, Prod.mk.injEq]
  constructor
  · rintro ⟨_, hg, _, he, rfl, rfl⟩
    exact ⟨hg, he⟩
  · rintro ⟨hg, he⟩
    exact ⟨g, hg, e, he, rfl, rfl⟩

theorem Denotes.declared {groups : List EventGroup} {reference q : String} {w : Bool}
    (h : Denotes groups reference q w) : ∃ d ∈ declaredEvents groups, qualify d = q := by
  have hlookup : lookupEvent groups "" reference = .ok ⟨q, w⟩ := lookupEvent_eq_ok_iff.2 h
  obtain ⟨g, hg, e, he, hq⟩ := lookupEvent_declared hlookup
  exact ⟨(g, e), mem_declaredEvents.2 ⟨hg, he⟩, hq.symm⟩

structure Distinguished (groups : List EventGroup) : Prop extends Separable groups where
  names_distinct : (groups.map EventGroup.name).Nodup
  events_distinct : ∀ g ∈ groups, g.events.Nodup

theorem Separable.plainNames {groups : List EventGroup} (h : Separable groups) :
    PlainNames groups :=
  ⟨h.name_trimmed, h.no_point⟩

namespace Distinguished

variable {groups : List EventGroup} (h : Distinguished groups)
include h

theorem declaredEvents_nodup : (declaredEvents groups).Nodup := by
  rw [declaredEvents, List.nodup_flatMap]
  constructor
  · intro g hg
    exact (h.events_distinct g hg).map fun _ _ heq => congrArg Prod.snd heq
  · refine (List.Nodup.of_map _ h.names_distinct).imp ?_
    intro g g' hne d hd hd'
    obtain ⟨_, -, rfl⟩ := List.mem_map.1 hd
    obtain ⟨_, -, heq⟩ := List.mem_map.1 hd'
    exact hne (congrArg Prod.fst heq).symm

/-- The first point of a qualified event ends the name of its group. -/
theorem qualify_nodup : ((declaredEvents groups).map qualify).Nodup := by
  refine h.declaredEvents_nodup.map_on ?_
  intro d hd d' hd' heq
  obtain ⟨hg, -⟩ := mem_declaredEvents.1 hd
  obtain ⟨hg', -⟩ := mem_declaredEvents.1 hd'
  obtain ⟨hname, hevent⟩ := Text.around_inj (h.no_point _ hg) (h.no_point _ hg') heq
  exact Prod.ext (List.inj_on_of_nodup_map h.names_distinct hg hg' hname) hevent

theorem two_owners_iff {event : String} :
    2 ≤ (groups.filter (·.contains event)).length ↔
      ∃ g ∈ groups, ∃ g' ∈ groups, g.name ≠ g'.name ∧ event ∈ g.events ∧ event ∈ g'.events := by
  have hmem : ∀ g, g ∈ groups.filter (·.contains event) ↔ g ∈ groups ∧ event ∈ g.events := by
    simp [EventGroup.contains]
  constructor
  · intro htwo
    have hnodup : ((groups.filter (·.contains event)).map EventGroup.name).Nodup :=
      h.names_distinct.sublist (List.filter_sublist.map _)
    cases hfilter : groups.filter (·.contains event) with
    | nil => simp [hfilter] at htwo
    | cons g gs =>
      cases gs with
      | nil => simp [hfilter] at htwo
      | cons g' gs =>
        rw [hfilter] at hnodup
        obtain ⟨hg, he⟩ := (hmem g).1 (by simp [hfilter])
        obtain ⟨hg', he'⟩ := (hmem g').1 (by simp [hfilter])
        refine ⟨g, hg, g', hg', ?_, he, he'⟩
        intro hname
        simp [hname] at hnodup
  · intro howners
    obtain ⟨g, hg, g', hg', hne, he, he'⟩ := howners
    have hne' : g ≠ g' := fun heq => hne (congrArg _ heq)
    have hsub : [g, g'] ⊆ groups.filter (·.contains event) := by
      intro x hx
      rcases List.mem_pair.1 hx with rfl | rfl
      · exact (hmem x).2 ⟨hg, he⟩
      · exact (hmem x).2 ⟨hg', he'⟩
    exact (List.subperm_of_subset (by simpa using hne') hsub).length_le

theorem ambiguous_iff {context reference : String} :
    (∃ place event owners,
        lookupEvent groups context reference = .error (.ambiguous place event owners)) ↔
      Text.containsChar '.' reference = false ∧
        ∃ g ∈ groups, ∃ g' ∈ groups, g.name ≠ g'.name ∧
          Text.trim reference ∈ g.events ∧ Text.trim reference ∈ g'.events := by
  cases hpoint : Text.containsChar '.' reference with
  | false => simp only [lookupEvent_bare_ambiguous hpoint, h.two_owners_iff, true_and]
  | true =>
    obtain ⟨a, b, rfl, ha⟩ := Text.exists_around hpoint
    have hlookup := lookupEvent_qualified groups context (b := b) ha
    have hnot : ¬ ∃ place event owners, lookupEvent groups context (a ++ "." ++ b) =
        .error (.ambiguous place event owners) := by
      rw [hlookup]
      split <;> simp
    simpa using hnot

end Distinguished

namespace Validation

theorem resolveEvent_eq_error {c : Chart} {context reference : String} {e : Error}
    (h : lookupEvent c.groups context reference = .error e) :
    resolveEvent context reference c = ⟨c, [], .error e⟩ := by
  simp [resolveEvent, Work.bind_apply, Work.get, Work.ofExcept, h]

/-- What a reference is resolved to is the form of one declared event, and is resolved to itself. A
reference is ambiguous exactly if it has no group and several groups have the event. -/
theorem resolution_canonical {groups : List EventGroup} (h : Distinguished groups)
    (context reference : String) :
    (∀ q w, lookupEvent groups context reference = .ok ⟨q, w⟩ ↔ Denotes groups reference q w) ∧
      (∀ q w, lookupEvent groups context reference = .ok ⟨q, w⟩ →
        (∃ d, (declaredEvents groups).filter (fun d => qualify d = q) = [d]) ∧
          (w = false ↔ Text.containsChar '.' reference = true) ∧
          (∀ place, lookupEvent groups place q = .ok ⟨q, false⟩) ∧
          ∀ c : Chart, c.groups = groups →
            (resolveEvent context reference).Yields c q
              (if w then [.warning ⟨.autoQualifiedEvent,
                s!"{context}: event {Text.trim reference} resolved to {q}"⟩] else []) c) ∧
      (∀ e, lookupEvent groups context reference = .error e → ∀ c : Chart, c.groups = groups →
        resolveEvent context reference c = ⟨c, [], .error e⟩) ∧
      ((∃ place event owners,
          lookupEvent groups context reference = .error (.ambiguous place event owners)) ↔
        Text.containsChar '.' reference = false ∧
          ∃ g ∈ groups, ∃ g' ∈ groups, g.name ≠ g'.name ∧
            Text.trim reference ∈ g.events ∧ Text.trim reference ∈ g'.events) := by
  refine ⟨fun q w => lookupEvent_eq_ok_iff, fun q w hlookup => ?_, fun e he c hc => ?_,
    h.ambiguous_iff⟩
  · have hdenotes := lookupEvent_eq_ok_iff.1 hlookup
    refine ⟨?_, hdenotes.unqualified_eq_false_iff, fun place => ?_, fun c hc => ?_⟩
    · obtain ⟨d, hd, rfl⟩ := hdenotes.declared
      exact ⟨d, filter_eq_singleton h.qualify_nodup hd⟩
    · exact lookupEvent_eq_ok_iff.2 (hdenotes.again h.toSeparable.plainNames)
    · rw [resolveEvent_yields, hc]
      exact ⟨⟨q, w⟩, hlookup, rfl, rfl, rfl⟩
  · exact resolveEvent_eq_error (hc ▸ he)

/-- Two groups with a common event. -/
def pads : List EventGroup :=
  [⟨"EVENTS_1", "Key", some 1, ["press", "long.press"], []⟩,
    ⟨"EVENTS_2", "Pad", some 10, ["press", "tap"], []⟩]

theorem pads_resolution :
    Distinguished pads ∧
      (∃ d, (declaredEvents pads).filter (fun d => qualify d = "Key.long.press") = [d]) ∧
      lookupEvent pads "" "Key.long.press" = .ok ⟨"Key.long.press", false⟩ ∧
      (resolveEvent "here" " tap ").Yields { name := "Deck", groups := pads } "Pad.tap"
        [.warning ⟨.autoQualifiedEvent, "here: event tap resolved to Pad.tap"⟩]
        { name := "Deck", groups := pads } ∧
      ∃ place event owners,
        lookupEvent pads "here" "press" = .error (.ambiguous place event owners) := by
  have hpads : Distinguished pads :=
    { name_trimmed := by decide
      event_trimmed := by decide
      no_point := by decide
      names_distinct := by decide
      events_distinct := by decide }
  obtain ⟨-, hpoint, -, -⟩ := resolution_canonical hpads "here" " Key . long.press"
  obtain ⟨-, hbare, -, -⟩ := resolution_canonical hpads "here" " tap "
  obtain ⟨-, -, -, hboth⟩ := resolution_canonical hpads "here" "press"
  obtain ⟨hone, -, hagain, -⟩ := hpoint "Key.long.press" false (by decide +kernel)
  obtain ⟨-, -, -, hyields⟩ := hbare "Pad.tap" true (by decide +kernel)
  exact ⟨hpads, hone, hagain "", hyields _ rfl, hboth.2 (by decide +kernel)⟩

theorem resolveEvent_fails {c c' : Chart} {context reference : String} {e : Error} :
    (resolveEvent context reference).Fails c e c' ↔
      lookupEvent c.groups context reference = .error e ∧ c' = c := by
  constructor
  · intro h
    cases hlookup : lookupEvent c.groups context reference with
    | ok r =>
      have hyields := resolveEvent_yields.2 ⟨r, hlookup, rfl, rfl, rfl⟩
      have herror := h.1
      simp [hyields.result_eq] at herror
    | error e' =>
      obtain ⟨herror, hstate⟩ := h
      rw [resolveEvent_eq_error hlookup] at herror hstate
      exact ⟨congrArg Except.error (Except.error.inj herror), hstate.symm⟩
  · rintro ⟨hlookup, rfl⟩
    rw [Work.Fails, resolveEvent_eq_error hlookup]
    exact ⟨rfl, rfl⟩

theorem collect_resolveEvent_fails {c c' : Chart} {context : String} {references : List String}
    {e : Error} :
    (Work.collect (resolveEvent context) references).Fails c e c' ↔
      ∃ before reference after, references = before ++ reference :: after ∧
        (∀ r ∈ before, ∃ q w, Denotes c.groups r q w) ∧
        lookupEvent c.groups context reference = .error e ∧ c' = c := by
  induction references with
  | nil => simp [Work.fails_collect_nil]
  | cons first references ih =>
    simp only [Work.fails_collect_cons, resolveEvent_fails, resolveEvent_yields]
    constructor
    · rintro (⟨hlookup, rfl⟩ | ⟨_, _, _, ⟨r, hr, -, -, rfl⟩, hrest⟩)
      · exact ⟨[], first, references, rfl, by simp, hlookup, rfl⟩
      · obtain ⟨before, reference, after, rfl, hbefore, hlookup, rfl⟩ := ih.1 hrest
        refine ⟨first :: before, reference, after, rfl, ?_, hlookup, rfl⟩
        exact List.forall_mem_cons.2 ⟨⟨r.qualified, r.unqualified, lookupEvent_eq_ok_iff.1 hr⟩,
          hbefore⟩
    · rintro ⟨before, reference, after, hsplit, hbefore, hlookup, rfl⟩
      cases before with
      | nil =>
        obtain ⟨rfl, -⟩ := List.cons.inj hsplit
        exact .inl ⟨hlookup, rfl⟩
      | cons r before =>
        obtain ⟨rfl, rfl⟩ := List.cons.inj hsplit
        obtain ⟨⟨q, w, hmeans⟩, hbefore⟩ := List.forall_mem_cons.1 hbefore
        exact .inr ⟨_, _, _, ⟨⟨q, w⟩, lookupEvent_eq_ok_iff.2 hmeans, rfl, rfl, rfl⟩,
          ih.2 ⟨before, reference, after, rfl, hbefore, hlookup, rfl⟩⟩

theorem resolveSuppressed_fails {c c' : Chart} {e : Error} :
    resolveSuppressed.Fails c e c' ↔
      ∃ before reference after, c.suppressed = before ++ reference :: after ∧
        (∀ r ∈ before, ∃ q w, Denotes c.groups r q w) ∧
        lookupEvent c.groups "SUPPRESS_PRINT" reference = .error e ∧
        c' = { c with suppressed := [] } := by
  have hput : ∀ (f : Chart → Chart) (d : Chart), ¬ (Work.modify f : Check Unit).Fails d e c' := by
    intro f d h
    cases h.1
  rw [resolveSuppressed, Work.fails_get_bind, Work.fails_modify_bind, Work.fails_bind]
  simp only [hput, and_false, exists_false, or_false, collect_resolveEvent_fails]

/-- The resolution of the suppressed events fails at the first without a meaning, and then all of
them are gone: nothing is left to fail at when it is tried again. So they are kept by every failure
just in case there is none. -/
theorem suppressed_kept_iff (c : Chart) :
    (∀ e c', resolveSuppressed.Fails c e c' ↔
        ∃ before reference after, c.suppressed = before ++ reference :: after ∧
          (∀ r ∈ before, ∃ q w, Denotes c.groups r q w) ∧
          lookupEvent c.groups "SUPPRESS_PRINT" reference = .error e ∧
          c' = { c with suppressed := [] }) ∧
      (∀ e c', resolveSuppressed.Fails c e c' →
        c'.suppressed ≠ c.suppressed ∧ resolveSuppressed.Yields c' () [] c') ∧
      ((∀ e c', resolveSuppressed.Fails c e c' → c'.suppressed = c.suppressed) ↔
        ∀ reference ∈ c.suppressed, ∃ q w, Denotes c.groups reference q w) := by
  have hlost : ∀ e c', resolveSuppressed.Fails c e c' → c'.suppressed ≠ c.suppressed := by
    intro e c' h hkept
    obtain ⟨before, reference, after, hsplit, -, -, rfl⟩ := resolveSuppressed_fails.1 h
    simp [hsplit] at hkept
  refine ⟨fun e c' => resolveSuppressed_fails, fun e c' h => ⟨hlost e c' h, ?_⟩, ?_⟩
  · obtain ⟨before, reference, after, -, -, -, rfl⟩ := resolveSuppressed_fails.1 h
    exact resolveSuppressed_yields.2 ⟨[], .nil, rfl, rfl⟩
  · constructor
    · intro hkept
      obtain ⟨u, j, c', hyields⟩ | ⟨e, c', hfails⟩ := Work.yields_or_fails resolveSuppressed c
      · obtain ⟨rs, hrs, -, -⟩ := resolveSuppressed_yields.1 hyields
        intro reference hmem
        obtain ⟨r, -, hr⟩ := forall₂_exists_right hrs hmem
        exact ⟨r.qualified, r.unqualified, lookupEvent_eq_ok_iff.1 hr⟩
      · exact absurd (hkept e c' hfails) (hlost e c' hfails)
    · intro hall e c' h
      obtain ⟨before, reference, after, hsplit, -, hlookup, -⟩ := resolveSuppressed_fails.1 h
      obtain ⟨q, w, hmeans⟩ := hall reference (by simp [hsplit])
      rw [lookupEvent_eq_ok_iff.2 hmeans] at hlookup
      cases hlookup

/-- A chart that suppresses an event it has, and one that it does not have. -/
def hush : Chart :=
  { name := "Bare", groups := [⟨"EVENTS_X", "A", some 1, ["go"], []⟩],
    suppressed := ["A.go", "nope"] }

/-- The event that it has is lost with the other one. -/
theorem hush_loses_all :
    resolveSuppressed.Fails hush (.unresolved "SUPPRESS_PRINT" .event "nope")
        { hush with suppressed := [] } ∧
      ({ hush with suppressed := [] } : Chart).suppressed ≠ hush.suppressed := by
  have hmeans : Denotes hush.groups "A.go" "A.go" false :=
    lookupEvent_eq_ok_iff.1 (ok_of_toOption (by decide +kernel) :
      lookupEvent hush.groups "" "A.go" = .ok ⟨"A.go", false⟩)
  have hnope : lookupEvent hush.groups "SUPPRESS_PRINT" "nope" =
      .error (.unresolved "SUPPRESS_PRINT" .event "nope") := by
    decide +kernel
  refine ⟨resolveSuppressed_fails.2 ⟨["A.go"], "nope", [], rfl, ?_, hnope, rfl⟩, by decide⟩
  intro r hr
  obtain rfl := List.mem_singleton.1 hr
  exact ⟨_, _, hmeans⟩

end Validation

end Statechart
