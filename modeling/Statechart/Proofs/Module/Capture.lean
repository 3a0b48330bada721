import Statechart.Proofs.Callbacks.Closure
import Statechart.Proofs.Module.Printing
import Statechart.Proofs.Module.Scoping

/-!
What the names of routines denote in the constructor.

A hook is passed by the name of its routine. In the constructor a variable comes before a function
of the module with the same name, so a routine that is named like the chart, its root or a variable
bound before is not what the hook denotes. The design tells whether there is such a routine.
-/
set_option autoImplicit false

namespace Statechart.Module

open Target

def Wiring.hooks : Wiring → List Hook
  | addState _ _ _ _ hooks => [hooks.entry, hooks.during, hooks.exit]
  | startState _ _ => []
  | endState _ => []
  | addTransition _ _ _ hooks => [hooks.guard, hooks.action]

def locals (is : List Instruction) : List String :=
  (handles is).reverse ++ ["sc"]

/-- The variable that a name would be. A raw name is the same as the plain one. -/
def nameKey (sp : Spelling) (name : String) : String :=
  sp.form (stem name)

inductive Denotation where
  | bound (v : String)
  | routine (r : Routine)

/-- What a name denotes after some calls: a variable, or else a function of the module. -/
def denotation? (sp : Spelling) (k : Callbacks) (is : List Instruction) (name : String) :
    Option Denotation :=
  match (locals is).find? fun v => sp.form v = nameKey sp name with
  | some v => some (.bound v)
  | none => (k.routine? name).map .routine

/-- Every hook that names a routine denotes it, where its wiring is read as a call. -/
def DenoteRoutines (sp : Spelling) (k : Callbacks) (ws : List Wiring) (is : List Instruction) :
    Prop :=
  ∀ before w after, ws = before ++ w :: after → ∀ name, .named name ∈ w.hooks →
    ∃ r ∈ k.routines, r.name = name ∧
      denotation? sp k (is.take before.length) name = some (.routine r)

def stateNames (c : Chart) (s : State) : List String :=
  [Generator.stateUse State.entry s, Generator.stateUse State.during s,
    Generator.stateUse State.exit s].filterMap (Generator.Use.name? c)

def transitionNames (c : Chart) (t : Transition) : List String :=
  [Generator.transitionUse .guard Transition.guard t,
    Generator.transitionUse .action Transition.action t].filterMap (Generator.Use.name? c)

def rootKeys (sp : Spelling) : List String :=
  [sp.form "sc", sp.form "top"]

/-- No routine is named like a variable that is bound where the routine is passed. -/
structure Unclashing (sp : Spelling) (c : Chart) : Prop where
  states : ∀ before s after, parentFirst c = before ++ s :: after → ∀ name ∈ stateNames c s,
    nameKey sp name ∉ rootKeys sp ∧ ∀ p ∈ before, nameKey sp name ≠ stateKey sp p
  transitions : ∀ before t after, c.enabledTransitions = before ++ t :: after →
    ∀ name ∈ transitionNames c t, nameKey sp name ∉ rootKeys sp ∧
      (∀ p ∈ parentFirst c, nameKey sp name ≠ stateKey sp p) ∧
      (∀ parent ∈ startParents c (before ++ [t]), nameKey sp name ≠ startKey sp parent) ∧
      ((∃ u ∈ before ++ [t], u.target = .stop) → nameKey sp name ≠ sp.key endName)

def Part.names (c : Chart) : Part → List String
  | state s => stateNames c s
  | link t => transitionNames c t
  | _ => []

section

variable {sp : Spelling} {c : Chart} {k : Callbacks}

theorem named_mem_hooks (hk : Generator.Closed c k) (hstates : (c.states.map State.name).Nodup)
    (htransitions : (c.transitions.map Transition.name).Nodup) {p : Part} (hp : p ∈ outline c)
    {w : Wiring} (hw : Serves c k p w) {name : String} :
    .named name ∈ w.hooks ↔ name ∈ p.names c := by
  cases hw with
  | @state s hooks hlookup =>
    have hs : s ∈ c.enabledStates := by
      rcases List.mem_append.1 hp with hs | hs
      · exact parentFirst_subset c s (by simpa using hs)
      · exact absurd hs (state_not_mem_links [] c.enabledTransitions s)
    have hserved := forall₂_lookup hk.state_fields Generator.StateServed.name
      (hstates.sublist (List.filter_sublist.map State.name)) hs hlookup
    have hentry : hooks.entry = .named name ↔ _ := hserved.entry name
    have hduring : hooks.during = .named name ↔ _ := hserved.during name
    have hexit : hooks.exit = .named name ↔ _ := hserved.exit name
    simp [Wiring.hooks, Part.names, stateNames, eq_comm (a := Hook.named name), hentry, hduring,
      hexit]
  | start => simp [Wiring.hooks, Part.names]
  | stop => simp [Wiring.hooks, Part.names]
  | @link t event hooks _ hlookup =>
    have ht : t ∈ c.enabledTransitions := by
      obtain ⟨b, a, hsplit⟩ := List.append_of_mem hp
      obtain ⟨before, after, hts, -⟩ := outline_link_place hsplit
      simp [hts]
    have hserved := forall₂_lookup hk.transition_fields Generator.TransitionServed.name
      (htransitions.sublist (List.filter_sublist.map Transition.name)) ht hlookup
    have hguard : hooks.guard = .named name ↔ _ := hserved.guard name
    have haction : hooks.action = .named name ↔ _ := hserved.action name
    simp [Wiring.hooks, Part.names, transitionNames, eq_comm (a := Hook.named name), hguard,
      haction]

theorem Serves.hooks_subset {p : Part} {w : Wiring} (hw : Serves c k p w) {hook : Hook}
    (h : hook ∈ w.hooks) : hook ∈ hooks k := by
  cases hw with
  | state hlookup => exact mem_hooks.2 (.inl ⟨_, mem_of_lookup hlookup, h⟩)
  | start => cases h
  | stop => cases h
  | link _ hlookup => exact mem_hooks.2 (.inr ⟨_, mem_of_lookup hlookup, h⟩)

theorem exists_routine (hk : Generator.Closed c k) {name : String} (h : .named name ∈ hooks k) :
    ∃ r ∈ k.routines, r.name = name := by
  have hroutine : ∀ role, Generator.HasRoutine k role (.named name) →
      ∃ r ∈ k.routines, r.name = name := by
    intro role hrole
    obtain ⟨r, hr, -⟩ := hrole name rfl
    have hmem : r ∈ k.routines.filter (fun r => r.name = name) := by simp [hr]
    exact ⟨r, List.mem_of_mem_filter hmem, by simpa using (List.mem_filter.1 hmem).2⟩
  rcases mem_hooks.1 h with ⟨p, hp, hmem⟩ | ⟨p, hp, hmem⟩
  · obtain ⟨hentry, hduring, hexit⟩ := hk.state_hooks p hp
    simp only [List.mem_cons, List.not_mem_nil, or_false] at hmem
    rcases hmem with hmem | hmem | hmem
    · exact hroutine _ (hmem ▸ hentry)
    · exact hroutine _ (hmem ▸ hduring)
    · exact hroutine _ (hmem ▸ hexit)
  · obtain ⟨hguard, haction⟩ := hk.transition_hooks p hp
    simp only [List.mem_cons, List.not_mem_nil, or_false] at hmem
    rcases hmem with hmem | hmem
    · exact hroutine _ (hmem ▸ hguard)
    · exact hroutine _ (hmem ▸ haction)

theorem denotes_routine_iff {is : List Instruction} {name : String}
    (h : ∃ r ∈ k.routines, r.name = name) :
    (∃ r ∈ k.routines, r.name = name ∧ denotation? sp k is name = some (.routine r)) ↔
      nameKey sp name ≠ sp.form "sc" ∧ nameKey sp name ∉ (handles is).map sp.form := by
  have hlocals : (locals is).find? (fun v => sp.form v = nameKey sp name) = none ↔
      nameKey sp name ≠ sp.form "sc" ∧ nameKey sp name ∉ (handles is).map sp.form := by
    rw [List.find?_eq_none, locals]
    simp [or_imp, forall_and, and_comm, eq_comm (a := nameKey sp name)]
  rw [← hlocals, denotation?]
  cases hfind : (locals is).find? fun v => sp.form v = nameKey sp name with
  | some v => simp
  | none =>
    obtain ⟨r, hr⟩ : ∃ r, k.routine? name = some r := by
      rw [← Option.isSome_iff_exists, Callbacks.routine?, List.find?_isSome]
      simpa using h
    have hname : r.name = name := by simpa using List.find?_some hr
    simp [hr, hname, List.mem_of_find?_eq_some hr]

theorem denoteRoutines_iff_names (hk : Generator.Closed c k)
    (hstates : (c.states.map State.name).Nodup)
    (htransitions : (c.transitions.map Transition.name).Nodup) {ws : List Wiring}
    {is : List Instruction} (hws : wirings c k = .ok ws)
    (hreads : List.Forall₂ Wiring.Reads ws is) :
    DenoteRoutines sp k ws is ↔ ∀ b p a, outline c = b ++ p :: a → ∀ name ∈ p.names c,
      nameKey sp name ≠ sp.form "sc" ∧ nameKey sp name ∉ (partHandles b).map sp.key := by
  have hserves := (wirings_serve hws).1
  have htells := forall₂_tells hserves hreads
  -- at one place; the wiring, its part and its call all stand there
  have hone : ∀ {b p a w}, outline c = b ++ p :: a → Serves c k p w → ∀ name,
      (.named name ∈ w.hooks → ∃ r ∈ k.routines, r.name = name ∧
          denotation? sp k (is.take b.length) name = some (.routine r)) ↔
        (name ∈ p.names c →
          nameKey sp name ≠ sp.form "sc" ∧ nameKey sp name ∉ (partHandles b).map sp.key) := by
    intro b p a w houtline hw name
    have hbefore : List.Forall₂ (Tells c k) b (is.take b.length) := by
      simpa [houtline] using List.forall₂_take b.length htells
    rw [← named_mem_hooks hk hstates htransitions (by simp [houtline]) hw, ← forms_eq hbefore]
    refine imp_congr_right fun hname => denotes_routine_iff ?_
    exact exists_routine hk (hw.hooks_subset hname)
  constructor
  · intro h b p a houtline name
    rw [houtline] at hserves
    obtain ⟨before, w, after, rfl, hb, hw, -⟩ := forall₂_append_cons_left hserves
    have hname := h before w after rfl name
    rw [← hb.length_eq] at hname
    exact (hone houtline hw name).1 hname
  · rintro h before w after rfl name
    obtain ⟨b, p, a, houtline, hb, hw, -⟩ := forall₂_append_cons_right hserves
    rw [← hb.length_eq]
    exact (hone houtline hw name).2 (h b p a houtline name)

theorem outline_state_split {before after : List State} {s : State}
    (h : parentFirst c = before ++ s :: after) :
    outline c = before.map .state ++
      .state s :: (after.map .state ++ links c [] c.enabledTransitions) := by
  simp [outline, h]

theorem states_key (ss : List State) :
    (ss.map Part.state).filterMap (Part.key? sp) = ss.map (stateKey sp) := by
  rw [List.filterMap_map, ← List.filterMap_eq_map]
  rfl

/-- Whether a name is in view is told by the design. -/
theorem unclashing_iff :
    (∀ b p a, outline c = b ++ p :: a → ∀ name ∈ p.names c,
      nameKey sp name ≠ sp.form "sc" ∧ nameKey sp name ∉ (partHandles b).map sp.key) ↔
      Unclashing sp c := by
  constructor
  · intro h
    constructor
    · intro before s after horder name hname
      have hfree := h _ _ _ (outline_state_split horder) name hname
      rw [map_key_partHandles, states_key] at hfree
      simp only [List.mem_cons, List.mem_map, not_or, not_exists, not_and] at hfree
      exact ⟨by simp [rootKeys, hfree.1, hfree.2.1], fun p hp heq => hfree.2.2 p hp heq.symm⟩
    · intro before t after hts name hname
      have hfree := h _ _ _ (outline_split hts) name hname
      rw [map_key_partHandles, List.mem_cons, mem_keys_in_view] at hfree
      grind [rootKeys]
  · intro h b p a houtline name hname
    cases p with
    | state s =>
      rcases outline_place houtline with ⟨before, s', after, horder, hs, rfl⟩ | ⟨rest, -, hlinks⟩
      · obtain rfl := Part.state.inj hs
        obtain ⟨hroots, hbefore⟩ := h.states before s after horder name hname
        rw [map_key_partHandles, states_key]
        grind [rootKeys]
      · exact absurd (by simp [hlinks]) (state_not_mem_links (c := c) [] c.enabledTransitions s)
    | start parent => cases hname
    | stop => cases hname
    | link t =>
      obtain ⟨before, after, hts, rfl⟩ := outline_link_place houtline
      have hfree := h.transitions before t after hts name hname
      rw [map_key_partHandles, List.mem_cons, mem_keys_in_view]
      grind [rootKeys]

end

open Validation

theorem closed_hooksOf {c : Chart} (hc : Validated c)
    (hstates : (Generator.stateHooks c (Generator.resume {})).result = .ok ())
    (htransitions : (Generator.transitionHooks c (Generator.resume
      (Generator.stateHooks c (Generator.resume {})).state.out)).result = .ok ()) :
    Generator.Closed c (Run.hooksOf c) :=
  Generator.closed_of_yields hc.states_nodup hc.transitions_nodup (Work.yields_of_result hstates)
    (Work.yields_of_result htransitions)

theorem denoteRoutines_iff {sp : Spelling} {c : Chart} {ws : List Wiring} {is : List Instruction}
    (hc : Validated c) (hk : Generator.Closed c (Run.hooksOf c))
    (hws : wirings c (Run.hooksOf c) = .ok ws) (hreads : List.Forall₂ Wiring.Reads ws is) :
    DenoteRoutines sp (Run.hooksOf c) ws is ↔ Unclashing sp c :=
  (denoteRoutines_iff_names hk hc.states_nodup hc.transitions_nodup hws hreads).trans unclashing_iff

/-- The hooks of a validated chart denote their routines exactly if no routine is named like a
variable that is bound where it is passed. -/
theorem hooks_denote_routines_iff (sp : Spelling) {c : Chart} {chart : Ident} {tokens : List Token}
    (hc : Validated c) (hstates : (Generator.stateHooks c (Generator.resume {})).result = .ok ())
    (htransitions : (Generator.transitionHooks c (Generator.resume
      (Generator.stateHooks c (Generator.resume {})).state.out)).result = .ok ())
    (hbuild : buildStatechart c (Run.hooksOf c) chart = .ok tokens) :
    ∃ ws is, wirings c (Run.hooksOf c) = .ok ws ∧ instructions? chart.text tokens = some is ∧
      List.Forall₂ Wiring.Reads ws is ∧
      (DenoteRoutines sp (Run.hooksOf c) ws is ↔ Unclashing sp c) := by
  obtain ⟨ws, is, hws, hread, hreads⟩ := exists_instructions hbuild
  have hk := closed_hooksOf hc hstates htransitions
  exact ⟨ws, is, hws, hread, hreads, denoteRoutines_iff hc hk hws hreads⟩

theorem kiln_hooks_denote_routines_iff : Validated (all kiln).state ∧
    ∃ tokens, buildStatechart (all kiln).state (Run.hooksOf (all kiln).state) ⟨false, "Kiln"⟩ =
        .ok tokens ∧
      ∃ ws is, wirings (all kiln).state (Run.hooksOf (all kiln).state) = .ok ws ∧
        instructions? "Kiln" tokens = some is ∧ List.Forall₂ Wiring.Reads ws is ∧
        (DenoteRoutines .exact (Run.hooksOf (all kiln).state) ws is ↔
          Unclashing .exact (all kiln).state) := by
  obtain ⟨tokens, htokens⟩ := kiln_builds
  exact ⟨kiln_validated, tokens, htokens, hooks_denote_routines_iff .exact kiln_validated
    kiln_hooks.1 kiln_hooks.2 htokens⟩

/-- A beacon is a spark whose state is entered with a routine named `top`. -/
def beacon : Chart :=
  spark (.bare "top") []

theorem beacon_validated : Validated (all beacon).state := by
  refine ⟨"beacon", Text.unlines (sparkLines "top" []), ⟨""⟩, fun _ => .error .notFound, beacon,
    ?_, ?_, rfl⟩
  · exact Chart.read_unlines (by repeat constructor) (by decide +kernel) (by decide +kernel)
  · exact ok_of_toOption (by decide +kernel)

theorem beacon_hooks : (Generator.stateHooks (all beacon).state (Generator.resume {})).result =
      .ok () ∧
    (Generator.transitionHooks (all beacon).state (Generator.resume
      (Generator.stateHooks (all beacon).state (Generator.resume {})).state.out)).result = .ok () :=
  ⟨ok_of_toOption (by decide +kernel), ok_of_toOption (by decide +kernel)⟩

theorem beacon_not_unclashing (sp : Spelling) : ¬ Unclashing sp (all beacon).state := by
  intro h
  have horder : parentFirst (all beacon).state =
      [] ++ ⟨"STATE_1", "Idle", none, .simple, .bare "top", .absent, .absent, false⟩ :: [] := by
    decide +kernel
  have hstem : stem "top" = "top" := by decide +kernel
  refine (h.states _ _ _ horder "top" (by decide +kernel)).1 ?_
  rw [nameKey, hstem]
  exact List.mem_cons_of_mem _ List.mem_cons_self

/-- The root is passed in place of that routine. -/
theorem beacon_captured : Validated (all beacon).state ∧
    (Generator.stateHooks (all beacon).state (Generator.resume {})).result = .ok () ∧
    (Generator.transitionHooks (all beacon).state (Generator.resume
      (Generator.stateHooks (all beacon).state (Generator.resume {})).state.out)).result = .ok () ∧
    ∃ tokens ws is, buildStatechart (all beacon).state (Run.hooksOf (all beacon).state)
        ⟨false, "Spark"⟩ = .ok tokens ∧
      wirings (all beacon).state (Run.hooksOf (all beacon).state) = .ok ws ∧
      instructions? "Spark" tokens = some is ∧ List.Forall₂ Wiring.Reads ws is ∧
      ∀ sp : Spelling, ¬ DenoteRoutines sp (Run.hooksOf (all beacon).state) ws is := by
  obtain ⟨tokens, htokens⟩ : ∃ tokens, buildStatechart (all beacon).state
      (Run.hooksOf (all beacon).state) ⟨false, "Spark"⟩ = .ok tokens :=
    exists_of_toOption (by decide +kernel)
  obtain ⟨ws, is, hws, hread, hreads⟩ := exists_instructions htokens
  refine ⟨beacon_validated, beacon_hooks.1, beacon_hooks.2, tokens, ws, is, htokens, hws, hread,
    hreads, ?_⟩
  intro sp hdenote
  have hk := closed_hooksOf beacon_validated beacon_hooks.1 beacon_hooks.2
  exact beacon_not_unclashing sp ((denoteRoutines_iff beacon_validated hk hws hreads).1 hdenote)

end Statechart.Module
