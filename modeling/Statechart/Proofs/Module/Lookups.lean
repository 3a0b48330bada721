import Statechart.Proofs.Module.Capture

/-!
How the constructor of a validated chart can fail.

Whatever is looked up while it is made is there: validation leaves no state, parent or event that is
not declared, and the generator has hooks for all that is enabled. What is left are transitions that
lead to the start, or from the start to the end, and names that are no identifiers.
-/
set_option autoImplicit false

namespace Statechart.Module

open Target

/-- A transition for which there is no place in a constructor. -/
def Astray (t : Transition) : Prop :=
  t.target = .start ∨ t.source = .start ∧ t.target = .stop

structure Resolvable (c : Chart) (k : Callbacks) : Prop where
  parents : ∀ before s after, parentFirst c = before ++ s :: after →
    ∀ p, s.parent = some p → p ∈ before.map State.name
  state_hooks : ∀ s ∈ parentFirst c, (k.states.lookup s.name).isSome = true
  ends : ∀ t ∈ c.enabledTransitions, ∀ name, t.source = .state name ∨ t.target = .state name →
    name ∈ (parentFirst c).map State.name
  starts : ∀ t ∈ c.enabledTransitions, ∀ name, t.target = .state name →
    ∃ x, c.state? name = some x ∧ ∀ p, x.parent = some p → p ∈ (parentFirst c).map State.name
  events : ∀ t ∈ c.enabledTransitions, ∀ e, t.event = some e →
    (Text.cut? (· = '.') e).isSome = true
  transition_hooks : ∀ t ∈ c.enabledTransitions, (k.transitions.lookup t.name).isSome = true

/-- Names that have to be identifiers and are none, with the section that they are from. -/
inductive Misnamed (c : Chart) : (origin value : String) → Prop where
  | state {s : State} (hs : s ∈ c.enabledStates) (h : ¬ IsName s.name) :
      Misnamed c s.origin (Text.trim s.name)
  | event {t : Transition} (ht : t ∈ c.enabledTransitions) {e group event side : String}
      (he : t.event = some e) (hcut : Text.cut? (· = '.') e = some (group, event))
      (hside : side ∈ [group, event]) (h : ¬ IsName side) : Misnamed c t.name (Text.trim side)

inductive Blames (c : Chart) : Error → Prop where
  | name {origin value : String} (h : Misnamed c origin value) :
      Blames c (.invalidIdentifier origin value)
  | route {t : Transition} (ht : t ∈ c.enabledTransitions) (h : Astray t) :
      Blames c (.unresolved "build_statechart" .state t.target.label)

structure Wellnamed (c : Chart) : Prop where
  states : ∀ s ∈ c.enabledStates, IsName s.name
  events : ∀ t ∈ c.enabledTransitions, ∀ e, t.event = some e → ∀ group event,
    Text.cut? (· = '.') e = some (group, event) → IsName group ∧ IsName event

/-- A name that cannot be printed is no error of the chart. -/
def Blamed (c : Chart) : Fault → Prop
  | .rejected e => Blames c e
  | .unprintable _ => True

section

variable {α β : Type} {c : Chart} {P : Fault → Prop}

theorem failsFor_found {referent : Referent} {reference : String} {o : Option α}
    (h : o.isSome = true) : FailsFor P (found referent reference o) := by
  obtain ⟨a, rfl⟩ := Option.isSome_iff_exists.1 h
  exact failsFor_of_eq_ok rfl

theorem failsFor_mapAll {f : α → Except Fault β} {as : List α} (h : ∀ a ∈ as, FailsFor P (f a)) :
    FailsFor P (mapAll f as) := by
  induction as with
  | nil => exact failsFor_pure []
  | cons a as ih =>
    obtain ⟨ha, has⟩ := List.forall_mem_cons.1 h
    refine failsFor_bind ha fun b _ => failsFor_bind (ih has) fun bs _ => failsFor_pure _

/-- A hook is printed or not, but not rejected. -/
theorem failsFor_hook (hook : Hook) : FailsFor (Blamed c) hook.tokens := by
  cases hook with
  | builtin tree => exact failsFor_of_eq_ok rfl
  | named name =>
    intro e he
    simp only [Hook.tokens, printed] at he
    split at he
    · cases he
    · cases he
      trivial

theorem failsFor_checkHooks (hooks : List Hook) : FailsFor (Blamed c) (checkHooks hooks) :=
  failsFor_bind (failsFor_mapAll fun hook _ => failsFor_hook hook) fun _ _ => failsFor_pure ()

theorem failsFor_wiring (w : Wiring) : FailsFor (Blamed c) w.tokens := by
  cases w with
  | addState binding parent name kind hooks =>
    exact failsFor_bind (failsFor_hook _) fun _ _ => failsFor_bind (failsFor_hook _) fun _ _ =>
      failsFor_bind (failsFor_hook _) fun _ _ => failsFor_pure _
  | startState binding owner => exact failsFor_pure _
  | endState binding => exact failsFor_pure _
  | addTransition source target event hooks =>
    exact failsFor_bind (failsFor_hook _) fun _ _ => failsFor_bind (failsFor_hook _) fun _ _ =>
      failsFor_pure _

end

section

variable {c : Chart} {k : Callbacks} {scope : Scope} {added : List State}
  {before : List Transition}

theorem Scope.Knows.isSome_state (h : Scope.Knows c added before scope) {name : String}
    (hname : name ∈ added.map State.name) : (scope.states.lookup name).isSome = true := by
  rw [h.states, if_pos hname]
  rfl

theorem failsFor_parentVariable {P : Fault → Prop} {parent : Option String}
    (h : ∀ p, parent = some p → (scope.states.lookup p).isSome = true) :
    FailsFor P (parentVariable scope parent) := by
  cases parent with
  | none => exact failsFor_of_eq_ok rfl
  | some p => exact failsFor_found (h p rfl)

theorem failsFor_addState (h : Scope.Knows c added before scope) {s : State}
    (hs : s ∈ c.enabledStates) (hparent : ∀ p, s.parent = some p → p ∈ added.map State.name)
    (hhooks : (k.states.lookup s.name).isSome = true) :
    FailsFor (Blamed c) (addState k scope s) := by
  refine failsFor_bind (failsFor_mapError ?_) fun _ _ => ?_
  · intro e he
    obtain ⟨hname, rfl⟩ := readIdent_eq_error.1 he
    exact Blames.name (.state hs hname)
  · refine failsFor_bind (failsFor_parentVariable fun p hp => h.isSome_state (hparent p hp)) ?_
    exact fun _ _ => failsFor_bind (failsFor_found hhooks) fun _ _ =>
      failsFor_bind (failsFor_checkHooks _) fun _ _ => failsFor_pure _

theorem failsFor_addStates (hres : Resolvable c k) (h : Scope.Knows c added [] scope)
    {ss : List State} (horder : parentFirst c = added ++ ss) :
    FailsFor (Blamed c) (addStates k scope ss) := by
  induction ss generalizing added scope with
  | nil => exact failsFor_of_eq_ok rfl
  | cons s ss ih =>
    have hs : s ∈ parentFirst c := by simp [horder]
    rw [addStates]
    refine failsFor_bind (failsFor_addState h (parentFirst_subset c s hs)
      (hres.parents added s ss horder) (hres.state_hooks s hs)) ?_
    rintro ⟨scope', w⟩ hone
    refine failsFor_bind (ih (h.addState (c := c) hone).2 (by simp [horder])) ?_
    rintro ⟨scope'', ws⟩ -
    exact failsFor_pure _

theorem names_of_addStates {ss : List State} {r : Scope × List Wiring}
    (h : addStates k scope ss = .ok r) : ∀ s ∈ ss, IsName s.name := by
  induction ss generalizing scope r with
  | nil => simp
  | cons s ss ih =>
    rw [addStates] at h
    obtain ⟨⟨scope', w⟩, hone, h⟩ := bind_eq_ok.1 h
    obtain ⟨⟨scope'', ws⟩, hrest, -⟩ := bind_eq_ok.1 h
    rw [addState] at hone
    obtain ⟨i, hi, -⟩ := bind_eq_ok.1 hone
    exact List.forall_mem_cons.2
      ⟨⟨i, readIdent_eq_ok.1 (rejecting_eq_ok.1 hi)⟩, ih hrest⟩

theorem failsFor_endpointVariable {P : Fault → Prop} {e : Endpoint}
    (hstate : ∀ name, e = .state name → (scope.states.lookup name).isSome = true)
    (hstart : e = .start → P (.rejected (.unresolved "build_statechart" .state e.label))) :
    FailsFor P (endpointVariable scope e) := by
  cases e with
  | start =>
    intro error he
    cases he
    exact hstart rfl
  | stop => exact failsFor_of_eq_ok rfl
  | state name => exact failsFor_found (hstate name rfl)

theorem failsFor_startVariable (hres : Resolvable c k)
    (hnames : ∀ s ∈ parentFirst c, IsName s.name)
    (h : Scope.Knows c (parentFirst c) before scope) {t : Transition}
    (ht : t ∈ c.enabledTransitions) (hsource : t.source = .start) :
    FailsFor (Blamed c) (startVariable c scope t) := by
  have hblame : Astray t → ∀ {α : Type},
      FailsFor (Blamed c) (missing .state t.target.label : Except Fault α) := by
    intro hastray α e he
    cases he
    exact Blames.route ht hastray
  cases htarget : t.target with
  | start =>
    refine failsFor_bind ?_ ?_
    · simpa [htarget, Endpoint.state?, found] using hblame (.inl htarget)
    · simp [htarget, Endpoint.state?, found, missing]
  | stop =>
    refine failsFor_bind ?_ ?_
    · simpa [htarget, Endpoint.state?, found] using hblame (.inr ⟨hsource, htarget⟩)
    · simp [htarget, Endpoint.state?, found, missing]
  | state name =>
    obtain ⟨x, hx, hparent⟩ := hres.starts t ht name htarget
    have hfound : t.target.state?.bind c.state? = some x := by
      simp [htarget, Endpoint.state?, hx]
    rw [startVariable, hfound]
    refine failsFor_bind (failsFor_of_eq_ok rfl) ?_
    rintro y hy
    cases hy
    split
    · exact failsFor_pure _
    · have howner : FailsFor (Blamed c) (parentVariable scope x.parent) :=
        failsFor_parentVariable fun p hp => h.isSome_state (hparent p hp)
      cases hp : x.parent with
      | none =>
        rw [hp] at howner
        exact failsFor_bind (failsFor_of_eq_ok rfl) fun _ _ =>
          failsFor_bind howner fun _ _ => failsFor_pure _
      | some p =>
        rw [hp] at howner
        -- the parent was added, so its name has been read before
        obtain ⟨s, hs, rfl⟩ := List.mem_map.1 (hparent p hp)
        have hread : FailsFor (Blamed c) (rejecting (readIdent t.name s.name)) :=
          failsFor_mapError fun e he => absurd (hnames s hs) (readIdent_eq_error.1 he).1
        exact failsFor_bind (failsFor_map hread) fun _ _ =>
          failsFor_bind howner fun _ _ => failsFor_pure _

theorem failsFor_sourceVariable (hres : Resolvable c k)
    (hnames : ∀ s ∈ parentFirst c, IsName s.name)
    (h : Scope.Knows c (parentFirst c) before scope) {t : Transition}
    (ht : t ∈ c.enabledTransitions) : FailsFor (Blamed c) (sourceVariable c scope t) := by
  unfold sourceVariable
  split
  · exact failsFor_startVariable hres hnames h ht ‹_›
  · rename_i hstart
    refine failsFor_bind (failsFor_endpointVariable ?_ ?_) fun _ _ => failsFor_pure _
    · intro name hsource
      exact h.isSome_state (hres.ends t ht name (.inl hsource))
    · intro hsource
      exact absurd hsource hstart

theorem eventPath_read_cases (origin : String) {e group event : String}
    (hcut : Text.cut? (· = '.') e = some (group, event)) :
    (IsName group ∧ IsName event ∧ ∃ path, EventPath.read origin e = .ok path) ∨
      ∃ side ∈ [group, event], ¬ IsName side ∧
        EventPath.read origin e = .error (.invalidIdentifier origin (Text.trim side)) := by
  have hread : EventPath.read origin e =
      (do return ⟨← readIdent origin group, ← readIdent origin event⟩) := by
    simp only [EventPath.read, hcut]
  rw [hread]
  cases hgroup : readIdent origin group with
  | error err =>
    obtain ⟨hno, rfl⟩ := readIdent_eq_error.1 hgroup
    exact .inr ⟨group, by simp, hno, rfl⟩
  | ok i =>
    cases hevent : readIdent origin event with
    | error err =>
      obtain ⟨hno, rfl⟩ := readIdent_eq_error.1 hevent
      exact .inr ⟨event, by simp, hno, rfl⟩
    | ok j => exact .inl ⟨⟨i, readIdent_eq_ok.1 hgroup⟩, ⟨j, readIdent_eq_ok.1 hevent⟩, _, rfl⟩

theorem failsFor_eventOf {t : Transition} (ht : t ∈ c.enabledTransitions)
    (hevent : ∀ e, t.event = some e → (Text.cut? (· = '.') e).isSome = true) :
    FailsFor (Blamed c) (eventOf t) := by
  unfold eventOf
  split
  · exact failsFor_of_eq_ok rfl
  · rename_i event he
    obtain ⟨⟨group, name⟩, hcut⟩ := Option.isSome_iff_exists.1 (hevent event he)
    refine failsFor_map (failsFor_mapError ?_)
    intro e hread
    rcases eventPath_read_cases t.name hcut with ⟨-, -, path, hok⟩ |
      ⟨side, hside, hno, herror⟩
    · cases hok.symm.trans hread
    · cases herror.symm.trans hread
      exact Blames.name (.event ht he hcut hside hno)

theorem failsFor_addTransition (hres : Resolvable c k)
    (hnames : ∀ s ∈ parentFirst c, IsName s.name)
    (h : Scope.Knows c (parentFirst c) before scope) {t : Transition}
    (ht : t ∈ c.enabledTransitions) : FailsFor (Blamed c) (addTransition c k scope t) := by
  rw [addTransition]
  refine failsFor_bind (failsFor_sourceVariable hres hnames h ht) ?_
  rintro ⟨scope₁, source, start⟩ hsource
  have hs := h.sourceVariable k hsource
  cases hd : declareEnd scope₁ t with
  | mk scope₂ stop =>
    obtain ⟨-, hstates, -, -⟩ := Scope.Knows.declareEnd c k (hs.ended ▸ h.ended) hd
    simp only [hd]
    refine failsFor_bind (failsFor_endpointVariable ?_ ?_) fun _ _ =>
      failsFor_bind (failsFor_eventOf ht (hres.events t ht)) fun _ _ =>
        failsFor_bind (failsFor_found (hres.transition_hooks t ht)) fun _ _ =>
          failsFor_bind (failsFor_checkHooks _) fun _ _ => failsFor_pure _
    · intro name htarget
      rw [hstates, hs.states]
      exact h.isSome_state (hres.ends t ht name (.inr htarget))
    · intro htarget
      exact Blames.route ht (.inl htarget)

theorem failsFor_addTransitions (hres : Resolvable c k)
    (hnames : ∀ s ∈ parentFirst c, IsName s.name)
    (h : Scope.Knows c (parentFirst c) before scope) {ts : List Transition}
    (hts : ∀ t ∈ ts, t ∈ c.enabledTransitions) :
    FailsFor (Blamed c) (addTransitions c k scope ts) := by
  induction ts generalizing scope before with
  | nil => exact failsFor_of_eq_ok rfl
  | cons t ts ih =>
    obtain ⟨ht, hts⟩ := List.forall_mem_cons.1 hts
    rw [addTransitions]
    refine failsFor_bind (failsFor_addTransition hres hnames h ht) ?_
    rintro ⟨scope', ws⟩ hone
    exact failsFor_bind (ih (h.addTransition hone).2.2 hts) fun _ _ => failsFor_pure _

theorem failsFor_buildStatechart (hres : Resolvable c k) (chart : Ident) :
    FailsFor (Blamed c) (buildStatechart c k chart) := by
  refine failsFor_bind ?_ fun ws _ =>
    failsFor_bind (failsFor_mapAll fun w _ => failsFor_wiring w) fun _ _ => failsFor_pure _
  rw [wirings]
  refine failsFor_bind (failsFor_addStates hres (.empty c) (List.nil_append _).symm) ?_
  rintro ⟨scope, states⟩ hstates
  have hknows := ((Scope.Knows.empty c).addStates hstates).2
  rw [List.nil_append] at hknows
  exact failsFor_bind (failsFor_addTransitions hres (names_of_addStates hstates) hknows
    fun t ht => ht) fun _ _ => failsFor_pure _

theorem not_astray_of_wirings {ws : List Wiring} (h : wirings c k = .ok ws) :
    ∀ t ∈ c.enabledTransitions, ¬ Astray t := by
  rintro t ht (hstart | ⟨hsource, hstop⟩)
  · exact (wirings_routed h t ht).target hstart
  · obtain ⟨parent, hparent⟩ := (wirings_routed h t ht).start hsource
    simp [startParent?, hstop, Endpoint.state?] at hparent

theorem wellnamed_of_wirings (hperm : (parentFirst c).Perm c.enabledStates) {ws : List Wiring}
    (h : wirings c k = .ok ws) : Wellnamed c := by
  constructor
  · intro s hs
    rw [wirings] at h
    obtain ⟨_, hstates, -⟩ := bind_eq_ok.1 h
    exact names_of_addStates hstates s (hperm.mem_iff.2 hs)
  · intro t ht e he group event hcut
    obtain ⟨before, after, hts⟩ := List.append_of_mem ht
    have hserves := (wirings_serve h).1
    rw [outline_split hts] at hserves
    obtain ⟨_, w, _, -, -, hw, -⟩ := forall₂_append_cons_left hserves
    cases hw with
    | link hevent _ =>
      rcases eventPath_read_cases t.name hcut with ⟨hgroup, hname, -⟩ |
        ⟨side, -, -, herror⟩
      · exact ⟨hgroup, hname⟩
      · simp [eventOf, he, herror, rejecting, Except.map] at hevent

theorem hook_tokens_of_wiring {w : Wiring} {ts : List Token} (h : w.tokens = .ok ts) :
    ∀ hook ∈ w.hooks, ∃ us, hook.tokens = .ok us := by
  cases w with
  | addState binding parent name kind hooks =>
    obtain ⟨entry, hentry, h⟩ := bind_eq_ok.1 h
    obtain ⟨during, hduring, h⟩ := bind_eq_ok.1 h
    obtain ⟨exit, hexit, -⟩ := bind_eq_ok.1 h
    simp [Wiring.hooks, hentry, hduring, hexit]
  | startState binding owner => simp [Wiring.hooks]
  | endState binding => simp [Wiring.hooks]
  | addTransition source target event hooks =>
    obtain ⟨guard, hguard, h⟩ := bind_eq_ok.1 h
    obtain ⟨action, haction, -⟩ := bind_eq_ok.1 h
    simp [Wiring.hooks, hguard, haction]

/-- Every routine is passed somewhere, so its name is printed. -/
theorem printable_of_statements (hk : Generator.Closed c k)
    (hstates : (c.states.map State.name).Nodup)
    (htransitions : (c.transitions.map Transition.name).Nodup)
    (hperm : (parentFirst c).Perm c.enabledStates) {ws : List Wiring}
    {statements : List (List Token)} (hws : wirings c k = .ok ws)
    (htokens : mapAll Wiring.tokens ws = .ok statements) :
    ∀ r ∈ k.routines, isPrintable r.name = true := by
  intro r hr
  obtain ⟨p, hp, hname⟩ : ∃ p ∈ outline c, r.name ∈ p.names c := by
    have hmem : r.name ∈ k.routines.map Routine.name := List.mem_map_of_mem hr
    rw [hk.names, List.mem_eraseDups, List.mem_filterMap] at hmem
    obtain ⟨u, hu, hname⟩ := hmem
    rcases Generator.mem_uses.1 hu with ⟨s, hs, hfield⟩ | ⟨t, ht, hfield⟩
    · obtain ⟨before, after, horder⟩ := List.append_of_mem (hperm.mem_iff.2 hs)
      refine ⟨.state s, by simp [outline_state_split horder], ?_⟩
      rcases hfield with rfl | rfl | rfl <;> simp [Part.names, stateNames, hname]
    · obtain ⟨before, after, hts⟩ := List.append_of_mem ht
      refine ⟨.link t, by simp [outline_split hts], ?_⟩
      rcases hfield with rfl | rfl <;> simp [Part.names, transitionNames, hname]
  obtain ⟨w, hw, hserves⟩ := forall₂_exists_right (wirings_serve hws).1 hp
  obtain ⟨ts, -, hts⟩ := forall₂_exists_right (mapAll_eq_ok.1 htokens) hw
  have hhook := (named_mem_hooks hk hstates htransitions hp hserves).2 hname
  obtain ⟨us, hus⟩ := hook_tokens_of_wiring hts _ hhook
  by_contra hno
  simp [Hook.tokens, printed, hno] at hus

theorem exists_buildStatechart (hk : Generator.Closed c k) (hres : Resolvable c k) (chart : Ident)
    (hroutes : ∀ t ∈ c.enabledTransitions, ¬ Astray t) (hnames : Wellnamed c)
    (hprint : ∀ r ∈ k.routines, isPrintable r.name = true) :
    ∃ tokens, buildStatechart c k chart = .ok tokens := by
  have hhooks : ∀ hook ∈ hooks k, ¬ Unprintable hook.tokens := by
    intro hook hmem hno
    obtain ⟨name, rfl, hname⟩ := unprintable_hook.1 hno
    obtain ⟨r, hr, rfl⟩ := exists_routine hk hmem
    simp [hprint r hr] at hname
  -- each way to fail has been ruled out
  cases hbuild : buildStatechart c k chart with
  | ok tokens => exact ⟨tokens, rfl⟩
  | error fault =>
    cases fault with
    | unprintable text => exact absurd ⟨text, hbuild⟩ (not_unprintable_buildStatechart hhooks)
    | rejected e =>
      cases failsFor_buildStatechart hres chart _ hbuild with
      | route ht hastray => exact absurd hastray (hroutes _ ht)
      | name h =>
        cases h with
        | state hs hno => exact absurd (hnames.states _ hs) hno
        | event ht he hcut hside hno =>
          obtain ⟨hgroup, hevent⟩ := hnames.events _ ht _ he _ _ hcut
          simp only [List.mem_cons, List.not_mem_nil, or_false] at hside
          rcases hside with rfl | rfl
          · exact absurd hgroup hno
          · exact absurd hevent hno

end

open Validation

theorem resolvable_of_validated {c : Chart} {k : Callbacks} (hc : Validated c)
    (hk : Generator.Closed c k) : Resolvable c k := by
  have hcons := hc.consistent
  have hperm := parentFirst_perm hc.states_nodup (hcons.rooted hc.states_nodup)
  have hends : ∀ t ∈ c.enabledTransitions, ∀ name,
      t.source = .state name ∨ t.target = .state name →
        ∃ x ∈ parentFirst c, c.state? name = some x ∧ x.name = name := by
    intro t ht name hname
    obtain ⟨x, hx⟩ := hcons.ends t ht name hname
    obtain ⟨hfound, he⟩ := Chart.enabledState?_eq_some.1 hx
    obtain ⟨hmem, hxname⟩ := Chart.mem_of_state? hfound
    exact ⟨x, hperm.mem_iff.2 (Chart.mem_enabledStates.2 ⟨hmem, he⟩), hfound, hxname⟩
  constructor
  · intro before s after horder p hp
    exact parentFirst_parent horder hp
  · intro s hs
    obtain ⟨hmem, he⟩ := Chart.mem_enabledStates.1 (parentFirst_subset c s hs)
    exact (hk.states s hmem).2 he
  · intro t ht name hname
    obtain ⟨x, hx, -, rfl⟩ := hends t ht name hname
    exact List.mem_map_of_mem hx
  · intro t ht name htarget
    obtain ⟨x, hx, hfound, -⟩ := hends t ht name (.inr htarget)
    refine ⟨x, hfound, fun p hp => ?_⟩
    obtain ⟨before, after, horder⟩ := List.append_of_mem hx
    have hmem := parentFirst_parent horder hp
    rw [horder, List.map_append]
    exact List.mem_append_left _ hmem
  · intro t ht e he
    obtain ⟨g, -, event, -, rfl⟩ := hcons.resolved t ht e he
    rw [Text.isSome_cut?]
    simp [Text.containsChar]
  · intro t ht
    obtain ⟨hmem, he⟩ := List.mem_filter.1 ht
    exact (hk.transitions t hmem).2 (by simpa using he)

/-- What stands in the way of a constructor. A name that cannot be printed is no error, but nothing
is made with it either. -/
structure FailureCauses (c : Chart) (k : Callbacks) (chart : Ident) : Prop where
  lookups : Resolvable c k
  unresolved : ∀ context referent reference, buildStatechart c k chart =
      .error (.rejected (.unresolved context referent reference)) →
    ∃ t ∈ c.enabledTransitions, Astray t ∧ context = "build_statechart" ∧ referent = .state ∧
      reference = t.target.label
  otherwise : (∀ t ∈ c.enabledTransitions, ¬ Astray t) → ∀ e,
    buildStatechart c k chart = .error (.rejected e) →
      ∃ origin value, e = .invalidIdentifier origin value ∧ Misnamed c origin value
  made_iff : (∃ tokens, buildStatechart c k chart = .ok tokens) ↔
    (∀ t ∈ c.enabledTransitions, ¬ Astray t) ∧ Wellnamed c ∧
      ∀ r ∈ k.routines, isPrintable r.name = true

/-- A reference of a validated chart is unresolved only if a transition leads to the start, or from
the start to the end. Any other error is about a name that is no identifier. -/
theorem constructor_failure_causes {c : Chart} (hc : Validated c)
    (hstates : (Generator.stateHooks c (Generator.resume {})).result = .ok ())
    (htransitions : (Generator.transitionHooks c (Generator.resume
      (Generator.stateHooks c (Generator.resume {})).state.out)).result = .ok ())
    (chart : Ident) : FailureCauses c (Run.hooksOf c) chart := by
  have hk := closed_hooksOf hc hstates htransitions
  have hres := resolvable_of_validated hc hk
  have hperm := parentFirst_perm hc.states_nodup (hc.consistent.rooted hc.states_nodup)
  refine ⟨hres, ?_, ?_, ?_, ?_⟩
  · intro context referent reference hbuild
    cases failsFor_buildStatechart hres chart _ hbuild with
    | route ht hastray => exact ⟨_, ht, hastray, rfl, rfl, rfl⟩
  · intro hroutes e hbuild
    cases failsFor_buildStatechart hres chart _ hbuild with
    | name h => exact ⟨_, _, rfl, h⟩
    | route ht hastray => exact absurd hastray (hroutes _ ht)
  · rintro ⟨tokens, hbuild⟩
    obtain ⟨ws, statements, hws, hstatements, -⟩ := buildStatechart_eq_ok.1 hbuild
    exact ⟨not_astray_of_wirings hws, wellnamed_of_wirings hperm hws, printable_of_statements hk
      hc.states_nodup hc.transitions_nodup hperm hws hstatements⟩
  · rintro ⟨hroutes, hnames, hprint⟩
    exact exists_buildStatechart hk hres chart hroutes hnames hprint

theorem kiln_failure_causes : Validated (all kiln).state ∧
    (Generator.stateHooks (all kiln).state (Generator.resume {})).result = .ok () ∧
    (Generator.transitionHooks (all kiln).state (Generator.resume
      (Generator.stateHooks (all kiln).state (Generator.resume {})).state.out)).result = .ok () ∧
    FailureCauses (all kiln).state (Run.hooksOf (all kiln).state) ⟨false, "Kiln"⟩ :=
  ⟨kiln_validated, kiln_hooks.1, kiln_hooks.2,
    constructor_failure_causes kiln_validated kiln_hooks.1 kiln_hooks.2 _⟩

end Statechart.Module
