import Mathlib.Data.List.Forall2
import Statechart.Module.Constructor
import Statechart.Proofs.Callbacks.Uses

/-!
The outline of a constructor.

What the constructor does is told by the chart alone: states in their order, then every enabled
transition, preceded by the start and the end that it is the first to need. Variables are made from
names, so the variables that a wiring binds and uses are told by the chart as well.
-/
set_option autoImplicit false

namespace Statechart.Module

open Target

def stem (name : String) : String :=
  ((Fragment.ident? (Text.trim name)).map Ident.name).getD ""

def stateIdent (name : String) : Ident := ⟨false, "st_" ++ stem name⟩

def homeIdent : Option String → Ident
  | none => topName
  | some parent => stateIdent parent

def startIdent : Option String → Ident
  | none => startTopName
  | some parent => ⟨false, "start_" ++ stem parent⟩

def startParent? (c : Chart) (t : Transition) : Option (Option String) :=
  if t.source = .start then (t.target.state?.bind c.state?).map State.parent else none

def sourceIdent (c : Chart) (t : Transition) : Ident :=
  match t.source with
  | .start => startIdent ((startParent? c t).getD none)
  | .stop => endName
  | .state name => stateIdent name

def targetIdent (t : Transition) : Ident :=
  match t.target with
  | .state name => stateIdent name
  | _ => endName

theorem name_of_readIdent {origin text : String} {i : Ident} (h : readIdent origin text = .ok i) :
    i.name = stem text := by
  rw [stem, readIdent_eq_ok.1 h]
  rfl

inductive Part where
  | state (s : State)
  | start (parent : Option String)
  | stop
  | link (t : Transition)

def freshStart (c : Chart) (before : List Transition) (t : Transition) : List Part :=
  match startParent? c t with
  | some parent => if parent ∈ before.filterMap (startParent? c) then [] else [.start parent]
  | none => []

def freshStop (before : List Transition) (t : Transition) : List Part :=
  if t.target = .stop ∧ ∀ u ∈ before, u.target ≠ .stop then [.stop] else []

def links (c : Chart) : (before : List Transition) → List Transition → List Part
  | _, [] => []
  | before, t :: ts =>
    freshStart c before t ++ freshStop before t ++ [.link t] ++ links c (before ++ [t]) ts

def outline (c : Chart) : List Part :=
  (parentFirst c).map .state ++ links c [] c.enabledTransitions

inductive Serves (c : Chart) (callbacks : Callbacks) : Part → Wiring → Prop where
  | state {s : State} {hooks : StateHooks} (h : callbacks.states.lookup s.name = some hooks) :
      Serves c callbacks (.state s)
        (.addState (stateIdent s.name) (homeIdent s.parent) s.name s.kind hooks)
  | start {parent : Option String} :
      Serves c callbacks (.start parent) (.startState (startIdent parent) (homeIdent parent))
  | stop : Serves c callbacks .stop (.endState endName)
  | link {t : Transition} {event : Option EventPath} {hooks : TransitionHooks}
      (he : eventOf t = .ok event) (h : callbacks.transitions.lookup t.name = some hooks) :
      Serves c callbacks (.link t) (.addTransition (sourceIdent c t) (targetIdent t) event hooks)

structure Scope.Knows (c : Chart) (added : List State) (before : List Transition)
    (scope : Scope) : Prop where
  states : ∀ name, scope.states.lookup name =
    if name ∈ added.map State.name then some (stateIdent name) else none
  starts : ∀ parent, scope.starts.lookup parent =
    if parent ∈ before.filterMap (startParent? c) then some (startIdent parent) else none
  homes : ∀ p, some p ∈ before.filterMap (startParent? c) → p ∈ added.map State.name
  ended : scope.ended = true ↔ ∃ u ∈ before, u.target = .stop

structure Anchored (c : Chart) (added : List State) (t : Transition) : Prop where
  ends : ∀ name, t.source = .state name ∨ t.target = .state name → name ∈ added.map State.name
  home : ∀ p, startParent? c t = some (some p) → p ∈ added.map State.name

theorem found_eq_ok {α : Type} {referent : Referent} {reference : String} {o : Option α} {a : α} :
    found referent reference o = .ok a ↔ o = some a := by
  cases o <;> simp [found, missing]

theorem rejecting_eq_ok {α : Type} {r : Except Error α} {a : α} :
    rejecting r = .ok a ↔ r = .ok a :=
  mapError_eq_ok

namespace Scope.Knows

variable {c : Chart} {callbacks : Callbacks} {added : List State} {before : List Transition}
  {scope : Scope}

theorem empty (c : Chart) : Scope.Knows c [] [] {} :=
  ⟨by simp, by simp, by simp, by simp⟩

theorem lookup_state (h : Scope.Knows c added before scope) {name : String} {i : Ident}
    (hi : scope.states.lookup name = some i) :
    i = stateIdent name ∧ name ∈ added.map State.name := by
  rw [h.states] at hi
  split at hi
  · rename_i hmem
    exact ⟨(Option.some.inj hi).symm, hmem⟩
  · cases hi

theorem parentVariable (h : Scope.Knows c added before scope) {parent : Option String} {i : Ident}
    (hi : Module.parentVariable scope parent = .ok i) :
    i = homeIdent parent ∧ ∀ p, parent = some p → p ∈ added.map State.name := by
  cases parent with
  | none =>
    cases hi
    exact ⟨rfl, by simp⟩
  | some p =>
    obtain ⟨rfl, hp⟩ := h.lookup_state (found_eq_ok.1 hi)
    exact ⟨rfl, by simpa using hp⟩

theorem endpointVariable (h : Scope.Knows c added before scope) {e : Endpoint} {i : Ident}
    (hi : Module.endpointVariable scope e = .ok i) :
    (e = .stop ∧ i = endName) ∨
      ∃ name, e = .state name ∧ i = stateIdent name ∧ name ∈ added.map State.name := by
  cases e with
  | start => simp [Module.endpointVariable, missing] at hi
  | stop =>
    cases hi
    exact .inl ⟨rfl, rfl⟩
  | state name =>
    obtain ⟨rfl, hname⟩ := h.lookup_state (found_eq_ok.1 hi)
    exact .inr ⟨name, rfl, rfl, hname⟩

theorem addState (h : Scope.Knows c added before scope) {s : State} {scope' : Scope} {w : Wiring}
    (hw : Module.addState callbacks scope s = .ok (scope', w)) :
    Serves c callbacks (.state s) w ∧ Scope.Knows c (added ++ [s]) before scope' := by
  rw [Module.addState] at hw
  obtain ⟨i, hi, hw⟩ := bind_eq_ok.1 hw
  obtain ⟨parent, hparent, hw⟩ := bind_eq_ok.1 hw
  obtain ⟨hooks, hhooks, hw⟩ := bind_eq_ok.1 hw
  obtain ⟨_, -, hw⟩ := bind_eq_ok.1 hw
  have hbinding : i.within "st_" = stateIdent s.name := by
    rw [Ident.within, name_of_readIdent (rejecting_eq_ok.1 hi), stateIdent]
  rw [hbinding, (h.parentVariable hparent).1] at hw
  cases hw
  refine ⟨.state (found_eq_ok.1 hhooks), ?_, h.starts, ?_, h.ended⟩
  · intro name
    simp only [List.lookup_cons, List.map_append, List.map_cons, List.map_nil, List.mem_append,
      List.mem_singleton, h.states]
    by_cases hname : name = s.name
    · simp [hname]
    · have hne : (name == s.name) = false := by simpa using hname
      simp [hne, hname]
  · intro p hp
    rw [List.map_append, List.mem_append]
    exact .inl (h.homes p hp)

theorem addStates (h : Scope.Knows c added before scope) {ss : List State} {scope' : Scope}
    {ws : List Wiring} (hw : Module.addStates callbacks scope ss = .ok (scope', ws)) :
    List.Forall₂ (Serves c callbacks) (ss.map .state) ws ∧
      Scope.Knows c (added ++ ss) before scope' := by
  induction ss generalizing scope added ws with
  | nil =>
    cases hw
    simpa using h
  | cons s ss ih =>
    rw [Module.addStates] at hw
    obtain ⟨⟨scope₁, w⟩, hone, hw⟩ := bind_eq_ok.1 hw
    obtain ⟨⟨scope₂, ws'⟩, hrest, hw⟩ := bind_eq_ok.1 hw
    cases hw
    obtain ⟨hserves, hknows⟩ := h.addState hone
    obtain ⟨hall, hknows⟩ := ih hknows hrest
    exact ⟨.cons hserves hall, by simpa using hknows⟩

structure Sourced (c : Chart) (callbacks : Callbacks) (added : List State)
    (before : List Transition) (scope : Scope) (t : Transition) (scope' : Scope) (i : Ident)
    (ws : List Wiring) : Prop where
  ident : i = sourceIdent c t
  serves : List.Forall₂ (Serves c callbacks) (freshStart c before t) ws
  states : scope'.states = scope.states
  starts : ∀ parent, scope'.starts.lookup parent =
    if parent ∈ (before ++ [t]).filterMap (startParent? c) then some (startIdent parent) else none
  ended : scope'.ended = scope.ended
  source : ∀ name, t.source = .state name → name ∈ added.map State.name
  home : ∀ p, startParent? c t = some (some p) → p ∈ added.map State.name

theorem newStart (h : Scope.Knows c added before scope) {t : Transition} {x : State}
    {scope' : Scope} {i : Ident} {ws : List Wiring}
    (hx : found .state t.target.label (t.target.state?.bind c.state?) = .ok x)
    (hnew : scope.starts.lookup x.parent = none)
    (hw : Module.startVariable c scope t = .ok (scope', i, ws)) :
    scope' = { scope with starts := (x.parent, startIdent x.parent) :: scope.starts } ∧
      i = startIdent x.parent ∧ ws = [.startState (startIdent x.parent) (homeIdent x.parent)] ∧
      ∀ p, x.parent = some p → p ∈ added.map State.name := by
  rw [Module.startVariable] at hw
  obtain ⟨y, hy, hw⟩ := bind_eq_ok.1 hw
  obtain rfl : x = y := Except.ok.inj (hx.symm.trans hy)
  simp only [hnew] at hw
  cases hp : x.parent with
  | none =>
    simp only [hp] at hw
    obtain ⟨binding, hbinding, hw⟩ := bind_eq_ok.1 hw
    obtain ⟨owner, howner, hw⟩ := bind_eq_ok.1 hw
    obtain ⟨rfl, hhome⟩ := h.parentVariable howner
    cases hbinding
    cases hw
    exact ⟨rfl, rfl, rfl, hhome⟩
  | some p =>
    simp only [hp] at hw
    obtain ⟨binding, hbinding, hw⟩ := bind_eq_ok.1 hw
    obtain ⟨owner, howner, hw⟩ := bind_eq_ok.1 hw
    obtain ⟨j, hj, rfl⟩ := map_eq_ok.1 hbinding
    obtain ⟨rfl, hhome⟩ := h.parentVariable howner
    rw [Ident.within, name_of_readIdent (rejecting_eq_ok.1 hj)] at hw
    cases hw
    exact ⟨rfl, rfl, rfl, hhome⟩

theorem startVariable (callbacks : Callbacks) (h : Scope.Knows c added before scope)
    {t : Transition} {scope' : Scope} {i : Ident} {ws : List Wiring} (ht : t.source = .start)
    (hw : Module.startVariable c scope t = .ok (scope', i, ws)) :
    Sourced c callbacks added before scope t scope' i ws := by
  have hw' := hw
  rw [Module.startVariable] at hw'
  obtain ⟨x, hx, hw'⟩ := bind_eq_ok.1 hw'
  have hparent : startParent? c t = some x.parent := by
    rw [startParent?, if_pos ht, found_eq_ok.1 hx, Option.map_some]
  have hsource : sourceIdent c t = startIdent x.parent := by
    simp only [sourceIdent, ht, hparent, Option.getD_some]
  have hno : ∀ name, t.source = .state name → name ∈ added.map State.name := by simp [ht]
  by_cases hmem : x.parent ∈ before.filterMap (startParent? c)
  · have hfound := h.starts x.parent
    rw [if_pos hmem] at hfound
    simp only [hfound] at hw'
    cases hw'
    refine ⟨hsource.symm, ?_, rfl, ?_, rfl, hno, ?_⟩
    · simp [freshStart, hparent, hmem]
    · intro parent
      rw [h.starts]
      by_cases hp : parent = x.parent
      · simp only [List.filterMap_append, List.mem_append, hp, hmem, true_or]
      · simp [hparent, hp]
    · intro p hp
      rw [hparent, Option.some.injEq] at hp
      exact h.homes p (hp ▸ hmem)
  · have hnew := h.starts x.parent
    rw [if_neg hmem] at hnew
    obtain ⟨rfl, rfl, rfl, hhome⟩ := h.newStart hx hnew hw
    refine ⟨hsource.symm, ?_, rfl, ?_, rfl, hno, ?_⟩
    · simp only [freshStart, hparent, if_neg hmem]
      exact .cons .start .nil
    · intro parent
      simp only [List.lookup_cons, h.starts]
      by_cases hp : parent = x.parent
      · simp [hp, hparent]
      · have hne : (parent == x.parent) = false := by simpa using hp
        simp [hne, hparent, hp]
    · intro p hp
      rw [hparent, Option.some.injEq] at hp
      exact hhome p hp

theorem sourceVariable (callbacks : Callbacks) (h : Scope.Knows c added before scope)
    {t : Transition} {scope' : Scope} {i : Ident} {ws : List Wiring}
    (hw : Module.sourceVariable c scope t = .ok (scope', i, ws)) :
    Sourced c callbacks added before scope t scope' i ws := by
  by_cases ht : t.source = .start
  · have hw' : Module.startVariable c scope t = .ok (scope', i, ws) := by
      simpa only [Module.sourceVariable, ht] using hw
    exact h.startVariable callbacks ht hw'
  · have hparent : startParent? c t = none := by rw [startParent?, if_neg ht]
    have hend : ∃ i', Module.endpointVariable scope t.source = .ok i' ∧
        scope' = scope ∧ i = i' ∧ ws = [] := by
      cases hs : t.source with
      | start => exact absurd hs ht
      | stop =>
        simp only [Module.sourceVariable, hs] at hw
        obtain ⟨i', hi', hw⟩ := bind_eq_ok.1 hw
        cases hw
        exact ⟨i, hi', rfl, rfl, rfl⟩
      | state name =>
        simp only [Module.sourceVariable, hs] at hw
        obtain ⟨i', hi', hw⟩ := bind_eq_ok.1 hw
        cases hw
        exact ⟨i, hi', rfl, rfl, rfl⟩
    obtain ⟨i', hi', rfl, rfl, rfl⟩ := hend
    have hstarts : (before ++ [t]).filterMap (startParent? c) =
        before.filterMap (startParent? c) := by simp [hparent]
    refine ⟨?_, by simp [freshStart, hparent], rfl, by rw [hstarts]; exact h.starts, rfl, ?_,
      by simp [hparent]⟩
    · rcases h.endpointVariable hi' with ⟨hs, rfl⟩ | ⟨name, hs, rfl, -⟩
      · simp only [sourceIdent, hs]
      · simp only [sourceIdent, hs]
    · rcases h.endpointVariable hi' with ⟨hs, -⟩ | ⟨name, hs, -, hmem⟩
      · simp [hs]
      · simpa [hs] using hmem

theorem declareEnd (c : Chart) (callbacks : Callbacks) {t : Transition} {scope scope' : Scope}
    {ws : List Wiring}
    (hended : scope.ended = true ↔ ∃ u ∈ before, u.target = .stop)
    (hw : Module.declareEnd scope t = (scope', ws)) :
    List.Forall₂ (Serves c callbacks) (freshStop before t) ws ∧
      scope'.states = scope.states ∧ scope'.starts = scope.starts ∧
      (scope'.ended = true ↔ ∃ u ∈ before ++ [t], u.target = .stop) := by
  have hopen : scope.ended = false ↔ ∀ u ∈ before, u.target ≠ .stop := by
    rw [← Bool.not_eq_true, hended]
    simp
  by_cases hnew : t.target = .stop ∧ scope.ended = false
  · have hfresh : freshStop before t = [.stop] := if_pos ⟨hnew.1, hopen.1 hnew.2⟩
    simp only [Module.declareEnd, hnew.1, hnew.2, decide_true, Bool.not_false, Bool.and_self,
      if_true, Prod.mk.injEq] at hw
    obtain ⟨rfl, rfl⟩ := hw
    rw [hfresh]
    exact ⟨.cons .stop .nil, rfl, rfl, by simp [hnew.1]⟩
  · have hfresh : freshStop before t = [] :=
      if_neg fun hf => hnew ⟨hf.1, hopen.2 hf.2⟩
    have hold : ¬ (decide (t.target = .stop) && !scope.ended) = true := by simpa using hnew
    rw [Module.declareEnd, if_neg hold, Prod.mk.injEq] at hw
    obtain ⟨rfl, rfl⟩ := hw
    rw [hfresh]
    refine ⟨.nil, rfl, rfl, ?_⟩
    by_cases hstop : t.target = .stop
    · have he : scope.ended = true := by simpa [hstop] using hnew
      simp [he, hstop]
    · simp [hended, hstop]

theorem addTransition (h : Scope.Knows c added before scope) {t : Transition} {scope' : Scope}
    {ws : List Wiring} (hw : Module.addTransition c callbacks scope t = .ok (scope', ws)) :
    List.Forall₂ (Serves c callbacks)
        (freshStart c before t ++ freshStop before t ++ [.link t]) ws ∧
      Anchored c added t ∧ Scope.Knows c added (before ++ [t]) scope' := by
  rw [Module.addTransition] at hw
  obtain ⟨⟨scope₁, source, start⟩, hsource, hw⟩ := bind_eq_ok.1 hw
  have hs := h.sourceVariable callbacks hsource
  obtain rfl := hs.ident
  cases hd : Module.declareEnd scope₁ t with
  | mk scope₂ stop =>
    obtain ⟨hstop, hstates, hstarts, hended⟩ := declareEnd c callbacks (hs.ended ▸ h.ended) hd
    have hknows : Scope.Knows c added (before ++ [t]) scope₂ := by
      refine ⟨?_, ?_, ?_, hended⟩
      · rw [hstates, hs.states]
        exact h.states
      · rw [hstarts]
        exact hs.starts
      · intro p hp
        rw [List.filterMap_append, List.mem_append] at hp
        rcases hp with hp | hp
        · exact h.homes p hp
        · exact hs.home p (by simpa using hp)
    simp only [hd] at hw
    obtain ⟨target, htarget, hw⟩ := bind_eq_ok.1 hw
    obtain ⟨event, hevent, hw⟩ := bind_eq_ok.1 hw
    obtain ⟨hooks, hhooks, hw⟩ := bind_eq_ok.1 hw
    obtain ⟨_, -, hw⟩ := bind_eq_ok.1 hw
    cases hw
    have hto : target = targetIdent t ∧
        ∀ name, t.target = .state name → name ∈ added.map State.name := by
      rcases hknows.endpointVariable htarget with ⟨ht, rfl⟩ | ⟨name, ht, rfl, hmem⟩
      · simp [targetIdent, ht]
      · simpa [targetIdent, ht] using hmem
    obtain ⟨rfl, hto⟩ := hto
    refine ⟨?_, ⟨fun name hn => hn.elim (hs.source name) (hto name), hs.home⟩, hknows⟩
    exact List.rel_append (List.rel_append hs.serves hstop)
      (.cons (.link hevent (found_eq_ok.1 hhooks)) .nil)

theorem addTransitions (h : Scope.Knows c added before scope) {ts : List Transition}
    {ws : List Wiring} (hw : Module.addTransitions c callbacks scope ts = .ok ws) :
    List.Forall₂ (Serves c callbacks) (links c before ts) ws ∧
      ∀ t ∈ ts, Anchored c added t := by
  induction ts generalizing scope before ws with
  | nil =>
    cases hw
    exact ⟨.nil, by simp⟩
  | cons t ts ih =>
    rw [Module.addTransitions] at hw
    obtain ⟨⟨scope₁, ws₁⟩, hone, hw⟩ := bind_eq_ok.1 hw
    obtain ⟨ws₂, hrest, hw⟩ := bind_eq_ok.1 hw
    cases hw
    obtain ⟨hserves, hanchored, hknows⟩ := h.addTransition hone
    obtain ⟨hserves', hanchored'⟩ := ih hknows hrest
    exact ⟨List.rel_append hserves hserves', List.forall_mem_cons.2 ⟨hanchored, hanchored'⟩⟩

end Scope.Knows

/-- The wirings of a chart follow its outline, one for one. -/
theorem wirings_serve {c : Chart} {callbacks : Callbacks} {ws : List Wiring}
    (h : wirings c callbacks = .ok ws) :
    List.Forall₂ (Serves c callbacks) (outline c) ws ∧
      ∀ t ∈ c.enabledTransitions, Anchored c (parentFirst c) t := by
  rw [wirings] at h
  obtain ⟨⟨scope, states⟩, hstates, h⟩ := bind_eq_ok.1 h
  obtain ⟨rest, hrest, h⟩ := bind_eq_ok.1 h
  cases h
  obtain ⟨hserves, hknows⟩ := (Scope.Knows.empty c).addStates hstates
  obtain ⟨hserves', hanchored⟩ := hknows.addTransitions hrest
  exact ⟨List.rel_append hserves hserves', hanchored⟩

/-- A transition that a constructor has a place for: it ends in a state or at the end, and one that
begins at the start ends in a state. -/
structure Routed (c : Chart) (t : Transition) : Prop where
  target : t.target ≠ .start
  start : t.source = .start → ∃ parent, startParent? c t = some parent

theorem routed_of_addTransition {c : Chart} {callbacks : Callbacks} {scope : Scope} {t : Transition}
    {r : Scope × List Wiring} (h : addTransition c callbacks scope t = .ok r) : Routed c t := by
  rw [addTransition] at h
  obtain ⟨⟨scope₁, source, start⟩, hsource, h⟩ := bind_eq_ok.1 h
  cases hd : declareEnd scope₁ t with
  | mk scope₂ stop =>
    simp only [hd] at h
    obtain ⟨target, htarget, -⟩ := bind_eq_ok.1 h
    constructor
    · intro ht
      rw [ht] at htarget
      cases htarget
    · intro ht
      simp only [sourceVariable, ht, startVariable] at hsource
      obtain ⟨x, hx, -⟩ := bind_eq_ok.1 hsource
      exact ⟨x.parent, by rw [startParent?, if_pos ht, found_eq_ok.1 hx, Option.map_some]⟩

theorem routed_of_addTransitions {c : Chart} {callbacks : Callbacks} {scope : Scope}
    {ts : List Transition} {ws : List Wiring} (h : addTransitions c callbacks scope ts = .ok ws) :
    ∀ t ∈ ts, Routed c t := by
  induction ts generalizing scope ws with
  | nil => simp
  | cons t ts ih =>
    rw [addTransitions] at h
    obtain ⟨⟨scope₁, _⟩, hone, h⟩ := bind_eq_ok.1 h
    obtain ⟨_, hrest, -⟩ := bind_eq_ok.1 h
    exact List.forall_mem_cons.2 ⟨routed_of_addTransition hone, ih hrest⟩

theorem wirings_routed {c : Chart} {callbacks : Callbacks} {ws : List Wiring}
    (h : wirings c callbacks = .ok ws) : ∀ t ∈ c.enabledTransitions, Routed c t := by
  rw [wirings] at h
  obtain ⟨⟨scope, states⟩, -, h⟩ := bind_eq_ok.1 h
  obtain ⟨rest, hrest, -⟩ := bind_eq_ok.1 h
  exact routed_of_addTransitions hrest

theorem mapAll_eq_ok {ε α β : Type} {f : α → Except ε β} {as : List α} {bs : List β} :
    mapAll f as = .ok bs ↔ List.Forall₂ (fun a b => f a = .ok b) as bs := by
  induction as generalizing bs with
  | nil =>
    constructor
    · intro h
      cases h
      exact .nil
    · intro h
      cases h
      rfl
  | cons a as ih =>
    rw [mapAll, bind_eq_ok]
    constructor
    · intro h
      obtain ⟨b, hb, h⟩ := h
      obtain ⟨bs', hbs, h⟩ := bind_eq_ok.1 h
      cases h
      exact .cons hb (ih.1 hbs)
    · intro h
      cases h with
      | cons hb hbs => exact ⟨_, hb, bind_eq_ok.2 ⟨_, ih.2 hbs, rfl⟩⟩

/-- The function in whose body the statements stand, after those for the chart and its root. -/
def constructorTokens (chart : Ident) (statements : List (List Token)) : List Token :=
  code "pub fn build_statechart () -> Statechart <" ++ chart.tokens ++ Token.op ">" ++
    Token.braces (
      code "let mut sc = Statechart :: new" ++ Token.parens (chart.tokens ++ code ":: NAME") ++
      code "; let top = sc . root () ;" ++ statements.flatten ++ code "sc")

theorem buildStatechart_eq_ok {c : Chart} {callbacks : Callbacks} {chart : Ident}
    {tokens : List Token} :
    buildStatechart c callbacks chart = .ok tokens ↔
      ∃ ws statements, wirings c callbacks = .ok ws ∧ mapAll Wiring.tokens ws = .ok statements ∧
        tokens = constructorTokens chart statements := by
  simp only [buildStatechart, bind_eq_ok]
  constructor
  · intro h
    obtain ⟨ws, hws, statements, hstatements, h⟩ := h
    exact ⟨ws, statements, hws, hstatements, (Except.ok.inj h).symm⟩
  · intro h
    obtain ⟨ws, statements, hws, hstatements, rfl⟩ := h
    exact ⟨ws, hws, statements, hstatements, rfl⟩

end Statechart.Module
