import Statechart.Proofs.Callbacks.Marked

/-!
What of a module cannot be printed.

A name that the check of identifiers accepts is printed as it stands, and it can be printed only if
it is the identifier that it was read as, without a comment or a mark around it. All else that is
printed is tokens, and of these only files with something that has no layout are refused.
-/
set_option autoImplicit false

namespace Statechart

open Target

/-- A name can be printed where it is spelled like the identifier that it is read as. -/
theorem isPrintable_iff {name : String} {i : Ident}
    (h : Fragment.ident? (Text.trim name) = some i) : isPrintable name = true ↔ i.text = name := by
  constructor
  · intro hprint
    unfold isPrintable at hprint
    cases hk : Fragment.ident? name with
    | none => simp [hk] at hprint
    | some k =>
      have hname : k.text = name := by simpa [hk] using hprint
      have hspelled := Fragment.spelled_text hk
      rw [hname] at hspelled
      rw [Lexer.trim_spelled hspelled, hk] at h
      obtain rfl := Option.some.inj h
      exact hname
  · intro hname
    have hspelled := Fragment.spelled_text h
    have hident := Fragment.isIdentifier_text h
    rw [hname] at hspelled hident
    rw [isPrintable, Fragment.ident?_spelled hspelled hident]
    simp [Ident.text_ofText]

theorem isPrintable_of_spelled {name : String} (h : Lexer.Spelled name)
    (hident : isIdentifier name = true) : isPrintable name = true := by
  rw [isPrintable, Fragment.ident?_spelled h hident]
  simp [Ident.text_ofText]

/-- A result that something stood in the way of that has no place in source text. -/
def Unprintable {α : Type} (r : Except Fault α) : Prop :=
  ∃ t, r = .error (.unprintable t)

section

variable {α β : Type}

@[simp] theorem unprintable_ok (a : α) : ¬ Unprintable (.ok a) := by
  simp [Unprintable]

@[simp] theorem unprintable_pure (a : α) : ¬ Unprintable (Pure.pure a : Except Fault α) :=
  unprintable_ok a

@[simp] theorem unprintable_bind {r : Except Fault α} {f : α → Except Fault β} :
    Unprintable (r >>= f) ↔ Unprintable r ∨ ∃ a, r = .ok a ∧ Unprintable (f a) := by
  cases r with
  | error e => simp [Unprintable, bind, Except.bind]
  | ok a => simp [Unprintable, bind, Except.bind]

@[simp] theorem unprintable_map {r : Except Fault α} {f : α → β} :
    Unprintable (r.map f) ↔ Unprintable r := by
  cases r with
  | error e => simp [Unprintable, Except.map]
  | ok a => simp [Unprintable, Except.map]

@[simp] theorem unprintable_fmap {r : Except Fault α} {f : α → β} :
    Unprintable (f <$> r) ↔ Unprintable r :=
  unprintable_map

@[simp] theorem unprintable_printed {name : String} :
    Unprintable (printed name) ↔ isPrintable name = false := by
  unfold printed
  cases isPrintable name with
  | true => simp
  | false => simp [Unprintable]

theorem unprintable_hook {hook : Hook} :
    Unprintable hook.tokens ↔ ∃ name, hook = .named name ∧ isPrintable name = false := by
  cases hook with
  | named name => simp [Hook.tokens]
  | builtin tree => simp [Hook.tokens]

end

namespace Module

variable {α β : Type} {c : Chart} {k : Callbacks} {chart : Ident}

@[simp] theorem unprintable_rejecting (r : Except Error α) : ¬ Unprintable (rejecting r) := by
  cases r with
  | error e => simp [Unprintable, rejecting]
  | ok a => simp [Unprintable, rejecting]

@[simp] theorem unprintable_found (referent : Referent) (reference : String) (o : Option α) :
    ¬ Unprintable (found referent reference o) := by
  cases o with
  | none => simp [Unprintable, found, missing]
  | some a => simp [Unprintable, found]

theorem not_unprintable_mapAll {f : α → Except Fault β} {as : List α}
    (h : ∀ a ∈ as, ¬ Unprintable (f a)) : ¬ Unprintable (mapAll f as) := by
  induction as with
  | nil => simp [mapAll]
  | cons a as ih =>
    obtain ⟨ha, has⟩ := List.forall_mem_cons.1 h
    simp [mapAll, ha, ih has]

theorem unprintable_mapAll {f : α → Except Fault β} {as : List α}
    (h : ∀ a ∈ as, Unprintable (f a) ∨ ∃ b, f a = .ok b) :
    Unprintable (mapAll f as) ↔ ∃ a ∈ as, Unprintable (f a) := by
  induction as with
  | nil => simp [mapAll]
  | cons a as ih =>
    obtain ⟨ha, has⟩ := List.forall_mem_cons.1 h
    obtain hno | ⟨b, hb⟩ := ha
    · simp [mapAll, hno]
    · simp [mapAll, hb, ih has]

theorem unprintable_generated {r : Routine} :
    Unprintable (r.generated chart) ↔ isPrintable r.name = false := by
  rw [Routine.generated, unprintable_bind, unprintable_printed, or_iff_left]
  intro h
  obtain ⟨_, -, h⟩ := h
  cases hrole : r.role <;> simp [hrole] at h

/-- A generated function needs its name, a hand-written one has it. -/
theorem routine_tokens (r : Routine) (chart : Ident) :
    (Unprintable (r.tokens chart) ∧ r.override = none ∧ isPrintable r.name = false) ∨
      ∃ ts, r.tokens chart = .ok ts ∧ (r.override = none → isPrintable r.name = true) := by
  unfold Routine.tokens
  cases hover : r.override with
  | some tree => exact .inr ⟨_, rfl, by simp⟩
  | none =>
    cases hname : isPrintable r.name with
    | false => exact .inl ⟨unprintable_generated.2 hname, rfl, rfl⟩
    | true => exact .inr ⟨_, Routine.generated_eq_ok.2 ⟨hname, rfl⟩, by simp⟩

theorem unprintable_callbackFns :
    Unprintable (callbackFns k chart) ↔
      ∃ r ∈ k.routines, r.override = none ∧ isPrintable r.name = false := by
  have hall : ∀ r ∈ k.routines,
      Unprintable (r.tokens chart) ∨ ∃ ts, r.tokens chart = .ok ts := by
    intro r _
    obtain ⟨hno, -⟩ | ⟨ts, hts, -⟩ := routine_tokens r chart
    · exact .inl hno
    · exact .inr ⟨ts, hts⟩
  have hone : ∀ r : Routine, Unprintable (r.tokens chart) ↔
      r.override = none ∧ isPrintable r.name = false := by
    intro r
    obtain ⟨hno, h⟩ | ⟨ts, hts, h⟩ := routine_tokens r chart
    · exact ⟨fun _ => h, fun _ => hno⟩
    · rw [hts]
      simp only [unprintable_ok, false_iff, not_and, Bool.not_eq_false]
      exact h
  simp [callbackFns, unprintable_mapAll hall, hone]

theorem unprintable_mapAll_markedTokens {rs : List Routine} :
    Unprintable (mapAll (Routine.markedTokens · chart) rs) ↔
      ∃ r ∈ rs, isPrintable r.name = false := by
  have hone : ∀ r : Routine, Unprintable (r.markedTokens chart) ↔ isPrintable r.name = false := by
    intro r
    simp [Routine.markedTokens, unprintable_generated]
  rw [unprintable_mapAll]
  · simp only [hone]
  · intro r _
    cases hname : isPrintable r.name with
    | false => exact .inl ((hone r).2 hname)
    | true => exact .inr ⟨_, Routine.markedTokens_eq_ok.2 ⟨hname, rfl⟩⟩

def hooks (k : Callbacks) : List Hook :=
  k.states.flatMap (fun p => [p.2.entry, p.2.during, p.2.exit]) ++
    k.transitions.flatMap fun p => [p.2.guard, p.2.action]

theorem checkHooks_of_printable {hs : List Hook} (h : ∀ hook ∈ hs, ¬ Unprintable hook.tokens) :
    ¬ Unprintable (checkHooks hs) := by
  simp [checkHooks, not_unprintable_mapAll h]

theorem mem_hooks {hook : Hook} : hook ∈ hooks k ↔
    (∃ p ∈ k.states, hook ∈ [p.2.entry, p.2.during, p.2.exit]) ∨
      ∃ p ∈ k.transitions, hook ∈ [p.2.guard, p.2.action] := by
  simp only [hooks, List.mem_append, List.mem_flatMap]

theorem not_unprintable_parentVariable (scope : Scope) (parent : Option String) :
    ¬ Unprintable (parentVariable scope parent) := by
  cases parent with
  | none => simp [parentVariable]
  | some p => simp [parentVariable]

theorem not_unprintable_endpointVariable (scope : Scope) (e : Endpoint) :
    ¬ Unprintable (endpointVariable scope e) := by
  cases e with
  | start => simp [endpointVariable, missing, Unprintable]
  | stop => simp [endpointVariable]
  | state name => simp [endpointVariable]

theorem not_unprintable_startVariable (scope : Scope) (t : Transition) :
    ¬ Unprintable (startVariable c scope t) := by
  rw [startVariable, unprintable_bind, not_or]
  refine ⟨unprintable_found _ _ _, ?_⟩
  intro h
  obtain ⟨x, -, h⟩ := h
  split at h
  · simp at h
  · cases hp : x.parent with
    | none => simp [hp, not_unprintable_parentVariable] at h
    | some p => simp [hp, not_unprintable_parentVariable] at h

theorem not_unprintable_sourceVariable (scope : Scope) (t : Transition) :
    ¬ Unprintable (sourceVariable c scope t) := by
  unfold sourceVariable
  split
  · exact not_unprintable_startVariable scope t
  · simp [not_unprintable_endpointVariable]

theorem not_unprintable_eventOf (t : Transition) : ¬ Unprintable (eventOf t) := by
  unfold eventOf
  split
  · simp
  · simp

section

variable (h : ∀ hook ∈ hooks k, ¬ Unprintable hook.tokens)
include h

theorem stateHooks_printable {name : String} {x : StateHooks}
    (hx : k.states.lookup name = some x) :
    ∀ hook ∈ [x.entry, x.during, x.exit], ¬ Unprintable hook.tokens := by
  intro hook hmem
  exact h hook (mem_hooks.2 (.inl ⟨(name, x), mem_of_lookup hx, hmem⟩))

theorem transitionHooks_printable {name : String} {x : TransitionHooks}
    (hx : k.transitions.lookup name = some x) :
    ∀ hook ∈ [x.guard, x.action], ¬ Unprintable hook.tokens := by
  intro hook hmem
  exact h hook (mem_hooks.2 (.inr ⟨(name, x), mem_of_lookup hx, hmem⟩))

theorem not_unprintable_addState (scope : Scope) (s : State) :
    ¬ Unprintable (addState k scope s) := by
  simp only [addState, unprintable_bind, unprintable_rejecting, unprintable_found, unprintable_pure,
    not_unprintable_parentVariable, false_or, and_false, exists_false, or_false, not_exists,
    not_and]
  intro i _ parent _ x hx
  exact checkHooks_of_printable (stateHooks_printable h (found_eq_ok.1 hx))

theorem not_unprintable_addStates (scope : Scope) (ss : List State) :
    ¬ Unprintable (addStates k scope ss) := by
  induction ss generalizing scope with
  | nil => simp [addStates]
  | cons s ss ih => simp [addStates, not_unprintable_addState h, ih]

theorem not_unprintable_addTransition (scope : Scope) (t : Transition) :
    ¬ Unprintable (addTransition c k scope t) := by
  simp only [addTransition, unprintable_bind, not_unprintable_sourceVariable,
    not_unprintable_endpointVariable, not_unprintable_eventOf, unprintable_found, unprintable_pure,
    false_or, and_false, exists_false, or_false, not_exists, not_and]
  intro source _ target _ event _ x hx
  exact checkHooks_of_printable (transitionHooks_printable h (found_eq_ok.1 hx))

theorem not_unprintable_addTransitions (scope : Scope) (ts : List Transition) :
    ¬ Unprintable (addTransitions c k scope ts) := by
  induction ts generalizing scope with
  | nil => simp [addTransitions]
  | cons t ts ih => simp [addTransitions, not_unprintable_addTransition h, ih]

theorem not_unprintable_wirings : ¬ Unprintable (wirings c k) := by
  simp [wirings, not_unprintable_addStates h, not_unprintable_addTransitions h]

theorem not_unprintable_wiring {part : Part} {w : Wiring} (hw : Serves c k part w) :
    ¬ Unprintable w.tokens := by
  cases hw with
  | state hx =>
    have hhooks := stateHooks_printable h hx
    simp only [List.mem_cons, List.not_mem_nil, or_false, forall_eq_or_imp, forall_eq] at hhooks
    simp [Wiring.tokens, hhooks]
  | start => simp [Wiring.tokens]
  | stop => simp [Wiring.tokens]
  | link he hx =>
    have hhooks := transitionHooks_printable h hx
    simp only [List.mem_cons, List.not_mem_nil, or_false, forall_eq_or_imp, forall_eq] at hhooks
    simp [Wiring.tokens, hhooks]

theorem not_unprintable_buildStatechart : ¬ Unprintable (buildStatechart c k chart) := by
  simp only [buildStatechart, unprintable_bind, not_unprintable_wirings h, unprintable_pure,
    false_or, and_false, exists_false, or_false, not_exists, not_and]
  intro ws hws
  apply not_unprintable_mapAll
  intro w hw
  obtain ⟨part, -, hserves⟩ := forall₂_exists_left (wirings_serve hws).1 hw
  exact not_unprintable_wiring h hserves

end

def Readable (c : Chart) : Prop :=
  ∃ chart groups tables, chartIdent c = .ok chart ∧ checkTypeNames c = .ok () ∧
    eventGroups c = .ok groups ∧ eventTables c = .ok tables

structure Named (k : Callbacks) : Prop where
  accepted : ∀ r ∈ k.routines, IsName r.name
  hooks : ∀ name, .named name ∈ hooks k → ∃ r ∈ k.routines, r.name = name
  overridden : ∀ r ∈ k.routines, r.override ≠ none → isPrintable r.name = true

theorem unprintable_declarations (hk : Named k) :
    Unprintable (declarations c k) ↔
      Readable c ∧ ∃ r ∈ k.routines, isPrintable r.name = false := by
  have hfns : ∀ chart, Unprintable (callbackFns k chart) ↔
      ∃ r ∈ k.routines, isPrintable r.name = false := by
    intro chart
    rw [unprintable_callbackFns]
    constructor
    · intro h
      obtain ⟨r, hr, -, hname⟩ := h
      exact ⟨r, hr, hname⟩
    · intro h
      obtain ⟨r, hr, hname⟩ := h
      refine ⟨r, hr, ?_, hname⟩
      by_contra hover
      simp [hk.overridden r hr hover] at hname
  -- a constructor that cannot be printed refers to a function that cannot be printed either
  have hbuild : ∀ chart, Unprintable (buildStatechart c k chart) →
      ∃ r ∈ k.routines, isPrintable r.name = false := by
    intro chart h
    by_contra hall
    refine not_unprintable_buildStatechart ?_ h
    intro hook hmem hno
    obtain ⟨name, rfl, hname⟩ := unprintable_hook.1 hno
    obtain ⟨r, hr, rfl⟩ := hk.hooks name hmem
    exact hall ⟨r, hr, hname⟩
  simp only [declarations, unprintable_bind, unprintable_rejecting, rejecting_eq_ok,
    unprintable_pure, false_or, and_false, exists_false, or_false, hfns, Readable]
  constructor
  · intro h
    obtain ⟨chart, hchart, _, htypes, groups, hgroups, tables, htables, h⟩ := h
    refine ⟨⟨chart, groups, tables, hchart, htypes, hgroups, htables⟩, ?_⟩
    obtain h | ⟨_, -, h⟩ := h
    · exact h
    · exact hbuild chart h
  · intro h
    obtain ⟨⟨chart, groups, tables, hchart, htypes, hgroups, htables⟩, h⟩ := h
    exact ⟨chart, hchart, (), htypes, groups, hgroups, tables, htables, .inl h⟩

/-- Tokens of a file with something in it that has no layout. -/
def Undrawn (ts : List Token) : Prop :=
  ∃ file, Fragment.fileOf? ts = some file ∧ Layout.hasVerbatim file = true

theorem unprintable_laidOut {ts : List Token} : Unprintable (laidOut ts) ↔ Undrawn ts := by
  unfold laidOut Undrawn
  generalize Fragment.fileOf? ts = found
  cases found with
  | none => simp [Unprintable]
  | some file =>
    cases hfile : Layout.hasVerbatim file with
    | true => simp [layout?, hfile, Unprintable]
    | false => simp [layout?, hfile, Unprintable]

def moduleTokens (c : Chart) (declarations : List Token) : Except Error (List Token) := do
  let chart ← chartIdent c
  let runtime ←
    match Fragment.path? c.options.runtime with
    | some path => .ok path.tokens
    | none => .error (.invalidValue "OPTIONS" "runtime" c.options.runtime "a Rust crate path")
  let initial ← initialItems c
  return allowAttribute ++ code "use" ++ runtime ++ code ":: prelude :: * ;" ++ initial ++
    declarations ++ wrapper c chart

def moduleHeading (name : String) : String :=
  s!"// @generated by scb for statechart {name}. Do not edit by hand.\n\n"

theorem source_eq (c : Chart) (d : List Token) :
    source c d = (rejecting (moduleTokens c d) >>= laidOut).map (moduleHeading c.name ++ ·) := by
  unfold source moduleTokens
  generalize Fragment.path? c.options.runtime = path
  generalize chartIdent c = chart
  generalize initialItems c = initial
  cases chart with
  | error e => rfl
  | ok chart =>
    cases path with
    | none => rfl
    | some path =>
      cases initial with
      | error e => rfl
      | ok initial =>
        simp only [rejecting, mapError_ok, bind, Except.bind, pure, Except.pure]
        -- The tokens are the same on both sides.
        generalize laidOut _ = laid
        cases laid with
        | error e => rfl
        | ok text => rfl

theorem source_eq_ok {d : List Token} {text : String} :
    source c d = .ok text ↔ ∃ ts laid, moduleTokens c d = .ok ts ∧ laidOut ts = .ok laid ∧
      text = moduleHeading c.name ++ laid := by
  rw [source_eq, map_eq_ok]
  simp only [bind_eq_ok, rejecting_eq_ok]
  constructor
  · intro h
    obtain ⟨laid, ⟨ts, hts, hlaid⟩, rfl⟩ := h
    exact ⟨ts, laid, hts, hlaid, rfl⟩
  · intro h
    obtain ⟨ts, laid, hts, hlaid, rfl⟩ := h
    exact ⟨laid, ⟨ts, hts, hlaid⟩, rfl⟩

theorem unprintable_source {d : List Token} :
    Unprintable (source c d) ↔ ∃ ts, moduleTokens c d = .ok ts ∧ Undrawn ts := by
  simp [source_eq, unprintable_laidOut, rejecting_eq_ok]

theorem unprintable_callbacksSource (hprint : ∀ r ∈ k.routines, isPrintable r.name = true) :
    Unprintable (callbacksSource c k) ↔ c.options.genCode = true ∧
      c.options.genCallbacks = true ∧ ∃ ts, markedFns c k.routines = .ok ts ∧ Undrawn ts := by
  have hmarked : ∀ chart, ¬ Unprintable (mapAll (Routine.markedTokens · chart) k.routines) := by
    intro chart h
    obtain ⟨r, hr, hname⟩ := unprintable_mapAll_markedTokens.1 h
    simp [hprint r hr] at hname
  unfold callbacksSource
  split
  · rename_i hoff
    simp only [unprintable_pure, false_iff]
    intro h
    simp [h.1, h.2.1] at hoff
  · rename_i hon
    have hgen : c.options.genCode = true ∧ c.options.genCallbacks = true := by
      simpa using hon
    simp only [hgen, true_and, markedFns, unprintable_bind, unprintable_rejecting, hmarked,
      unprintable_laidOut, unprintable_pure, and_false, exists_false, or_false, false_or,
      bind_eq_ok, rejecting_eq_ok]
    constructor
    · intro h
      obtain ⟨chart, hchart, tss, htss, hno⟩ := h
      exact ⟨_, ⟨chart, hchart, tss, htss, rfl⟩, hno⟩
    · intro h
      obtain ⟨_, ⟨chart, hchart, tss, htss, heq⟩, hno⟩ := h
      obtain rfl := Except.ok.inj heq
      exact ⟨chart, hchart, tss, htss, hno⟩

end Module

end Statechart
