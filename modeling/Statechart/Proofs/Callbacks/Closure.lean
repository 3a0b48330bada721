import Mathlib.Data.List.Forall2
import Statechart.Proofs.Callbacks.Uses
import Statechart.Proofs.Lists
import Statechart.Proofs.Target.Syntax
import Statechart.Proofs.Validation.Soundness

/-!
The routines of a chart are those that its fields use.

While the fields are gone through, the routines made so far are those of the uses so far: one for
each name, in the order of first use and made there.
-/
set_option autoImplicit false

namespace Statechart.Generator

section

variable {c : Chart}

/-- The use of a name before which it was not used. -/
def FirstUse (c : Chart) (us : List Use) (name : String) (u : Use) : Prop :=
  ∃ before after, us = before ++ u :: after ∧ u.name? c = some name ∧
    name ∉ before.filterMap (Use.name? c)

/-- A routine as it is made at the first use of its name. -/
def MadeAtFirstUse (c : Chart) (us : List Use) (r : Routine) : Prop :=
  ∃ u, FirstUse c us r.name u ∧ r.role = u.role ∧ u.body c = .ok r.body ∧ r.override = none

structure Tracks (c : Chart) (us : List Use) (g : Generator) : Prop where
  names : g.out.routines.map Routine.name = (us.filterMap (Use.name? c)).eraseDups
  made : ∀ r ∈ g.out.routines, MadeAtFirstUse c us r
  declared : ∀ name role, g.declared.lookup name = some role ↔
    ∃ r ∈ g.out.routines, r.name = name ∧ r.role = role
  roles : ∀ u ∈ us, ∀ name, u.name? c = some name →
    ∃ r ∈ g.out.routines, r.name = name ∧ r.role = u.role
  accepted : ∀ r ∈ g.out.routines, IsName r.name

def SameHooks (g g' : Generator) : Prop :=
  g'.out.states = g.out.states ∧ g'.out.transitions = g.out.transitions

theorem MadeAtFirstUse.snoc {us : List Use} {r : Routine} (h : MadeAtFirstUse c us r) (v : Use) :
    MadeAtFirstUse c (us ++ [v]) r := by
  obtain ⟨u, ⟨before, after, rfl, hfirst⟩, hmade⟩ := h
  exact ⟨u, ⟨before, after ++ [v], by simp, hfirst⟩, hmade⟩

namespace Tracks

variable {us : List Use} {g g' : Generator}

theorem empty (c : Chart) : Tracks c [] (resume {}) :=
  ⟨by simp [resume], by simp [resume], by simp [resume], by simp, by simp [resume]⟩

theorem nodup (h : Tracks c us g) : (g.out.routines.map Routine.name).Nodup := by
  rw [h.names]
  exact nodup_eraseDups _

theorem mem_names (h : Tracks c us g) {name : String} :
    name ∈ us.filterMap (Use.name? c) ↔ ∃ r ∈ g.out.routines, r.name = name := by
  rw [← List.mem_eraseDups, ← h.names, List.mem_map]

theorem unnamed (h : Tracks c us g) {u : Use} (hu : u.name? c = none) :
    Tracks c (us ++ [u]) g := by
  refine ⟨?_, fun r hr => (h.made r hr).snoc u, h.declared, ?_, h.accepted⟩
  · rw [List.filterMap_append, h.names]
    simp [hu]
  · refine List.forall_mem_append.2 ⟨h.roles, List.forall_mem_singleton.2 ?_⟩
    simp [hu]

theorem known (h : Tracks c us g) {u : Use} {name : String} (hu : u.name? c = some name)
    (hl : g.declared.lookup name = some u.role) : Tracks c (us ++ [u]) g := by
  obtain ⟨r, hr, hname, hrole⟩ := (h.declared name u.role).1 hl
  have hmem : name ∈ us.filterMap (Use.name? c) := h.mem_names.2 ⟨r, hr, hname⟩
  refine ⟨?_, fun r hr => (h.made r hr).snoc u, h.declared, ?_, h.accepted⟩
  · have hone : [u].filterMap (Use.name? c) = [name] := by simp [hu]
    rw [List.filterMap_append, hone, eraseDups_snoc_of_mem hmem, h.names]
  · refine List.forall_mem_append.2 ⟨h.roles, List.forall_mem_singleton.2 ?_⟩
    intro name' hname'
    obtain rfl : name = name' := Option.some.inj (hu.symm.trans hname')
    exact ⟨r, hr, hname, hrole⟩

theorem fresh (h : Tracks c us g) {u : Use} {name : String} {b : List Statement}
    (hu : u.name? c = some name) (hl : g.declared.lookup name = none) (hname : IsName name)
    (hb : u.body c = .ok b) :
    Tracks c (us ++ [u]) ⟨(name, u.role) :: g.declared,
      { g.out with routines := g.out.routines ++ [{ name, role := u.role, body := b }] }⟩ := by
  -- A name that was not declared has no routine, and so no use before this one.
  have hnew : ∀ r ∈ g.out.routines, r.name ≠ name := by
    intro r hr hname
    have := (h.declared name r.role).2 ⟨r, hr, hname, rfl⟩
    simp [hl] at this
  have hmem : name ∉ us.filterMap (Use.name? c) := by
    rw [h.mem_names]
    rintro ⟨r, hr, hname⟩
    exact hnew r hr hname
  have hone : [u].filterMap (Use.name? c) = [name] := by simp [hu]
  refine ⟨?_, ?_, ?_, ?_, ?_⟩
  · rw [List.filterMap_append, hone, eraseDups_snoc_of_not_mem hmem, ← h.names]
    simp
  · intro r hr
    rcases List.mem_append.1 hr with hr | hr
    · exact (h.made r hr).snoc u
    · obtain rfl : r = _ := by simpa using hr
      exact ⟨u, ⟨us, [], rfl, hu, hmem⟩, rfl, hb, rfl⟩
  · intro name' role
    simp only [List.lookup_cons, List.mem_append, List.mem_singleton]
    by_cases hname : name' = name
    · subst hname
      simp only [beq_self_eq_true, Option.some.injEq]
      constructor
      · rintro rfl
        exact ⟨_, .inr rfl, rfl, rfl⟩
      · rintro ⟨r, hr | rfl, hname, hrole⟩
        · exact absurd hname (hnew r hr)
        · exact hrole
    · have hne : (name' == name) = false := by simpa using hname
      simp only [hne, h.declared]
      constructor
      · rintro ⟨r, hr, hrest⟩
        exact ⟨r, .inl hr, hrest⟩
      · rintro ⟨r, hr | rfl, hrname, hrole⟩
        · exact ⟨r, hr, hrname, hrole⟩
        · exact absurd hrname.symm hname
  · refine List.forall_mem_append.2 ⟨?_, List.forall_mem_singleton.2 ?_⟩
    · intro v hv name' hname'
      obtain ⟨r, hr, hrest⟩ := h.roles v hv name' hname'
      exact ⟨r, by simp [hr], hrest⟩
    · intro name' hname'
      obtain rfl : name = name' := Option.some.inj (hu.symm.trans hname')
      exact ⟨_, List.mem_append_right _ (List.mem_singleton_self _), rfl, rfl⟩
  · exact List.forall_mem_append.2 ⟨h.accepted, List.forall_mem_singleton.2 hname⟩

theorem reference (h : Tracks c us g) {u : Use} {hook : Hook} {j : Journal}
    (hy : (Generator.reference c u.role u.site u.callback).Yields g hook j g') :
    Refers c u hook ∧ Tracks c (us ++ [u]) g' ∧ SameHooks g g' := by
  obtain ⟨hrefers, hstep⟩ := reference_yields hy
  refine ⟨hrefers, ?_⟩
  rcases hstep with ⟨hu, rfl⟩ | ⟨name, hu, hreg⟩
  · exact ⟨h.unnamed hu, rfl, rfl⟩
  · rcases hreg with ⟨hl, rfl⟩ | ⟨hl, hname, b, hb, rfl⟩
    · exact ⟨h.known hu hl, rfl, rfl⟩
    · exact ⟨h.fresh hu hl hname hb, rfl, rfl⟩

theorem collect {α : Type} {f : α → Generate Hook} {use : α → Use}
    (hf : ∀ a, f a = Generator.reference c (use a).role (use a).site (use a).callback)
    (h : Tracks c us g) {as : List α} {hooks : List Hook} {j : Journal}
    (hy : (Work.collect f as).Yields g hooks j g') :
    List.Forall₂ (fun a hook => Refers c (use a) hook) as hooks ∧
      Tracks c (us ++ as.map use) g' ∧ SameHooks g g' := by
  induction as generalizing us g hooks j with
  | nil =>
    obtain ⟨rfl, -, rfl⟩ := Work.yields_collect_nil.1 hy
    exact ⟨.nil, by simpa using h, rfl, rfl⟩
  | cons a as ih =>
    obtain ⟨hook, _, g₁, hooks', _, hone, hrest, rfl, -⟩ := Work.yields_collect_cons.1 hy
    rw [hf] at hone
    obtain ⟨hrefers, h₁, hs₁, ht₁⟩ := h.reference hone
    obtain ⟨hall, h₂, hs₂, ht₂⟩ := ih h₁ hrest
    refine ⟨.cons hrefers hall, ?_, hs₂.trans hs₁, ht₂.trans ht₁⟩
    simpa using h₂

theorem resume (h : Tracks c us g) : Tracks c us (Generator.resume g.out) := by
  refine ⟨h.names, h.made, ?_, h.roles, h.accepted⟩
  intro name role
  have hkeys : ((g.out.routines.map fun r => (r.name, r.role)).map Prod.fst).Nodup := by
    simpa [Function.comp_def] using h.nodup
  rw [Generator.resume, lookup_eq_some_iff_mem hkeys]
  simp

end Tracks

structure StateServed (c : Chart) (s : State) (p : String × StateHooks) : Prop where
  name : p.1 = s.name
  entry : Refers c (stateUse State.entry s) p.2.entry
  during : Refers c (stateUse State.during s) p.2.during
  exit : Refers c (stateUse State.exit s) p.2.exit

structure TransitionServed (c : Chart) (t : Transition) (p : String × TransitionHooks) : Prop where
  name : p.1 = t.name
  guard : Refers c (transitionUse .guard Transition.guard t) p.2.guard
  action : Refers c (transitionUse .action Transition.action t) p.2.action

theorem states_served {ss : List State} {entries durings exits : List Hook}
    (he : List.Forall₂ (fun s hook => Refers c (stateUse State.entry s) hook) ss entries)
    (hd : List.Forall₂ (fun s hook => Refers c (stateUse State.during s) hook) ss durings)
    (hx : List.Forall₂ (fun s hook => Refers c (stateUse State.exit s) hook) ss exits) :
    List.Forall₂ (StateServed c) ss ((ss.map State.name).zip
      ((entries.zip (durings.zip exits)).map fun (e, d, x) => (⟨e, d, x⟩ : StateHooks))) := by
  induction he generalizing durings exits with
  | nil => exact .nil
  | cons hentry _ ih =>
    cases hd with
    | cons hduring hd =>
      cases hx with
      | cons hexit hx => exact .cons ⟨rfl, hentry, hduring, hexit⟩ (ih hd hx)

theorem transitions_served {ts : List Transition} {guards actions : List Hook}
    (hg : List.Forall₂ (fun t hook => Refers c (transitionUse .guard Transition.guard t) hook)
      ts guards)
    (ha : List.Forall₂ (fun t hook => Refers c (transitionUse .action Transition.action t) hook)
      ts actions) :
    List.Forall₂ (TransitionServed c) ts ((ts.map Transition.name).zip
      ((guards.zip actions).map fun (g, a) => (⟨g, a⟩ : TransitionHooks))) := by
  induction hg generalizing actions with
  | nil => exact .nil
  | cons hguard _ ih =>
    cases ha with
    | cons haction ha => exact .cons ⟨rfl, hguard, haction⟩ (ih ha)

theorem insert_of_not_mem {α : Type} {key : String} {value : α} {into : List (String × α)}
    (h : key ∉ into.map Prod.fst) : Callbacks.insert key value into = into ++ [(key, value)] := by
  induction into with
  | nil => rfl
  | cons p into ih =>
    obtain ⟨hne, hrest⟩ := not_or.1 (mt List.mem_cons.2 h)
    simp [Callbacks.insert, Ne.symm hne, ih hrest]

theorem insertAll_of_nodup {α : Type} {ps into : List (String × α)}
    (h : ((into ++ ps).map Prod.fst).Nodup) : Callbacks.insertAll ps into = into ++ ps := by
  induction ps generalizing into with
  | nil => simp [Callbacks.insertAll]
  | cons p ps ih =>
    have hnew : p.1 ∉ into.map Prod.fst := by
      rw [List.map_append, List.nodup_append'] at h
      exact fun hp => h.2.2 hp (by simp)
    have hrest : Callbacks.insertAll (p :: ps) into =
        Callbacks.insertAll ps (into ++ [(p.1, p.2)]) := by
      rw [← insert_of_not_mem hnew]
      rfl
    rw [hrest, ih (by simpa using h)]
    simp

theorem stateField_eq (field : State → Callback) (s : State) :
    stateField c field s = reference c (stateUse field s).role (stateUse field s).site
      (stateUse field s).callback := rfl

theorem transitionField_eq (role : Role) (field : Transition → Callback) (t : Transition) :
    transitionField c role field t = reference c (transitionUse role field t).role
      (transitionUse role field t).site (transitionUse role field t).callback := rfl

theorem stateHooks_yields {us : List Use} {g g' : Generator} {u : Unit} {j : Journal}
    (h : Tracks c us g) (hy : (stateHooks c).Yields g u j g') :
    Tracks c (us ++ stateUses c) g' ∧ g'.out.transitions = g.out.transitions ∧
      ∃ ps, List.Forall₂ (StateServed c) c.enabledStates ps ∧
        g'.out.states = Callbacks.insertAll ps g.out.states := by
  rw [stateHooks] at hy
  obtain ⟨entries, _, g₁, _, hentries, hy₁, -⟩ := Work.yields_bind.1 hy
  obtain ⟨durings, _, g₂, _, hdurings, hy₂, -⟩ := Work.yields_bind.1 hy₁
  obtain ⟨exits, _, g₃, _, hexits, hy₃, -⟩ := Work.yields_bind.1 hy₂
  rw [Work.yields_modify_bind, Work.yields_get_bind] at hy₃
  obtain ⟨-, rfl⟩ := Work.yields_note.1 hy₃
  obtain ⟨he, h₁, hs₁, ht₁⟩ := h.collect (stateField_eq State.entry) hentries
  obtain ⟨hd, h₂, hs₂, ht₂⟩ := h₁.collect (stateField_eq State.during) hdurings
  obtain ⟨hx, h₃, hs₃, ht₃⟩ := h₂.collect (stateField_eq State.exit) hexits
  refine ⟨?_, ht₃.trans (ht₂.trans ht₁), _, states_served he hd hx, ?_⟩
  · rw [stateUses, ← List.append_assoc, ← List.append_assoc]
    exact ⟨h₃.names, h₃.made, h₃.declared, h₃.roles, h₃.accepted⟩
  · rw [← hs₁, ← hs₂, ← hs₃]

theorem transitionHooks_yields {us : List Use} {g g' : Generator} {u : Unit} {j : Journal}
    (h : Tracks c us g) (hy : (transitionHooks c).Yields g u j g') :
    Tracks c (us ++ transitionUses c) g' ∧ g'.out.states = g.out.states ∧
      ∃ ps, List.Forall₂ (TransitionServed c) c.enabledTransitions ps ∧
        g'.out.transitions = Callbacks.insertAll ps g.out.transitions := by
  rw [transitionHooks] at hy
  obtain ⟨guards, _, g₁, _, hguards, hy₁, -⟩ := Work.yields_bind.1 hy
  obtain ⟨actions, _, g₂, _, hactions, hy₂, -⟩ := Work.yields_bind.1 hy₁
  rw [Work.yields_modify_bind, Work.yields_get_bind] at hy₂
  obtain ⟨-, rfl⟩ := Work.yields_note.1 hy₂
  obtain ⟨hg, h₁, hs₁, ht₁⟩ := h.collect (transitionField_eq .guard Transition.guard) hguards
  obtain ⟨ha, h₂, hs₂, ht₂⟩ := h₁.collect (transitionField_eq .action Transition.action) hactions
  refine ⟨?_, hs₂.trans hs₁, _, transitions_served hg ha, ?_⟩
  · rw [transitionUses, ← List.append_assoc]
    exact ⟨h₂.names, h₂.made, h₂.declared, h₂.roles, h₂.accepted⟩
  · rw [← ht₁, ← ht₂]

/-- If the hook names a routine, exactly one has that name, and it has the given role. -/
def HasRoutine (k : Callbacks) (role : Role) (hook : Hook) : Prop :=
  ∀ name, hook = .named name →
    ∃ r, k.routines.filter (fun r => r.name = name) = [r] ∧ r.role = role

structure Closed (c : Chart) (k : Callbacks) : Prop where
  states : ∀ s ∈ c.states, (k.states.lookup s.name).isSome = true ↔ s.disabled = false
  transitions : ∀ t ∈ c.transitions,
    (k.transitions.lookup t.name).isSome = true ↔ t.disabled = false
  state_fields : List.Forall₂ (StateServed c) c.enabledStates k.states
  transition_fields : List.Forall₂ (TransitionServed c) c.enabledTransitions k.transitions
  state_hooks : ∀ p ∈ k.states, HasRoutine k .action p.2.entry ∧
    HasRoutine k .action p.2.during ∧ HasRoutine k .action p.2.exit
  transition_hooks : ∀ p ∈ k.transitions,
    HasRoutine k .guard p.2.guard ∧ HasRoutine k .action p.2.action
  distinct : (k.routines.map Routine.name).Nodup
  used : ∀ r ∈ k.routines,
    (∃ p ∈ k.states, .named r.name ∈ [p.2.entry, p.2.during, p.2.exit]) ∨
      ∃ p ∈ k.transitions, .named r.name ∈ [p.2.guard, p.2.action]
  names : k.routines.map Routine.name = ((uses c).filterMap (Use.name? c)).eraseDups
  made : ∀ r ∈ k.routines, MadeAtFirstUse c (uses c) r

theorem Tracks.hasRoutine {us : List Use} {g : Generator} (h : Tracks c us g) {u : Use}
    (hu : u ∈ us) {hook : Hook} (hrefers : Refers c u hook) : HasRoutine g.out u.role hook := by
  intro name hname
  obtain ⟨r, hr, rfl, hrole⟩ := h.roles u hu name ((hrefers name).1 hname)
  exact ⟨r, filter_eq_singleton h.nodup hr, hrole⟩

theorem hook_of_use {k : Callbacks} (hs : List.Forall₂ (StateServed c) c.enabledStates k.states)
    (ht : List.Forall₂ (TransitionServed c) c.enabledTransitions k.transitions) {u : Use}
    (hu : u ∈ uses c) {name : String} (hname : u.name? c = some name) :
    (∃ p ∈ k.states, .named name ∈ [p.2.entry, p.2.during, p.2.exit]) ∨
      ∃ p ∈ k.transitions, .named name ∈ [p.2.guard, p.2.action] := by
  rcases mem_uses.1 hu with ⟨s, hmem, hfield⟩ | ⟨t, hmem, hfield⟩
  · obtain ⟨p, hp, hserved⟩ := forall₂_exists_right hs hmem
    refine .inl ⟨p, hp, ?_⟩
    rcases hfield with rfl | rfl | rfl
    · simp [(hserved.entry name).2 hname]
    · simp [(hserved.during name).2 hname]
    · simp [(hserved.exit name).2 hname]
  · obtain ⟨p, hp, hserved⟩ := forall₂_exists_right ht hmem
    refine .inr ⟨p, hp, ?_⟩
    rcases hfield with rfl | rfl
    · simp [(hserved.guard name).2 hname]
    · simp [(hserved.action name).2 hname]

theorem isSome_lookup_iff_enabled {α β : Type} {name : α → String} {disabled : α → Bool}
    {as : List α} {ps : List (String × β)} (hnames : (as.map name).Nodup)
    (hps : ps.map Prod.fst = (as.filter (!disabled ·)).map name) {a : α} (ha : a ∈ as) :
    (ps.lookup (name a)).isSome = true ↔ disabled a = false := by
  rw [isSome_lookup, hps, List.mem_map]
  constructor
  · rintro ⟨b, hb, hname⟩
    obtain ⟨hmem, he⟩ := List.mem_filter.1 hb
    obtain rfl : b = a := List.inj_on_of_nodup_map hnames hmem ha hname
    simpa using he
  · intro he
    exact ⟨a, List.mem_filter.2 ⟨ha, by simpa using he⟩, rfl⟩

theorem Tracks.closed {g : Generator} (h : Tracks c (uses c) g)
    (hstates : (c.states.map State.name).Nodup)
    (htransitions : (c.transitions.map Transition.name).Nodup)
    (hs : List.Forall₂ (StateServed c) c.enabledStates g.out.states)
    (ht : List.Forall₂ (TransitionServed c) c.enabledTransitions g.out.transitions) :
    Closed c g.out where
  states := fun s hmem => isSome_lookup_iff_enabled hstates (forall₂_map_eq hs StateServed.name) hmem
  transitions := fun t hmem =>
    isSome_lookup_iff_enabled htransitions (forall₂_map_eq ht TransitionServed.name) hmem
  state_fields := hs
  transition_fields := ht
  state_hooks := by
    intro p hp
    obtain ⟨s, hmem, hserved⟩ := forall₂_exists_left hs hp
    have huse : ∀ u, _ → u ∈ uses c := fun u hu => mem_uses.2 (.inl ⟨s, hmem, hu⟩)
    exact ⟨h.hasRoutine (huse _ (.inl rfl)) hserved.entry,
      h.hasRoutine (huse _ (.inr (.inl rfl))) hserved.during,
      h.hasRoutine (huse _ (.inr (.inr rfl))) hserved.exit⟩
  transition_hooks := by
    intro p hp
    obtain ⟨t, hmem, hserved⟩ := forall₂_exists_left ht hp
    have huse : ∀ u, _ → u ∈ uses c := fun u hu => mem_uses.2 (.inr ⟨t, hmem, hu⟩)
    exact ⟨h.hasRoutine (huse _ (.inl rfl)) hserved.guard,
      h.hasRoutine (huse _ (.inr rfl)) hserved.action⟩
  distinct := h.nodup
  used := by
    intro r hr
    obtain ⟨u, ⟨before, after, hsplit, hname, -⟩, -⟩ := h.made r hr
    exact hook_of_use hs ht (by simp [hsplit]) hname
  names := h.names
  made := h.made

theorem insertAll_enabled {α β : Type} {name : α → String} {enabled : α → Bool} {as : List α}
    {ps : List (String × β)} (hnames : (as.map name).Nodup)
    (hps : ps.map Prod.fst = (as.filter enabled).map name) : Callbacks.insertAll ps [] = ps := by
  rw [insertAll_of_nodup, List.nil_append]
  rw [List.nil_append, hps]
  exact hnames.sublist (List.filter_sublist.map name)

theorem closed_of_yields (hstates : (c.states.map State.name).Nodup)
    (htransitions : (c.transitions.map Transition.name).Nodup) {g g' : Generator} {u u' : Unit}
    {j j' : Journal} (hfirst : (stateHooks c).Yields (resume {}) u j g)
    (hsecond : (transitionHooks c).Yields (resume g.out) u' j' g') : Closed c g'.out := by
  obtain ⟨h₁, hkeep₁, ps, hps, hs⟩ := stateHooks_yields (Tracks.empty c) hfirst
  obtain ⟨h₂, hkeep₂, qs, hqs, ht⟩ := transitionHooks_yields h₁.resume hsecond
  have hps' : g'.out.states = ps := by
    rw [hkeep₂, resume, hs]
    exact insertAll_enabled hstates (forall₂_map_eq hps StateServed.name)
  have hqs' : g'.out.transitions = qs := by
    rw [ht, resume, hkeep₁]
    exact insertAll_enabled htransitions (forall₂_map_eq hqs TransitionServed.name)
  exact h₂.closed hstates htransitions (hps' ▸ hps) (hqs' ▸ hqs)

end

open Validation

/-- The callbacks of a validated chart, made in two runs of which the second goes on from the first,
belong to the chart. -/
theorem generated_closed {c : Chart} (hc : Validated c)
    (hstates : (stateHooks c (resume {})).result = .ok ())
    (htransitions : (transitionHooks c
      (resume (stateHooks c (resume {})).state.out)).result = .ok ()) :
    Closed c (transitionHooks c (resume (stateHooks c (resume {})).state.out)).state.out :=
  closed_of_yields hc.states_nodup hc.transitions_nodup (Work.yields_of_result hstates)
    (Work.yields_of_result htransitions)

def flareLines : List String :=
  ["[STATECHART]", "name: Flare", "[OPTIONS]",
    "[EVENTS_1]", "name: Key", "base: 1", "event_1: press",
    "[STATE_1]", "name: Idle", "parent: None", "type: State",
    "entry: [flash(), press, 7]", "do: None", "exit: flash",
    "[TRANSITION_1]", "start: Start", "end: Idle", "event: None", "guard: ready",
    "action: [flash(), press]"]

/-- A flare uses one name three times, with a body of its own where it is used first. -/
def flare : Chart where
  name := "Flare"
  states :=
    [⟨"STATE_1", "Idle", none, .simple, .structured "flash" ["press, 7"], .absent, .bare "flash",
      false⟩]
  groups := [⟨"EVENTS_1", "Key", some 1, ["press"], []⟩]
  transitions :=
    [⟨"TRANSITION_1", .start, .state "Idle", none, .bare "ready", .structured "flash" ["press"],
      false⟩]

theorem flare_read :
    (Chart.read "flare" (Text.unlines flareLines) ⟨""⟩ lampFiles ()).result = .ok flare :=
  Chart.read_unlines (by repeat constructor) (by decide +kernel) (by decide +kernel)

theorem flare_validated : Validated (all flare).state :=
  ⟨"flare", _, _, _, flare, flare_read, ok_of_toOption (by decide +kernel), rfl⟩

theorem flare_generated_closed :
    Validated (all flare).state ∧ (stateHooks (all flare).state (resume {})).result = .ok () ∧
      (transitionHooks (all flare).state
        (resume (stateHooks (all flare).state (resume {})).state.out)).result = .ok () ∧
      Closed (all flare).state (transitionHooks (all flare).state
        (resume (stateHooks (all flare).state (resume {})).state.out)).state.out ∧
      (transitionHooks (all flare).state
        (resume (stateHooks (all flare).state (resume {})).state.out)).state.out.routines.map
          (fun r => (r.name, r.role, r.body.flatMap Statement.tokens)) =
        [("flash", .action, [.ident "param", .punct '.' false, .ident "send_event",
            .group .paren [.ident "Key", .punct ':' true, .punct ':' false, .ident "press",
              .punct ',' false, .ident "Some",
              .group .paren [.ident "EventData", .punct ':' true, .punct ':' false, .ident "from",
                .group .paren [.literal "7"]]],
            .punct ';' false]),
          ("do_nothing", .action, []), ("ready", .guard, [])] := by
  have hstates : (stateHooks (all flare).state (resume {})).result = .ok () :=
    ok_of_toOption (by decide +kernel)
  have htransitions : (transitionHooks (all flare).state
      (resume (stateHooks (all flare).state (resume {})).state.out)).result = .ok () :=
    ok_of_toOption (by decide +kernel)
  exact ⟨flare_validated, hstates, htransitions,
    generated_closed flare_validated hstates htransitions, by decide +kernel⟩

end Statechart.Generator
