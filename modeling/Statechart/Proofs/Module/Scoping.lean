import Statechart.Proofs.Module.Inventory

/-!
Variables that are bound before they are used.

A call takes handles from variables. These are the root or were bound by an earlier call, with
one exception. The end is bound where a transition first leads to it, so a transition that leaves it
before that has a source that is not bound.
-/
set_option autoImplicit false

namespace Statechart.Module

open Target

def Instruction.uses : Instruction → List String
  | addState _ parent _ _ _ => [parent]
  | startState _ owner => [owner]
  | endState _ => []
  | addTransition source target _ _ => [source, target]

def handles (is : List Instruction) : List String :=
  "top" :: is.filterMap Instruction.binding?

def BoundBefore (sp : Spelling) (is : List Instruction) : Prop :=
  ∀ before i after, is = before ++ i :: after →
    ∀ v ∈ i.uses, sp.form v ∈ (handles before).map sp.form

/-- A transition leaves the end, and none up to it has led there. -/
structure Stray (before : List Transition) (t : Transition) : Prop where
  source : t.source = .stop
  unended : ∀ u ∈ before ++ [t], u.target ≠ .stop

def Part.uses (c : Chart) : Part → List Ident
  | state s => [homeIdent s.parent]
  | start parent => [homeIdent parent]
  | stop => []
  | link t => [sourceIdent c t, targetIdent t]

def partHandles (ps : List Part) : List Ident :=
  topName :: ps.filterMap Part.binding?

section

variable {sp : Spelling} {c : Chart} {callbacks : Callbacks}

theorem Tells.uses_eq {p : Part} {i : Instruction} (h : Tells c callbacks p i) :
    i.uses = (p.uses c).map Ident.text := by
  obtain ⟨w, hw, hi⟩ := h
  cases hw <;> cases hi <;> rfl

theorem handles_eq {ps : List Part} {is : List Instruction}
    (h : List.Forall₂ (Tells c callbacks) ps is) :
    handles is = (partHandles ps).map Ident.text := by
  have hbindings : is.filterMap Instruction.binding? =
      (ps.filterMap Part.binding?).map Ident.text := by
    rw [List.map_filterMap]
    induction h with
    | nil => rfl
    | cons hp _ ih => simp only [List.filterMap_cons, hp.binding_eq, ih]
  rw [handles, partHandles, hbindings]
  rfl

theorem forms_eq {ps : List Part} {is : List Instruction}
    (h : List.Forall₂ (Tells c callbacks) ps is) :
    (handles is).map sp.form = (partHandles ps).map sp.key := by
  rw [handles_eq h, List.map_map]
  rfl

theorem outline_place {b a : List Part} {p : Part} (h : outline c = b ++ p :: a) :
    (∃ before s after, parentFirst c = before ++ s :: after ∧ p = .state s ∧
        b = before.map .state) ∨
      ∃ rest, b = (parentFirst c).map .state ++ rest ∧
        links c [] c.enabledTransitions = rest ++ p :: a := by
  rcases append_eq_append_cons.1 h with ⟨rest, hstates, -⟩ | hlinks
  · obtain ⟨before, later, horder, rfl, hlater⟩ := List.map_eq_append_iff.1 hstates
    obtain ⟨s, after, rfl, rfl, -⟩ := List.map_eq_cons_iff.1 hlater
    exact .inl ⟨before, s, after, horder, rfl, rfl⟩
  · exact .inr hlinks

theorem links_place {before ts : List Transition} {t : Transition} {r a : List Part}
    (h : links c before ts = r ++ .link t :: a) :
    ∃ b after, ts = b ++ t :: after ∧
      r = links c before b ++ freshStart c (before ++ b) t ++ freshStop (before ++ b) t := by
  induction ts generalizing before r with
  | nil => simp [links] at h
  | cons u ts ih =>
    rw [links, List.append_assoc, List.singleton_append] at h
    rcases append_eq_append_cons.1 h with ⟨rest, hfresh, -⟩ | ⟨rest, rfl, hrest⟩
    · have hmem : Part.link t ∈ freshStart c before u ++ freshStop before u := by simp [hfresh]
      exact absurd hmem (link_not_mem_fresh before u t)
    · cases rest with
      | nil =>
        obtain ⟨hu, rfl⟩ := List.cons_eq_cons.1 hrest
        obtain rfl := Part.link.inj hu
        exact ⟨[], ts, rfl, by simp [links]⟩
      | cons p rest =>
        obtain ⟨rfl, hlinks⟩ := List.cons_eq_cons.1 hrest
        obtain ⟨b, after, rfl, rfl⟩ := ih hlinks
        exact ⟨u :: b, after, rfl, by simp [links]⟩

theorem outline_link_place {b a : List Part} {t : Transition}
    (h : outline c = b ++ .link t :: a) :
    ∃ before after, c.enabledTransitions = before ++ t :: after ∧
      b = (parentFirst c).map .state ++ prelude c before t := by
  rcases outline_place h with ⟨_, s, _, -, hs, -⟩ | ⟨rest, rfl, hlinks⟩
  · cases hs
  · obtain ⟨before, after, hts, rfl⟩ := links_place hlinks
    exact ⟨before, after, hts, by simp [prelude]⟩

theorem mem_partHandles {ps : List Part} {p : Part} {i : Ident} (hp : p ∈ ps)
    (hi : p.binding? = some i) : i ∈ partHandles ps :=
  List.mem_cons_of_mem _ (List.mem_filterMap.2 ⟨p, hp, hi⟩)

theorem state_in_view {name : String} (h : name ∈ (parentFirst c).map State.name)
    (rest : List Part) : stateIdent name ∈ partHandles ((parentFirst c).map .state ++ rest) := by
  obtain ⟨s, hs, rfl⟩ := List.mem_map.1 h
  exact mem_partHandles (List.mem_append_left _ (List.mem_map_of_mem hs)) rfl

theorem start_mem_view {before : List Transition} {t : Transition} {parent : Option String} :
    Part.start parent ∈ (parentFirst c).map .state ++ prelude c before t ↔
      parent ∈ startParents c (before ++ [t]) := by
  rw [← starts_in_view, List.mem_filterMap]
  constructor
  · intro h
    exact ⟨_, h, rfl⟩
  · rintro ⟨p, hp, hparent⟩
    exact start?_eq_some.1 hparent ▸ hp

theorem stop_mem_view {before : List Transition} {t : Transition} :
    Part.stop ∈ (parentFirst c).map .state ++ prelude c before t ↔
      ∃ u ∈ before ++ [t], u.target = .stop := by
  have hlinks : Part.stop ∈ prelude c before t ↔ Part.stop ∈ links c [] (before ++ [t]) := by
    rw [links_snoc, prelude]
    simp
  have hparts : Part.stop ∈ links c [] (before ++ [t]) ↔
      Part.stop ∈ Task.stop.parts (links c [] (before ++ [t])) := by
    simp [Task.parts, Part.task]
  rw [List.mem_append, or_iff_right (by simp), hlinks, hparts, stop_parts_links]
  split <;> simp_all

theorem end_mem_view {before : List Transition} {t u : Transition} (hu : u ∈ before ++ [t])
    (hstop : u.target = .stop) :
    endName ∈ partHandles ((parentFirst c).map .state ++ prelude c before t) :=
  mem_partHandles (stop_mem_view.2 ⟨u, hu, hstop⟩) rfl

/-- The variables that a transition finds: those of the states, of the starts up to it, and the end
if a transition up to it leads there. -/
theorem mem_keys_in_view {before : List Transition} {t : Transition} {v : String} :
    v ∈ ((parentFirst c).map Part.state ++ prelude c before t).filterMap (Part.key? sp) ↔
      (∃ s ∈ parentFirst c, stateKey sp s = v) ∨
      (∃ parent ∈ startParents c (before ++ [t]), startKey sp parent = v) ∨
      ((∃ u ∈ before ++ [t], u.target = .stop) ∧ sp.key endName = v) := by
  rw [List.mem_filterMap]
  constructor
  · rintro ⟨p, hp, hv⟩
    cases p with
    | state s =>
      rcases List.mem_append.1 hp with hs | hs
      · exact .inl ⟨s, by simpa using hs, Option.some.inj hv⟩
      · exact absurd hs (state_not_mem_prelude before t s)
    | start parent => exact .inr (.inl ⟨parent, start_mem_view.1 hp, Option.some.inj hv⟩)
    | stop => exact .inr (.inr ⟨stop_mem_view.1 hp, Option.some.inj hv⟩)
    | link u => cases hv
  · rintro (⟨s, hs, rfl⟩ | ⟨parent, hparent, rfl⟩ | ⟨hstop, rfl⟩)
    · exact ⟨.state s, List.mem_append_left _ (List.mem_map_of_mem hs), rfl⟩
    · exact ⟨.start parent, start_mem_view.2 hparent, rfl⟩
    · exact ⟨.stop, stop_mem_view.2 hstop, rfl⟩

theorem map_key_partHandles (ps : List Part) :
    (partHandles ps).map sp.key = sp.form "top" :: ps.filterMap (Part.key? sp) := by
  rw [partHandles, List.map_cons, List.map_filterMap]
  rfl

theorem end_not_in_view {before : List Transition} {t : Transition} (h : Stray before t) :
    sp.key endName ∉
      (partHandles ((parentFirst c).map .state ++ prelude c before t)).map sp.key := by
  rw [map_key_partHandles, List.mem_cons, mem_keys_in_view]
  rintro (htop | ⟨s, -, hs⟩ | ⟨parent, -, hparent⟩ | ⟨⟨u, hu, hstop⟩, -⟩)
  · exact sp.top_ne.2.2 htop.symm
  · exact sp.state_ne_end s.name hs
  · exact sp.start_ne_end parent hparent
  · exact h.unended u hu hstop

theorem home_bound {ps : List Part} {parent : Option String}
    (h : ∀ p, parent = some p → stateIdent p ∈ partHandles ps) :
    homeIdent parent ∈ partHandles ps := by
  cases parent with
  | none => exact List.mem_cons_self
  | some p => exact h p rfl

theorem source_bound {before : List Transition} {t : Transition}
    (hanchored : Anchored c (parentFirst c) t) (hrouted : Routed c t) :
    sourceIdent c t ∈ partHandles ((parentFirst c).map .state ++ prelude c before t) ∨
      sourceIdent c t = endName ∧ Stray before t := by
  cases hsource : t.source with
  | start =>
    obtain ⟨parent, hparent⟩ := hrouted.start hsource
    have hmem : parent ∈ startParents c (before ++ [t]) :=
      List.mem_eraseDups.2 (List.mem_filterMap.2 ⟨t, by simp, hparent⟩)
    simp only [sourceIdent, hsource, hparent, Option.getD_some]
    exact .inl (mem_partHandles (start_mem_view.2 hmem) rfl)
  | stop =>
    simp only [sourceIdent, hsource, true_and]
    by_cases hended : ∃ u ∈ before ++ [t], u.target = .stop
    · obtain ⟨u, hu, hstop⟩ := hended
      exact .inl (end_mem_view hu hstop)
    · exact .inr ⟨hsource, fun u hu hstop => hended ⟨u, hu, hstop⟩⟩
  | state name =>
    simp only [sourceIdent, hsource]
    exact .inl (state_in_view (hanchored.ends name (.inl hsource)) _)

theorem target_bound {before : List Transition} {t : Transition}
    (hanchored : Anchored c (parentFirst c) t) (hrouted : Routed c t) :
    targetIdent t ∈ partHandles ((parentFirst c).map .state ++ prelude c before t) := by
  cases htarget : t.target with
  | start => exact absurd htarget hrouted.target
  | stop =>
    simp only [targetIdent, htarget]
    exact end_mem_view (List.mem_append_right _ List.mem_cons_self) htarget
  | state name =>
    simp only [targetIdent, htarget]
    exact state_in_view (hanchored.ends name (.inr htarget)) _

/-- Every use is bound but that of the end by a transition that is a stray. -/
theorem uses_bound
    (hroutes : ∀ t ∈ c.enabledTransitions, Anchored c (parentFirst c) t ∧ Routed c t)
    {b a : List Part} {p : Part} (h : outline c = b ++ p :: a) {i : Ident} (hi : i ∈ p.uses c) :
    i ∈ partHandles b ∨ i = endName ∧ ∃ before t after,
      c.enabledTransitions = before ++ t :: after ∧ p = .link t ∧ Stray before t := by
  cases p with
  | state s =>
    obtain rfl := List.mem_singleton.1 hi
    rcases outline_place h with ⟨before, s', after, horder, hs, rfl⟩ | ⟨rest, -, hlinks⟩
    · obtain rfl := Part.state.inj hs
      refine .inl (home_bound fun p hp => ?_)
      obtain ⟨q, hq, rfl⟩ := List.mem_map.1 (parentFirst_parent horder hp)
      exact mem_partHandles (List.mem_map_of_mem hq) rfl
    · exact absurd (by simp [hlinks]) (state_not_mem_links (c := c) [] c.enabledTransitions s)
  | start parent =>
    obtain rfl := List.mem_singleton.1 hi
    rcases outline_place h with ⟨_, s, _, -, hs, -⟩ | ⟨rest, rfl, hlinks⟩
    · cases hs
    · have hmem : parent ∈ startParents c c.enabledTransitions := by
        rw [← starts_of_links, hlinks]
        simp [Part.start?]
      obtain ⟨t, ht, hparent⟩ := List.mem_filterMap.1 (List.mem_eraseDups.1 hmem)
      refine .inl (home_bound fun p hp => ?_)
      exact state_in_view ((hroutes t ht).1.home p (hp ▸ hparent)) rest
  | stop => cases hi
  | link t =>
    obtain ⟨before, after, hts, rfl⟩ := outline_link_place h
    have ht : t ∈ c.enabledTransitions := by simp [hts]
    simp only [Part.uses, List.mem_cons, List.not_mem_nil, or_false] at hi
    obtain ⟨hanchored, hrouted⟩ := hroutes t ht
    rcases hi with rfl | rfl
    · rcases source_bound hanchored hrouted with hbound | ⟨hend, hstray⟩
      · exact .inl hbound
      · exact .inr ⟨hend, before, t, after, hts, rfl, hstray⟩
    · exact .inl (target_bound hanchored hrouted)

theorem boundBefore_iff {is : List Instruction}
    (htells : List.Forall₂ (Tells c callbacks) (outline c) is)
    (hroutes : ∀ t ∈ c.enabledTransitions, Anchored c (parentFirst c) t ∧ Routed c t) :
    BoundBefore sp is ↔ ∀ before t after, c.enabledTransitions = before ++ t :: after →
      ¬ Stray before t := by
  constructor
  · intro h before t after hts hstray
    -- the call of the stray itself is the one whose source is not bound
    rw [outline_split hts] at htells
    obtain ⟨b, i, a, rfl, hb, hi, -⟩ := forall₂_append_cons_left htells
    have huse : endName.text ∈ i.uses := by
      rw [hi.uses_eq]
      simp [Part.uses, sourceIdent, hstray.source]
    have hbound := h b i a rfl _ huse
    rw [forms_eq hb] at hbound
    exact end_not_in_view hstray hbound
  · rintro h b i a rfl v hv
    obtain ⟨ps, p, qs, houtline, hps, hp, -⟩ := forall₂_append_cons_right htells
    rw [hp.uses_eq] at hv
    obtain ⟨x, hx, rfl⟩ := List.mem_map.1 hv
    rw [forms_eq hps]
    rcases uses_bound hroutes houtline hx with hbound | ⟨-, hstray⟩
    · exact List.mem_map_of_mem hbound
    · obtain ⟨before, t, after, hts, -, hstray⟩ := hstray
      exact absurd hstray (h before t after hts)

end

open Validation

/-- What a constructor takes a handle from was bound before, but for the end where a transition
leaves it to which none has led. -/
theorem bound_before_use_iff (sp : Spelling) {c : Chart} {callbacks : Callbacks} {chart : Ident}
    {tokens : List Token} (hbuild : buildStatechart c callbacks chart = .ok tokens) :
    ∃ is, instructions? chart.text tokens = some is ∧
      (∀ before i after, is = before ++ i :: after → ∀ v ∈ i.uses, v ∉ handles before →
        v = "end" ∧ ∃ b t a, c.enabledTransitions = b ++ t :: a ∧
          Tells c callbacks (.link t) i ∧ Stray b t) ∧
      (BoundBefore sp is ↔ ∀ before t after, c.enabledTransitions = before ++ t :: after →
        ¬ Stray before t) := by
  obtain ⟨is, hread, htells⟩ := exists_tells hbuild
  have hroutes := routes_of_buildStatechart hbuild
  refine ⟨is, hread, ?_, boundBefore_iff htells hroutes⟩
  rintro before i after rfl v hv hfree
  obtain ⟨ps, p, qs, houtline, hps, hp, -⟩ := forall₂_append_cons_right htells
  rw [hp.uses_eq] at hv
  obtain ⟨x, hx, rfl⟩ := List.mem_map.1 hv
  rw [handles_eq hps] at hfree
  have hunbound : x ∉ partHandles ps := fun h => hfree (List.mem_map_of_mem h)
  obtain ⟨rfl, b, t, a, hts, rfl, hstray⟩ :=
    (uses_bound hroutes houtline hx).resolve_left hunbound
  exact ⟨rfl, b, t, a, hts, hp, hstray⟩

theorem kiln_bound_before_use_iff :
    ∃ tokens, buildStatechart (all kiln).state (Run.hooksOf (all kiln).state) ⟨false, "Kiln"⟩ =
        .ok tokens ∧
      ∃ is, instructions? "Kiln" tokens = some is ∧
        (∀ before i after, is = before ++ i :: after → ∀ v ∈ i.uses, v ∉ handles before →
          v = "end" ∧ ∃ b t a, (all kiln).state.enabledTransitions = b ++ t :: a ∧
            Tells (all kiln).state (Run.hooksOf (all kiln).state) (.link t) i ∧ Stray b t) ∧
        (BoundBefore .exact is ↔ ∀ before t after,
          (all kiln).state.enabledTransitions = before ++ t :: after → ¬ Stray before t) := by
  obtain ⟨tokens, htokens⟩ := kiln_builds
  exact ⟨tokens, htokens, bound_before_use_iff .exact htokens⟩

/-- A spark has one state, and an ember is a spark that leaves the end, to which nothing leads. -/
def sparkLines (entry : String) (rest : List String) : List String :=
  ["[STATECHART]", "name = Spark", "[OPTIONS]",
    "[EVENTS_1]", "name = Key", "base = 1", "event_1 = press",
    "[STATE_1]", "name = Idle", "parent = None", "type = State", "entry = " ++ entry, "do = None",
    "exit = None",
    "[TRANSITION_1]", "start = Start", "end = Idle", "event = None", "guard = None",
    "action = None"] ++ rest

def spark (entry : Callback) (rest : List Transition) : Chart where
  name := "Spark"
  states := [⟨"STATE_1", "Idle", none, .simple, entry, .absent, .absent, false⟩]
  groups := [⟨"EVENTS_1", "Key", some 1, ["press"], []⟩]
  transitions := ⟨"TRANSITION_1", .start, .state "Idle", none, .absent, .absent, false⟩ :: rest

def emberLines : List String :=
  sparkLines "None" ["[TRANSITION_2]", "start = End", "end = Idle", "event = press",
    "guard = None", "action = None"]

def ember : Chart :=
  spark .absent [⟨"TRANSITION_2", .stop, .state "Idle", some "press", .absent, .absent, false⟩]

theorem ember_validated : Validated (all ember).state := by
  refine ⟨"ember", Text.unlines emberLines, ⟨""⟩, fun _ => .error .notFound, ember, ?_, ?_, rfl⟩
  · exact Chart.read_unlines (by repeat constructor) (by decide +kernel) (by decide +kernel)
  · exact ok_of_toOption (by decide +kernel)

theorem ember_builds : ∃ tokens, buildStatechart (all ember).state
    (Run.hooksOf (all ember).state) ⟨false, "Spark"⟩ = .ok tokens :=
  exists_of_toOption (by decide +kernel)

theorem ember_transitions : (all ember).state.enabledTransitions =
    [⟨"TRANSITION_1", .start, .state "Idle", none, .absent, .absent, false⟩] ++
      ⟨"TRANSITION_2", .stop, .state "Idle", some "Key.press", .absent, .absent, false⟩ :: [] := by
  decide +kernel

/-- The source of its second transition is not bound. -/
theorem ember_unbound : Validated (all ember).state ∧
    ∃ tokens is, buildStatechart (all ember).state (Run.hooksOf (all ember).state)
        ⟨false, "Spark"⟩ = .ok tokens ∧
      instructions? "Spark" tokens = some is ∧ ∀ sp : Spelling, ¬ BoundBefore sp is := by
  obtain ⟨tokens, htokens⟩ := ember_builds
  obtain ⟨is, hread, htells⟩ := exists_tells htokens
  refine ⟨ember_validated, tokens, is, htokens, hread, ?_⟩
  intro sp h
  have hroutes := routes_of_buildStatechart htokens
  exact (boundBefore_iff htells hroutes).1 h _ _ _ ember_transitions ⟨rfl, by simp⟩

end Statechart.Module
