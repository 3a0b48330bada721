import Statechart.Proofs.Compile.Stages
import Statechart.Proofs.Module.Faithful

/-!
What a constructor holds.

There is one call for each enabled state and, after those, one for each enabled transition. Among
the transitions stand the starts, each right before the first transition that leaves it, and the
end.
-/
set_option autoImplicit false

namespace Statechart.Module

open Target

inductive Task where
  | state
  | start
  | stop
  | link
  deriving DecidableEq, Repr

def Instruction.task : Instruction → Task
  | addState .. => .state
  | startState .. => .start
  | endState .. => .stop
  | addTransition .. => .link

def Part.task : Part → Task
  | state _ => .state
  | start _ => .start
  | stop => .stop
  | link _ => .link

def Task.among (task : Task) (is : List Instruction) : List Instruction :=
  is.filter fun i => i.task = task

def Task.parts (task : Task) (ps : List Part) : List Part :=
  ps.filter fun p => p.task = task

namespace Task

@[simp]
theorem parts_append (task : Task) (ps qs : List Part) :
    task.parts (ps ++ qs) = task.parts ps ++ task.parts qs :=
  List.filter_append ps qs

theorem parts_eq_nil {task : Task} {ps : List Part} (h : ∀ p ∈ ps, p.task ≠ task) :
    task.parts ps = [] :=
  List.filter_eq_nil_iff.2 (by simpa using h)

theorem tells {c : Chart} {callbacks : Callbacks} {ps : List Part} {is : List Instruction}
    (task : Task) (h : List.Forall₂ (Tells c callbacks) ps is) :
    List.Forall₂ (Tells c callbacks) (task.parts ps) (task.among is) := by
  refine List.rel_filter ?_ h
  rintro p i ⟨w, hw, hi⟩
  cases hw <;> cases hi <;> rfl

theorem parts_start (ps : List Part) :
    start.parts ps = (ps.filterMap Part.start?).map .start := by
  induction ps with
  | nil => rfl
  | cons p ps ih =>
    rw [List.filterMap_cons]
    cases p with
    | start parent => exact congrArg (.start parent :: ·) ih
    | _ => exact ih

end Task

section

variable {c : Chart} {callbacks : Callbacks}

theorem freshStart_task {before : List Transition} {t : Transition} {p : Part}
    (h : p ∈ freshStart c before t) : p.task = .start := by
  rw [freshStart] at h
  split at h
  · split at h
    · cases h
    · obtain rfl := List.mem_singleton.1 h
      rfl
  · cases h

theorem freshStop_task {before : List Transition} {t : Transition} {p : Part}
    (h : p ∈ freshStop before t) : p.task = .stop := by
  rw [freshStop] at h
  split at h
  · obtain rfl := List.mem_singleton.1 h
    rfl
  · cases h

theorem links_snoc (ts : List Transition) (t : Transition) :
    links c [] (ts ++ [t]) =
      links c [] ts ++ freshStart c ts t ++ freshStop ts t ++ [.link t] := by
  simp [links_append, links]

theorem link_parts_links (ts : List Transition) :
    Task.link.parts (links c [] ts) = ts.map .link := by
  induction ts using List.reverseRecOn with
  | nil => rfl
  | append_singleton ts t ih =>
    have hstart : Task.link.parts (freshStart c ts t) = [] :=
      Task.parts_eq_nil fun p hp => by simp [freshStart_task hp]
    have hstop : Task.link.parts (freshStop ts t) = [] :=
      Task.parts_eq_nil fun p hp => by simp [freshStop_task hp]
    have hlink : Task.link.parts [.link t] = [.link t] := rfl
    simp [links_snoc, ih, hstart, hstop, hlink]

theorem stop_parts_links (ts : List Transition) :
    Task.stop.parts (links c [] ts) = if ∃ t ∈ ts, t.target = .stop then [.stop] else [] := by
  induction ts using List.reverseRecOn with
  | nil => rfl
  | append_singleton ts t ih =>
    have hstart : Task.stop.parts (freshStart c ts t) = [] :=
      Task.parts_eq_nil fun p hp => by simp [freshStart_task hp]
    have hlink : Task.stop.parts [.link t] = [] := rfl
    rw [links_snoc, Task.parts_append, Task.parts_append, Task.parts_append, ih, hstart, hlink,
      List.append_nil, List.append_nil, freshStop]
    by_cases hold : ∃ u ∈ ts, u.target = .stop
    · have hnew : ∃ u ∈ ts ++ [t], u.target = .stop := by
        obtain ⟨u, hu, hstop⟩ := hold
        exact ⟨u, List.mem_append_left _ hu, hstop⟩
      rw [if_pos hold, if_pos hnew, if_neg]
      · rfl
      · rintro ⟨-, hnone⟩
        obtain ⟨u, hu, hstop⟩ := hold
        exact hnone u hu hstop
    · have hnone : ∀ u ∈ ts, u.target ≠ .stop := fun u hu hstop => hold ⟨u, hu, hstop⟩
      rw [if_neg hold]
      by_cases ht : t.target = .stop
      · rw [if_pos ⟨ht, hnone⟩, if_pos ⟨t, by simp, ht⟩]
        rfl
      · rw [if_neg (fun h => ht h.1), if_neg]
        · rfl
        · rintro ⟨u, hu, hstop⟩
          rcases List.mem_append.1 hu with hu | hu
          · exact hnone u hu hstop
          · obtain rfl := List.mem_singleton.1 hu
            exact ht hstop

theorem start_parts_links (ts : List Transition) :
    Task.start.parts (links c [] ts) = (startParents c ts).map .start := by
  rw [Task.parts_start, starts_of_links]

theorem state_parts_links (ts : List Transition) : Task.state.parts (links c [] ts) = [] := by
  refine Task.parts_eq_nil ?_
  intro p hp htask
  cases p with
  | state s => exact state_not_mem_links [] ts s hp
  | _ => cases htask

/-- A call stands right before that of a transition, and after those of the transitions before. -/
def RightBefore (c : Chart) (callbacks : Callbacks) (block : List Instruction) (i : Instruction)
    (before : List Transition) (t : Transition) : Prop :=
  ∃ earlier link later, block = earlier ++ i :: link :: later ∧ Tells c callbacks (.link t) link ∧
    List.Forall₂ (Tells c callbacks) (before.map .link) (Task.link.among earlier)

theorem rightBefore_of_links {before after : List Transition} {t : Transition}
    (fresh : List Part) {p : Part} {block : List Instruction}
    (htells : List.Forall₂ (Tells c callbacks) (links c [] (before ++ t :: after)) block)
    (hfresh : freshStart c before t ++ freshStop before t = fresh ++ [p])
    (hlink : Task.link.parts fresh = []) :
    ∃ i, Tells c callbacks p i ∧ RightBefore c callbacks block i before t := by
  have hlinks : links c [] (before ++ t :: after) =
      (links c [] before ++ fresh) ++ p :: .link t :: links c (before ++ [t]) after := by
    rw [links_append, List.nil_append, links, hfresh]
    simp
  -- the place of the part is the place of its call
  rw [hlinks] at htells
  obtain ⟨earlier, i, rest, rfl, hearlier, hi, hrest⟩ := forall₂_append_cons_left htells
  cases hrest with
  | cons hlinked _ =>
    refine ⟨i, hi, earlier, _, _, rfl, hlinked, ?_⟩
    have h := Task.link.tells hearlier
    rwa [Task.parts_append, link_parts_links, hlink, List.append_nil] at h

/-- A start stands right before the first transition that leaves it. -/
theorem start_rightBefore {before after : List Transition} {t : Transition}
    {parent : Option String} {block : List Instruction}
    (htells : List.Forall₂ (Tells c callbacks) (links c [] (before ++ t :: after)) block)
    (hparent : startParent? c t = some parent)
    (hnew : parent ∉ before.filterMap (startParent? c)) :
    RightBefore c callbacks block
      (.startState (startIdent parent).text (homeIdent parent).text) before t := by
  have htarget : t.target ≠ .stop := by
    intro h
    simp [startParent?, h, Endpoint.state?] at hparent
  have hstop : freshStop before t = [] := if_neg fun h => htarget h.1
  have hstart : freshStart c before t = [.start parent] := by simp [freshStart, hparent, hnew]
  obtain ⟨i, hi, hplace⟩ := rightBefore_of_links [] htells (by rw [hstart, hstop]; rfl) rfl
  exact hi.start_eq ▸ hplace

theorem end_rightBefore {before after : List Transition} {t : Transition} {block : List Instruction}
    (htells : List.Forall₂ (Tells c callbacks) (links c [] (before ++ t :: after)) block)
    (htarget : t.target = .stop) (hnew : ∀ u ∈ before, u.target ≠ .stop) :
    RightBefore c callbacks block (.endState "end") before t := by
  have hstop : freshStop before t = [.stop] := if_pos ⟨htarget, hnew⟩
  obtain ⟨i, hi, hplace⟩ := rightBefore_of_links _ htells (by rw [hstop])
    (Task.parts_eq_nil fun p hp => by simp [freshStart_task hp])
  exact hi.stop_eq ▸ hplace

/-- What the calls for the states and those after them are. -/
structure Inventory (c : Chart) (callbacks : Callbacks) (states block : List Instruction) :
    Prop where
  /-- The states that are ordered are the enabled ones, each once. -/
  ordered : (parentFirst c).Perm c.enabledStates
  /-- Each of them is added, in this order. -/
  added : List.Forall₂ (Tells c callbacks) ((parentFirst c).map .state) states
  /-- No state is added among the transitions. -/
  all_added : Task.state.among block = []
  /-- Each enabled transition is added, in the order of the chart. -/
  linked : List.Forall₂ (Tells c callbacks) (c.enabledTransitions.map .link)
    (Task.link.among block)
  /-- There is one start for each parent in which some enabled transition starts. -/
  starts : Task.start.among block = (startParents c c.enabledTransitions).map fun parent =>
    .startState (startIdent parent).text (homeIdent parent).text
  parents_nodup : (startParents c c.enabledTransitions).Nodup
  mem_parents : ∀ parent, parent ∈ startParents c c.enabledTransitions ↔
    ∃ t ∈ c.enabledTransitions, t.source = .start ∧
      ∃ x ∈ c.states, t.target = .state x.name ∧ x.parent = parent
  start_placed : ∀ before t after parent, c.enabledTransitions = before ++ t :: after →
    startParent? c t = some parent → parent ∉ before.filterMap (startParent? c) →
      RightBefore c callbacks block
        (.startState (startIdent parent).text (homeIdent parent).text) before t
  /-- There is an end if some enabled transition leads to it, and else none. -/
  stops : Task.stop.among block =
    if ∃ t ∈ c.enabledTransitions, t.target = .stop then [.endState "end"] else []
  stop_placed : ∀ before t after, c.enabledTransitions = before ++ t :: after →
    t.target = .stop → (∀ u ∈ before, u.target ≠ .stop) →
      RightBefore c callbacks block (.endState "end") before t

theorem starts_eq_of_tells {parents : List (Option String)} {is : List Instruction}
    (h : List.Forall₂ (Tells c callbacks) (parents.map .start) is) :
    is = parents.map fun parent =>
      .startState (startIdent parent).text (homeIdent parent).text := by
  induction parents generalizing is with
  | nil =>
    cases h
    rfl
  | cons parent parents ih =>
    cases h with
    | cons hi hrest => rw [hi.start_eq, ih hrest, List.map_cons]

theorem inventory_of_tells (hc : Validation.Validated c) {states block : List Instruction}
    (hstates : List.Forall₂ (Tells c callbacks) ((parentFirst c).map .state) states)
    (hblock : List.Forall₂ (Tells c callbacks) (links c [] c.enabledTransitions) block) :
    Inventory c callbacks states block where
  ordered := parentFirst_perm hc.states_nodup (hc.consistent.rooted hc.states_nodup)
  added := hstates
  all_added := by
    have h := Task.state.tells hblock
    rw [state_parts_links] at h
    exact List.forall₂_nil_left_iff.1 h
  linked := by
    have h := Task.link.tells hblock
    rwa [link_parts_links] at h
  starts := by
    have h := Task.start.tells hblock
    rw [start_parts_links] at h
    exact starts_eq_of_tells h
  parents_nodup := nodup_eraseDups _
  mem_parents := by
    intro parent
    simp only [startParents, List.mem_eraseDups, List.mem_filterMap,
      startParent?_eq_some hc.states_nodup]
  start_placed := by
    intro before t after parent hts hparent hnew
    exact start_rightBefore (hts ▸ hblock) hparent hnew
  stops := by
    have h := Task.stop.tells hblock
    rw [stop_parts_links] at h
    split at h
    · obtain ⟨i, rest, hi, hrest, heq⟩ := List.forall₂_cons_left_iff.1 h
      rw [heq, hi.stop_eq, List.forall₂_nil_left_iff.1 hrest, if_pos ‹_›]
    · rw [List.forall₂_nil_left_iff.1 h, if_neg ‹_›]
  stop_placed := by
    intro before t after hts htarget hnew
    exact end_rightBefore (hts ▸ hblock) htarget hnew

end

/-- The body of the constructor of a validated chart is made of the calls of its inventory. -/
theorem buildStatechart_inventory {c : Chart} {callbacks : Callbacks} {chart : Ident}
    {tokens : List Token} (hc : Validation.Validated c)
    (hbuild : buildStatechart c callbacks chart = .ok tokens) :
    ∃ states block, instructions? chart.text tokens = some (states ++ block) ∧
      Inventory c callbacks states block := by
  obtain ⟨is, hread, htells⟩ := exists_tells hbuild
  obtain ⟨states, block, rfl, hstates, hblock⟩ := forall₂_append_left.1 htells
  exact ⟨states, block, hread, inventory_of_tells hc hstates hblock⟩

open Validation

/-- A kiln, with a state that stands before its parent, one that is disabled, two starts and an end
that is also left. -/
def kilnLines : List String :=
  ["[STATECHART]", "name = Kiln", "[OPTIONS]",
    "[EVENTS_1]", "name = Key", "base = 1", "event_1 = press", "event_2 = cool",
    "[STATE_1]", "name = Warm", "parent = Oven", "type = State",
    "entry = glow", "do = None", "exit = None",
    "[STATE_2]", "name = Oven", "parent = None", "type = HierarchicalState",
    "entry = None", "do = None", "exit = None",
    "[STATE_3]", "name = Spare", "parent = None", "type = State",
    "entry = None", "do = None", "exit = None", "disable = 1",
    "[TRANSITION_1]", "start = Start", "end = Warm", "event = None", "guard = None",
    "action = None",
    "[TRANSITION_2]", "start = Start", "end = Oven", "event = None", "guard = None",
    "action = None",
    "[TRANSITION_3]", "start = Oven", "end = End", "event = press", "guard = None",
    "action = None",
    "[TRANSITION_4]", "start = End", "end = Oven", "event = cool", "guard = None",
    "action = None",
    "[TRANSITION_5]", "start = Warm", "end = Spare", "event = press", "guard = None",
    "action = None"]

def kiln : Chart where
  name := "Kiln"
  states :=
    [⟨"STATE_1", "Warm", some "Oven", .simple, .bare "glow", .absent, .absent, false⟩,
      ⟨"STATE_2", "Oven", none, .hierarchical, .absent, .absent, .absent, false⟩,
      ⟨"STATE_3", "Spare", none, .simple, .absent, .absent, .absent, true⟩]
  groups := [⟨"EVENTS_1", "Key", some 1, ["press", "cool"], []⟩]
  transitions :=
    [⟨"TRANSITION_1", .start, .state "Warm", none, .absent, .absent, false⟩,
      ⟨"TRANSITION_2", .start, .state "Oven", none, .absent, .absent, false⟩,
      ⟨"TRANSITION_3", .state "Oven", .stop, some "press", .absent, .absent, false⟩,
      ⟨"TRANSITION_4", .stop, .state "Oven", some "cool", .absent, .absent, false⟩,
      ⟨"TRANSITION_5", .state "Warm", .state "Spare", some "press", .absent, .absent, false⟩]

theorem kiln_read :
    (Chart.read "kiln" (Text.unlines kilnLines) ⟨""⟩ (fun _ => .error .notFound) ()).result =
      .ok kiln :=
  Chart.read_unlines (by repeat constructor) (by decide +kernel) (by decide +kernel)

theorem kiln_passes : (all kiln).result = .ok () :=
  ok_of_toOption (by decide +kernel)

theorem kiln_validated : Validated (all kiln).state :=
  ⟨"kiln", _, _, _, kiln, kiln_read, kiln_passes, rfl⟩

theorem kiln_hooks : (Generator.stateHooks (all kiln).state (Generator.resume {})).result = .ok () ∧
    (Generator.transitionHooks (all kiln).state (Generator.resume
      (Generator.stateHooks (all kiln).state (Generator.resume {})).state.out)).result = .ok () :=
  ⟨ok_of_toOption (by decide +kernel), ok_of_toOption (by decide +kernel)⟩

theorem kiln_builds : ∃ tokens, buildStatechart (all kiln).state (Run.hooksOf (all kiln).state)
    ⟨false, "Kiln"⟩ = .ok tokens :=
  exists_of_toOption (by decide +kernel)

theorem kiln_inventory : Validated (all kiln).state ∧
    ∃ tokens, buildStatechart (all kiln).state (Run.hooksOf (all kiln).state) ⟨false, "Kiln"⟩ =
        .ok tokens ∧
      ∃ states block, instructions? "Kiln" tokens = some (states ++ block) ∧
        Inventory (all kiln).state (Run.hooksOf (all kiln).state) states block := by
  obtain ⟨tokens, htokens⟩ := kiln_builds
  exact ⟨kiln_validated, tokens, htokens, buildStatechart_inventory kiln_validated htokens⟩

end Statechart.Module
