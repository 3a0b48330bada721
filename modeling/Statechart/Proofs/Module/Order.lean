import Mathlib.Data.List.Perm.Subperm
import Statechart.Module.Constructor
import Statechart.Proofs.Lists
import Statechart.Proofs.Validation.Hierarchy

/-!
The order of states: each enabled state at most once, after its parent.

The rounds end only when one adds nothing, so a state is left out only if its parent is. What is
left out are the states whose way up does not end at the top: it meets a state that is disabled or
unknown, or goes round in a cycle. Where the way up from every enabled state ends at the top, none
is.
-/
set_option autoImplicit false

namespace Statechart.Module

open Validation

def Ready (ordered : List State) (s : State) : Prop :=
  s.name ∉ ordered.map State.name ∧ ∀ p, s.parent = some p → p ∈ ordered.map State.name

theorem takeReady_of_ready {ordered : List State} {s : State} (h : Ready ordered s)
    (ss : List State) : takeReady ordered (s :: ss) = takeReady (ordered ++ [s]) ss := by
  obtain ⟨hnew, hparent⟩ := h
  have hany : (ordered.any fun q => q.name == s.name) = false := by simpa using hnew
  cases hp : s.parent with
  | none => simp [takeReady, hany, hp]
  | some p =>
    have hthere : (ordered.any fun q => q.name == p) = true := by simpa using hparent p hp
    simp [takeReady, hany, hthere, hp]

theorem takeReady_of_not_ready {ordered : List State} {s : State} (h : ¬ Ready ordered s)
    (ss : List State) : takeReady ordered (s :: ss) = takeReady ordered ss := by
  by_cases hnew : s.name ∈ ordered.map State.name
  · have hany : (ordered.any fun q => q.name == s.name) = true := by simpa using hnew
    simp [takeReady, hany]
  · cases hp : s.parent with
    | none => exact absurd ⟨hnew, by simp [hp]⟩ h
    | some p =>
      have hmissing : p ∉ ordered.map State.name := by
        intro hthere
        exact h ⟨hnew, by simpa [hp] using hthere⟩
      have hany : (ordered.any fun q => q.name == p) = false := by simpa using hmissing
      simp [takeReady, hany, hp]

theorem takeReady_append (ordered as bs : List State) :
    takeReady ordered (as ++ bs) = takeReady (takeReady ordered as) bs := by
  induction as generalizing ordered with
  | nil => rfl
  | cons s as ih =>
    by_cases hready : Ready ordered s
    · rw [List.cons_append, takeReady_of_ready hready, takeReady_of_ready hready, ih]
    · rw [List.cons_append, takeReady_of_not_ready hready, takeReady_of_not_ready hready, ih]

theorem exists_added (ordered ss : List State) :
    ∃ added, added.Sublist ss ∧ takeReady ordered ss = ordered ++ added := by
  induction ss generalizing ordered with
  | nil => exact ⟨[], .slnil, by simp [takeReady]⟩
  | cons s ss ih =>
    by_cases hready : Ready ordered s
    · obtain ⟨added, hsub, hadded⟩ := ih (ordered ++ [s])
      refine ⟨s :: added, hsub.cons_cons s, ?_⟩
      rw [takeReady_of_ready hready, hadded, List.append_assoc, List.singleton_append]
    · obtain ⟨added, hsub, hadded⟩ := ih ordered
      exact ⟨added, hsub.cons s, (takeReady_of_not_ready hready ss).trans hadded⟩

theorem takeReady_grows (ordered ss : List State) : ordered <+: takeReady ordered ss := by
  obtain ⟨added, -, hadded⟩ := exists_added ordered ss
  exact ⟨added, hadded.symm⟩

theorem name_mem_takeReady {ordered : List State} {name : String}
    (h : name ∈ ordered.map State.name) (ss : List State) :
    name ∈ (takeReady ordered ss).map State.name :=
  List.map_subset _ (takeReady_grows ordered ss).subset h

/-- A state that is ready when a round begins is there when it ends. -/
theorem name_mem_takeReady_of_ready {ordered ss : List State} {s : State} (hs : s ∈ ss)
    (hparent : ∀ p, s.parent = some p → p ∈ ordered.map State.name) :
    s.name ∈ (takeReady ordered ss).map State.name := by
  obtain ⟨as, bs, rfl⟩ := List.append_of_mem hs
  rw [takeReady_append]
  by_cases hnew : s.name ∈ (takeReady ordered as).map State.name
  · exact name_mem_takeReady hnew _
  · have hready : Ready (takeReady ordered as) s :=
      ⟨hnew, fun p hp => name_mem_takeReady (hparent p hp) as⟩
    rw [takeReady_of_ready hready]
    exact name_mem_takeReady (by simp) bs

theorem takeReady_eq_self {ordered ss : List State}
    (h : (takeReady ordered ss).length = ordered.length) : takeReady ordered ss = ordered :=
  ((takeReady_grows ordered ss).eq_of_length h.symm).symm

/-- What holds of no states, and is kept when a state is added after its parent, holds of states in
order. -/
def AddedInTurn (enabled : List State) (P : List State → Prop) : Prop :=
  ∀ ordered s, P ordered → s ∈ enabled → s.name ∉ ordered.map State.name →
    (∀ p, s.parent = some p → p ∈ ordered.map State.name) → P (ordered ++ [s])

theorem takeReady_invariant {enabled : List State} {P : List State → Prop}
    (hP : AddedInTurn enabled P) {ss ordered : List State} (hss : ∀ s ∈ ss, s ∈ enabled)
    (h : P ordered) : P (takeReady ordered ss) := by
  induction ss generalizing ordered with
  | nil => exact h
  | cons s ss ih =>
    obtain ⟨hs, hss⟩ := List.forall_mem_cons.1 hss
    by_cases hready : Ready ordered s
    · rw [takeReady_of_ready hready]
      exact ih hss (hP ordered s h hs hready.1 hready.2)
    · rw [takeReady_of_not_ready hready]
      exact ih hss h

theorem orderFrom_invariant {enabled : List State} {P : List State → Prop}
    (hP : AddedInTurn enabled P) {rounds : Nat} {ordered : List State} (h : P ordered) :
    P (orderFrom enabled rounds ordered) := by
  induction rounds generalizing ordered with
  | zero => exact h
  | succ rounds ih =>
    simp only [orderFrom]
    split
    · exact h
    · exact ih (takeReady_invariant hP (fun _ hs => hs) h)

theorem parentFirst_invariant {c : Chart} {P : List State → Prop}
    (hP : AddedInTurn c.enabledStates P) (h : P []) : P (parentFirst c) :=
  orderFrom_invariant hP h

def Selected (enabled ordered : List State) : Prop :=
  (ordered.map State.name).Nodup ∧ ∀ s ∈ ordered, s ∈ enabled

theorem selected_nil (enabled : List State) : Selected enabled [] :=
  ⟨by simp, by simp⟩

theorem selected_inTurn (enabled : List State) : AddedInTurn enabled (Selected enabled) := by
  intro ordered s h hs hnew _
  constructor
  · rw [List.map_append, List.nodup_append']
    exact ⟨h.1, by simp, by simpa using hnew⟩
  · exact List.forall_mem_append.2 ⟨h.2, List.forall_mem_singleton.2 hs⟩

theorem Selected.takeReady {enabled ordered : List State} (h : Selected enabled ordered) :
    Selected enabled (takeReady ordered enabled) :=
  takeReady_invariant (selected_inTurn enabled) (fun _ hs => hs) h

theorem Selected.length_le {enabled ordered : List State} (h : Selected enabled ordered) :
    ordered.length ≤ enabled.length := by
  have hsub : ordered.map State.name ⊆ enabled.map State.name := List.map_subset _ h.2
  have hle := (List.subperm_of_subset h.1 hsub).length_le
  simpa using hle

theorem parentFirst_selected (c : Chart) : Selected c.enabledStates (parentFirst c) :=
  parentFirst_invariant (selected_inTurn _) (selected_nil _)

theorem parentFirst_nodup (c : Chart) : ((parentFirst c).map State.name).Nodup :=
  (parentFirst_selected c).1

theorem parentFirst_subset (c : Chart) : ∀ s ∈ parentFirst c, s ∈ c.enabledStates :=
  (parentFirst_selected c).2

theorem parentFirst_parent {c : Chart} {before after : List State} {s : State}
    (h : parentFirst c = before ++ s :: after) {p : String} (hp : s.parent = some p) :
    p ∈ before.map State.name := by
  have hall : ∀ before s after, parentFirst c = before ++ s :: after →
      ∀ p, s.parent = some p → p ∈ before.map State.name := by
    refine parentFirst_invariant (P := fun l => ∀ before s after, l = before ++ s :: after →
      ∀ p, s.parent = some p → p ∈ before.map State.name) ?_ (by simp)
    intro ordered s h _ _ hparent before q after hsplit p hp
    rcases snoc_eq_append_cons.1 hsplit with ⟨-, rfl, rfl⟩ | ⟨rest, -, hordered⟩
    · exact hparent p hp
    · exact h before q rest hordered p hp
  exact hall before s after h p hp

theorem parentFirst_rooted {c : Chart} {s : State} (hs : s ∈ parentFirst c) : Rooted c s := by
  have hall : ∀ s ∈ parentFirst c, s ∈ c.enabledStates ∧ Rooted c s := by
    refine parentFirst_invariant (P := fun l => ∀ s ∈ l, s ∈ c.enabledStates ∧ Rooted c s) ?_
      (by simp)
    intro ordered s h hs _ hparent
    refine List.forall_mem_append.2 ⟨h, List.forall_mem_singleton.2 ⟨hs, ?_⟩⟩
    cases hp : s.parent with
    | none => exact .top hp
    | some p =>
      obtain ⟨q, hq, rfl⟩ := List.mem_map.1 (hparent p hp)
      obtain ⟨henabled, hrooted⟩ := h q hq
      obtain ⟨hmem, he⟩ := Chart.mem_enabledStates.1 henabled
      exact .under hp hmem he hrooted
  exact (hall s hs).2

/-- The loop without a bound: rounds while states are missing, up to one that adds nothing. -/
inductive Rounds (enabled : List State) : List State → List State → Prop where
  | full {ordered : List State} : enabled.length ≤ ordered.length → Rounds enabled ordered ordered
  | idle {ordered : List State} : ordered.length < enabled.length →
      (takeReady ordered enabled).length = ordered.length →
      Rounds enabled ordered (takeReady ordered enabled)
  | again {ordered order : List State} : ordered.length < enabled.length →
      (takeReady ordered enabled).length ≠ ordered.length →
      Rounds enabled (takeReady ordered enabled) order → Rounds enabled ordered order

theorem Rounds.unique {enabled ordered order order' : List State}
    (h : Rounds enabled ordered order) (h' : Rounds enabled ordered order') : order = order' := by
  induction h with
  | full hfull =>
    cases h' with
    | full => rfl
    | idle hmissing => omega
    | again hmissing => omega
  | idle hmissing hidle =>
    cases h' with
    | full hfull => omega
    | idle => rfl
    | again _ hadded => exact absurd hidle hadded
  | again hmissing hadded _ ih =>
    cases h' with
    | full hfull => omega
    | idle _ hidle => exact absurd hidle hadded
    | again _ _ hrest => exact ih hrest

/-- A round that is not the last adds a state, so there are rounds enough. -/
theorem rounds_orderFrom {enabled ordered : List State} {rounds : Nat}
    (h : Selected enabled ordered) (hrounds : enabled.length ≤ ordered.length + rounds) :
    Rounds enabled ordered (orderFrom enabled rounds ordered) := by
  induction rounds generalizing ordered with
  | zero => exact .full hrounds
  | succ rounds ih =>
    have hgrown := (takeReady_grows ordered enabled).length_le
    have hmax := h.takeReady.length_le
    simp only [orderFrom]
    split
    · rename_i hidle
      by_cases hfull : enabled.length ≤ ordered.length
      · exact .full hfull
      · have hlast := Rounds.idle (Nat.lt_of_not_le hfull) hidle
        rwa [takeReady_eq_self hidle] at hlast
    · rename_i hadded
      exact .again (by omega) hadded (ih h.takeReady (by omega))

theorem rounds_parentFirst (c : Chart) : Rounds c.enabledStates [] (parentFirst c) :=
  rounds_orderFrom (selected_nil _) (by simp)

theorem Rounds.settled {enabled ordered order : List State} (h : Rounds enabled ordered order)
    (hs : Selected enabled ordered) : takeReady order enabled = order := by
  induction h with
  | @full ordered hfull =>
    have hgrown := (takeReady_grows ordered enabled).length_le
    have hmax := hs.takeReady.length_le
    exact takeReady_eq_self (by omega)
  | idle _ hidle => rw [takeReady_eq_self hidle, takeReady_eq_self hidle]
  | again _ _ _ ih => exact ih hs.takeReady

theorem parentFirst_closed {c : Chart} {s : State} (hs : s ∈ c.enabledStates)
    (hparent : ∀ p, s.parent = some p → p ∈ (parentFirst c).map State.name) :
    s.name ∈ (parentFirst c).map State.name := by
  have hadded := name_mem_takeReady_of_ready hs hparent
  rwa [(rounds_parentFirst c).settled (selected_nil _)] at hadded

theorem name_mem_parentFirst {c : Chart} {s : State} (hs : s ∈ c.enabledStates)
    (h : Rooted c s) : s.name ∈ (parentFirst c).map State.name := by
  induction h with
  | top hp => exact parentFirst_closed hs (by simp [hp])
  | under hp hmem he _ ih =>
    refine parentFirst_closed hs ?_
    rw [hp]
    rintro _ ⟨⟩
    exact ih (Chart.mem_enabledStates.2 ⟨hmem, he⟩)

theorem mem_of_name_mem {enabled ordered : List State} (hd : (enabled.map State.name).Nodup)
    (hsub : ordered ⊆ enabled) {s : State} (hs : s ∈ enabled)
    (h : s.name ∈ ordered.map State.name) : s ∈ ordered := by
  obtain ⟨q, hq, hname⟩ := List.mem_map.1 h
  obtain rfl : q = s := List.inj_on_of_nodup_map hd (hsub hq) hs hname
  exact hq

theorem mem_parentFirst_iff {c : Chart} (hd : (c.states.map State.name).Nodup) {s : State} :
    s ∈ parentFirst c ↔ s ∈ c.enabledStates ∧ Rooted c s := by
  constructor
  · intro hs
    exact ⟨parentFirst_subset c s hs, parentFirst_rooted hs⟩
  · intro hs
    obtain ⟨hs, hrooted⟩ := hs
    have hnames : (c.enabledStates.map State.name).Nodup :=
      hd.sublist (List.filter_sublist.map State.name)
    exact mem_of_name_mem hnames (parentFirst_subset c) hs (name_mem_parentFirst hs hrooted)

open Classical in
noncomputable def rootedStates (c : Chart) : List State :=
  c.enabledStates.filter (Rooted c ·)

theorem mem_rootedStates {c : Chart} {s : State} :
    s ∈ rootedStates c ↔ s ∈ c.enabledStates ∧ Rooted c s := by
  simp [rootedStates]

theorem rootedStates_eq {c : Chart} (h : ∀ s ∈ c.enabledStates, Rooted c s) :
    rootedStates c = c.enabledStates :=
  List.filter_eq_self.2 (by simpa using h)

/-- The order has each of these states once exactly if no two of them have one name. -/
theorem parentFirst_perm_iff (c : Chart) :
    (parentFirst c).Perm (rootedStates c) ↔ ((rootedStates c).map State.name).Nodup := by
  have hsub : parentFirst c ⊆ rootedStates c := fun s hs =>
    mem_rootedStates.2 ⟨parentFirst_subset c s hs, parentFirst_rooted hs⟩
  constructor
  · intro hperm
    exact (hperm.map State.name).nodup_iff.1 (parentFirst_nodup c)
  · intro hd
    rw [List.perm_ext_iff_of_nodup (List.Nodup.of_map _ (parentFirst_nodup c))
      (List.Nodup.of_map _ hd)]
    intro s
    refine ⟨fun hs => hsub hs, fun hs => mem_of_name_mem hd hsub hs ?_⟩
    obtain ⟨henabled, hrooted⟩ := mem_rootedStates.1 hs
    exact name_mem_parentFirst henabled hrooted

theorem parentFirst_perm {c : Chart} (hd : (c.states.map State.name).Nodup)
    (h : ∀ s ∈ c.enabledStates, Rooted c s) : (parentFirst c).Perm c.enabledStates := by
  rw [← rootedStates_eq h, parentFirst_perm_iff, rootedStates_eq h]
  exact hd.sublist (List.filter_sublist.map State.name)

/-- An order of the states that satisfy `P`, one for each name, every state after its parent. -/
structure Topological (P : State → Prop) (order : List State) : Prop where
  distinct : (order.map State.name).Nodup
  parent_before : ∀ before s after, order = before ++ s :: after →
    ∀ p, s.parent = some p → ∃ q ∈ before, q.name = p
  sound : ∀ s ∈ order, P s
  complete : ∀ s, P s → ∃ q ∈ order, q.name = s.name

theorem parentFirst_topological (c : Chart) :
    Topological (fun s => s ∈ c.enabledStates ∧ Rooted c s) (parentFirst c) where
  distinct := parentFirst_nodup c
  parent_before := fun _ _ _ horder _ hp => List.mem_map.1 (parentFirst_parent horder hp)
  sound := fun s hs => ⟨parentFirst_subset c s hs, parentFirst_rooted hs⟩
  complete := fun _ hs => List.mem_map.1 (name_mem_parentFirst hs.1 hs.2)

/-- The loop ends for every chart, with one state for each name among those whose way up ends at the
top. So it has all of these states exactly if their names are distinct. In a chart that has passed
the check of its hierarchy they are all that are enabled. -/
theorem parentFirst_exact (c : Chart) :
    (∀ order, Rounds c.enabledStates [] order ↔ order = parentFirst c) ∧
      Topological (fun s => s ∈ c.enabledStates ∧ Rooted c s) (parentFirst c) ∧
      ((parentFirst c).Perm (rootedStates c) ↔ ((rootedStates c).map State.name).Nodup) ∧
      ∀ b j, verifyStateParents.Yields b () j c →
        Topological (· ∈ c.enabledStates) (parentFirst c) ∧
          ((parentFirst c).Perm c.enabledStates ↔ (c.enabledStates.map State.name).Nodup) := by
  have horder := parentFirst_topological c
  refine ⟨fun order => ⟨fun h => h.unique (rounds_parentFirst c), ?_⟩, horder,
    parentFirst_perm_iff c, fun b j h => ⟨?_, ?_⟩⟩
  · intro h
    exact h ▸ rounds_parentFirst c
  · exact {
      distinct := horder.distinct
      parent_before := horder.parent_before
      sound := fun s hs => (horder.sound s hs).1
      complete := fun s hs => horder.complete s ⟨hs, rooted_of_verified h s hs⟩ }
  · have hperm := parentFirst_perm_iff c
    rwa [rootedStates_eq (rooted_of_verified h)] at hperm

/-- A trunk with a branch and a leaf, declared from the leaf down, and around it two states below
each other, a state below an unknown one and a state below a disabled one. -/
def thicket : Chart where
  name := "Thicket"
  states :=
    [⟨"STATE_1", "Leaf", some "Branch", .simple, .absent, .absent, .absent, false⟩,
      ⟨"STATE_2", "Branch", some "Trunk", .hierarchical, .absent, .absent, .absent, false⟩,
      ⟨"STATE_3", "Trunk", none, .hierarchical, .absent, .absent, .absent, false⟩,
      ⟨"STATE_4", "Hare", some "Fox", .simple, .absent, .absent, .absent, false⟩,
      ⟨"STATE_5", "Fox", some "Hare", .hierarchical, .absent, .absent, .absent, false⟩,
      ⟨"STATE_6", "Stray", some "Nowhere", .simple, .absent, .absent, .absent, false⟩,
      ⟨"STATE_7", "Stump", none, .hierarchical, .absent, .absent, .absent, true⟩,
      ⟨"STATE_8", "Moss", some "Stump", .simple, .absent, .absent, .absent, false⟩]

def trunk : Chart :=
  { thicket with states := thicket.states.take 3 }

theorem thicket_ordered :
    (parentFirst thicket).map State.name = ["Trunk", "Branch", "Leaf"] ∧
      (∀ s ∈ thicket.enabledStates, Rooted thicket s → s.name ∈ ["Trunk", "Branch", "Leaf"]) ∧
      verifyStateParents.Yields trunk () [] trunk ∧
      (parentFirst trunk).Perm trunk.enabledStates := by
  have hnames : (parentFirst thicket).map State.name = ["Trunk", "Branch", "Leaf"] := by
    decide +kernel
  obtain ⟨-, horder, -, -⟩ := parentFirst_exact thicket
  obtain ⟨-, -, -, hall⟩ := parentFirst_exact trunk
  have htrunk : verifyStateParents.Yields trunk () [] trunk :=
    Work.yields_of_parts (ok_of_toOption (by decide +kernel)) (by decide +kernel)
      (by decide +kernel)
  refine ⟨hnames, ?_, htrunk, (hall _ _ htrunk).2.2 (by decide)⟩
  intro s hs hrooted
  rw [← hnames]
  exact List.mem_map.2 (horder.complete s ⟨hs, hrooted⟩)

/-- Two states of one name. -/
def twins : Chart where
  name := "Twins"
  states :=
    [⟨"STATE_1", "Idle", none, .simple, .absent, .absent, .absent, false⟩,
      ⟨"STATE_2", "Idle", none, .simple, .absent, .absent, .absent, false⟩]

/-- They pass the check, and the second one is left out. -/
theorem twins_one_ordered : verifyStateParents.Yields twins () [] twins ∧
    ∃ s ∈ twins.enabledStates, Rooted twins s ∧ s ∉ parentFirst twins := by
  have hchecked : verifyStateParents.Yields twins () [] twins :=
    Work.yields_of_parts (ok_of_toOption (by decide +kernel)) (by decide +kernel)
      (by decide +kernel)
  exact ⟨hchecked, ⟨"STATE_2", "Idle", none, .simple, .absent, .absent, .absent, false⟩,
    by decide +kernel, .top rfl, by decide +kernel⟩

end Statechart.Module
