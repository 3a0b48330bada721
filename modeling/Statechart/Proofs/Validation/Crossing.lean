import Statechart.Proofs.Lists
import Statechart.Proofs.Validation.Ancestors

/-!
Transitions and the states around them.

A transition between two states lies in the innermost composite state around both; a transition from
a state to itself leaves it, so it lies further out. Where that state is concurrent, the transition
would cross from one of its regions to another. On both ways up the states around both ends are the
same and in the same order, so it does not matter which end is called the source.
-/
set_option autoImplicit false

namespace Statechart

namespace Transition

def Joins (t : Transition) (s e : String) : Prop :=
  t.source = .state s ∧ t.target = .state e

def swapped (t : Transition) : Transition :=
  { t with source := t.target, target := t.source }

end Transition

namespace Validation

open Relation

/-- An ancestor of both states, where each counts as its own; for one state twice, an ancestor
proper. -/
def CommonAncestor (c : Chart) (s e a : String) : Prop :=
  if s = e then TransGen c.Parent s a
  else ReflTransGen c.Parent s a ∧ ReflTransGen c.Parent e a

def Composite (c : Chart) (name : String) : Prop :=
  ∃ s, c.state? name = some s ∧ s.kind.isComposite = true

def Innermost (c : Chart) (s e a : String) : Prop :=
  CommonAncestor c s e a ∧ Composite c a ∧
    ∀ b, CommonAncestor c s e b → Composite c b → ReflTransGen c.Parent a b

def InnermostKind (c : Chart) (s e : String) (kind : StateKind) : Prop :=
  ∃ a state, Innermost c s e a ∧ c.state? a = some state ∧ state.kind = kind

/-- There is no composite state around both, or the innermost one is hierarchical. -/
def Allowed (c : Chart) (s e : String) : Prop :=
  (¬ ∃ a, CommonAncestor c s e a ∧ Composite c a) ∨ InnermostKind c s e .hierarchical

def Crosses (c : Chart) (s e : String) : Prop :=
  InnermostKind c s e .concurrent

theorem commonAncestor_comm {c : Chart} {s e : String} :
    CommonAncestor c s e = CommonAncestor c e s := by
  funext a
  by_cases h : s = e
  · rw [h]
  · simp only [CommonAncestor, h, Ne.symm h, if_false, and_comm]

theorem allowed_comm {c : Chart} {s e : String} : Allowed c s e ↔ Allowed c e s := by
  simp only [Allowed, InnermostKind, Innermost, commonAncestor_comm]

def FirstComposite (c : Chart) (names : List String) (a : String) (s : State) : Prop :=
  ∃ before after, names = before ++ a :: after ∧ (∀ n ∈ before, ¬ Composite c n) ∧
    c.state? a = some s ∧ s.kind.isComposite = true

theorem FirstComposite.cons {c : Chart} {names : List String} {a name : String} {s : State}
    (hn : ¬ Composite c name) (h : FirstComposite c names a s) :
    FirstComposite c (name :: names) a s := by
  obtain ⟨before, after, rfl, hbefore, hs, hcomp⟩ := h
  exact ⟨name :: before, after, rfl, List.forall_mem_cons.2 ⟨hn, hbefore⟩, hs, hcomp⟩

theorem acceptedBy_cases (c : Chart) (names : List String) :
    (acceptedBy c names = true ∧ ∀ n ∈ names, ¬ Composite c n) ∨
      ∃ a s, FirstComposite c names a s ∧
        (acceptedBy c names = true ∧ s.kind = .hierarchical ∨
          acceptedBy c names = false ∧ s.kind = .concurrent) := by
  induction names with
  | nil => exact .inl ⟨rfl, by simp⟩
  | cons name names ih =>
    by_cases hn : Composite c name
    · obtain ⟨s, hs, hcomp⟩ := hn
      refine .inr ⟨name, s, ⟨[], names, rfl, by simp, hs, hcomp⟩, ?_⟩
      cases hk : s.kind with
      | hierarchical => simp [acceptedBy, hs, hk]
      | concurrent => simp [acceptedBy, hs, hk]
      | simple => simp [hk, StateKind.isComposite] at hcomp
      | history => simp [hk, StateKind.isComposite] at hcomp
    · have hskip : acceptedBy c (name :: names) = acceptedBy c names := by
        rw [acceptedBy]
        cases hs : c.state? name with
        | none => rfl
        | some s =>
          have hkind : s.kind.isComposite ≠ true := fun hcomp => hn ⟨s, hs, hcomp⟩
          cases hk : s.kind <;> simp_all [StateKind.isComposite]
      rw [hskip]
      rcases ih with ⟨htrue, hnone⟩ | ⟨a, s, hfirst, hor⟩
      · exact .inl ⟨htrue, List.forall_mem_cons.2 ⟨hn, hnone⟩⟩
      · exact .inr ⟨a, s, hfirst.cons hn, hor⟩

section Ways

variable {c : Chart} {s e : String} {up other : List String}
  (hup : Ascent c s up) (hother : Ascent c e other)
include hup

def around (s e : String) (up other : List String) : List String :=
  common (up.drop (if s = e then 1 else 0)) (other.drop (if s = e then 1 else 0))

omit hup in
theorem sharesAncestor_eq : sharesAncestor c s e up other = acceptedBy c (around s e up other) :=
  rfl

theorem around_pairwise : (around s e up other).Pairwise (TransGen c.Parent) :=
  hup.pairwise.sublist (List.filter_sublist.trans (List.drop_sublist _ _))

include hother

theorem mem_around {a : String} : a ∈ around s e up other ↔ CommonAncestor c s e a := by
  rw [around, common, List.mem_filter, List.contains_iff_mem, CommonAncestor]
  by_cases h : s = e
  · subst h
    simp only [if_true, hup.mem_drop_one_iff, hother.mem_drop_one_iff, and_self]
  · simp only [h, if_false, List.drop_zero, hup.mem_iff, hother.mem_iff]

theorem FirstComposite.innermost {a : String} {state : State}
    (h : FirstComposite c (around s e up other) a state) : Innermost c s e a := by
  obtain ⟨before, after, hsplit, hbefore, hs, hcomp⟩ := h
  have hpair : (around s e up other).Pairwise (TransGen c.Parent) := around_pairwise hup
  rw [hsplit, List.pairwise_append] at hpair
  obtain ⟨-, hafter, -⟩ := hpair
  have hmem : ∀ b, CommonAncestor c s e b ↔ b ∈ before ++ a :: after := by
    intro b
    rw [← hsplit, mem_around hup hother]
  refine ⟨(hmem a).2 (by simp), ⟨state, hs, hcomp⟩, fun b hb hbcomp => ?_⟩
  -- another composite one stands further on, so it is further out
  rcases List.mem_append.1 ((hmem b).1 hb) with hb | hb
  · exact absurd hbcomp (hbefore b hb)
  · rcases List.mem_cons.1 hb with rfl | hb
    · exact .refl
    · exact ((List.pairwise_cons.1 hafter).1 b hb).to_reflTransGen

/-- There is one innermost composite state, since no state around another is below it. -/
theorem Innermost.unique {a b : String} (ha : Innermost c s e a) (hb : Innermost c s e b) :
    a = b := by
  have hab := ha.2.2 b hb.1 hb.2.1
  have hba := hb.2.2 a ha.1 ha.2.1
  have hmem : a ∈ up := by
    have hmem := (mem_around hup hother).2 ha.1
    exact List.mem_of_mem_drop (List.mem_filter.1 hmem).1
  obtain ⟨rest, hrest⟩ := hup.of_mem hmem
  rcases reflTransGen_iff_eq_or_transGen.1 hab with heq | hab
  · exact heq.symm
  · exact absurd (hab.trans_left hba) hrest.not_cycle

theorem InnermostKind.unique {k k' : StateKind} (h : InnermostKind c s e k)
    (h' : InnermostKind c s e k') : k = k' := by
  obtain ⟨a, state, ha, hs, rfl⟩ := h
  obtain ⟨b, state', hb, hs', rfl⟩ := h'
  obtain rfl := ha.unique hup hother hb
  rw [hs, Option.some.injEq] at hs'
  rw [hs']

theorem Allowed.not_crosses (h : Allowed c s e) : ¬ Crosses c s e := by
  intro hcross
  rcases h with hnone | hkind
  · obtain ⟨a, _, ha, -⟩ := hcross
    exact hnone ⟨a, ha.1, ha.2.1⟩
  · cases hkind.unique hup hother hcross

theorem sharesAncestor_cases :
    (sharesAncestor c s e up other = true ∧ Allowed c s e) ∨
      (sharesAncestor c s e up other = false ∧ Crosses c s e) := by
  rw [sharesAncestor_eq]
  rcases acceptedBy_cases c (around s e up other) with ⟨htrue, hnone⟩ | ⟨a, state, hfirst, hor⟩
  · refine .inl ⟨htrue, .inl ?_⟩
    intro hsome
    obtain ⟨a, ha, hcomp⟩ := hsome
    exact hnone a ((mem_around hup hother).2 ha) hcomp
  · have hinner := hfirst.innermost hup hother
    obtain ⟨_, _, -, -, hs, -⟩ := hfirst
    rcases hor with ⟨htrue, hkind⟩ | ⟨hfalse, hkind⟩
    · exact .inl ⟨htrue, .inr ⟨a, state, hinner, hs, hkind⟩⟩
    · exact .inr ⟨hfalse, a, state, hinner, hs, hkind⟩

end Ways

structure Climbable (c : Chart) : Prop where
  ways : ∀ {name s}, c.enabledState? name = some s → ∃ up, ancestry c name = .ok (.complete up)
  ends : ∀ t ∈ c.enabledTransitions, EndsEnabled c t

/-- A chart as the checks on parents and on the ends of transitions leave it; events may have been
replaced since. -/
def Screened (c : Chart) : Prop :=
  ∃ before, (screen before).result = .ok () ∧ c.states = (screen before).state.states ∧
    List.Forall₂ (fun t t' => t' = { t with event := t'.event }) (screen before).state.transitions
      c.transitions

theorem endsEnabled_congr {c d : Chart} (h : c.states = d.states) {t u : Transition}
    (hsource : t.source = u.source) (htarget : t.target = u.target) :
    EndsEnabled c t ↔ EndsEnabled d u := by
  simp only [EndsEnabled, Chart.enabledState?, Chart.state?, h, hsource, htarget]

theorem Screened.climbable {c : Chart} (h : Screened c) : Climbable c := by
  obtain ⟨before, hok, hstates, htransitions⟩ := h
  obtain ⟨-, -, hsettled, hways, hends, -⟩ := screen_established (Work.yields_of_result hok)
  constructor
  · intro name s hs
    have hs : (screen before).state.enabledState? name = some s := by
      rw [← hs, Chart.enabledState?, Chart.enabledState?, Chart.state?, Chart.state?, hstates]
    obtain ⟨hfound, hon⟩ := Chart.enabledState?_eq_some.1 hs
    obtain ⟨hmem, rfl⟩ := Chart.mem_of_state? hfound
    obtain ⟨a, ha⟩ := hways s (Chart.mem_enabledStates.2 ⟨hmem, hon⟩)
    obtain ⟨up, rfl⟩ := ancestryFrom_complete hsettled hs ha
    exact ⟨up, by rw [ancestry_congr hstates, ha]⟩
  · intro t ht
    obtain ⟨hmem, hon⟩ := Chart.mem_enabledTransitions.1 ht
    obtain ⟨u, hu, hut⟩ := forall₂_exists_left htransitions hmem
    have huon : u.disabled = false := by rw [← hon, hut]
    have hsource : t.source = u.source := by rw [hut]
    have htarget : t.target = u.target := by rw [hut]
    rw [endsEnabled_congr hstates hsource htarget]
    exact hends u (Chart.mem_enabledTransitions.2 ⟨hu, huon⟩)

theorem Climbable.way {c : Chart} (h : Climbable c) {t : Transition} {name : String}
    (hname : t.source = .state name ∨ t.target = .state name) (ht : EndsEnabled c t) :
    ∃ up, ancestry c name = .ok (.complete up) := by
  obtain ⟨s, hs⟩ := ht name hname
  exact h.ways hs

def crossing? (c : Chart) (t : Transition) : Option Error :=
  fault? (joined c t)

theorem Joins.state? {t : Transition} {s e : String} :
    t.Joins s e ↔ t.source.state? = some s ∧ t.target.state? = some e := by
  have hend : ∀ {p : Endpoint} {n : String}, p.state? = some n ↔ p = .state n := by
    intro p n
    cases p <;> simp [Endpoint.state?]
  rw [hend, hend, Transition.Joins]

theorem crossing?_eq {c : Chart} {t : Transition} {s e : String} {up other : List String}
    (ht : t.Joins s e) (hup : ancestry c s = .ok (.complete up))
    (hother : ancestry c e = .ok (.complete other)) :
    crossing? c t =
      if sharesAncestor c s e up other then none else some (.noCommonAncestor t.name s e) := by
  obtain ⟨hs, he⟩ := Joins.state?.1 ht
  simp only [crossing?, joined, hs, he, hup, hother, bind, Except.bind, verdict]
  by_cases h : sharesAncestor c s e up other = true
  · simp [h, fault?]
  · simp [h, fault?]

theorem findSome?_positions {α β : Type} (as : List α) (p : α → Bool) (f : α → Option β) :
    ((List.range as.length).findSome? fun i => (as[i]?.filter p).bind f) =
      (as.filter p).findSome? f := by
  induction as with
  | nil => rfl
  | cons a as ih =>
    rw [List.length_cons, List.range_succ_eq_map, List.findSome?_cons, List.findSome?_map]
    cases hp : p a with
    | true => cases hf : f a <;> simp [Option.filter_some, hp, hf, Function.comp_def, ih]
    | false => simp [Option.filter_some, hp, Function.comp_def, ih]

theorem eachEnabled_checks {f : Nat → Transition → Check Unit} {fault : Transition → Option Error}
    {c : Chart} (hf : ∀ i, ∀ t ∈ c.enabledTransitions, f i t c = ⟨c, [], ofFault (fault t)⟩) :
    eachEnabled f c = ⟨c, [], ofFault (c.enabledTransitions.findSome? fault)⟩ := by
  have hvisit : ∀ i ∈ List.range c.transitions.length, visit f i c =
      ⟨c, [], ofFault ((c.transitions[i]?.filter (!·.disabled)).bind fault)⟩ := by
    intro i _
    simp only [visit, Work.bind_apply, Work.get]
    cases hget : c.transitions[i]?.filter (!·.disabled) with
    | none => rfl
    | some t =>
      obtain ⟨hmem, hon⟩ : c.transitions[i]? = some t ∧ t.disabled = false := by
        simpa [Option.filter_eq_some_iff] using hget
      have ht := Chart.mem_enabledTransitions.2 ⟨List.mem_of_getElem? hmem, hon⟩
      simp [hf i t ht]
  have heach : eachEnabled f c = Work.each (visit f) (List.range c.transitions.length) c := rfl
  rw [heach, Work.each_checks hvisit, findSome?_positions, Chart.enabledTransitions]

/-- The check only refuses, at the first transition that crosses. -/
theorem checkCommonAncestors_eq {c : Chart} (h : Climbable c) :
    checkCommonAncestors c =
      ⟨c, [], ofFault (c.enabledTransitions.findSome? (crossing? c))⟩ := by
  refine eachEnabled_checks fun i t ht => ?_
  have hends := h.ends t ht
  simp only [Work.bind_apply, Work.get]
  cases hs : t.source.state? with
  | none => simp [crossing?, joined, hs, ofFault, fault?]
  | some s =>
    cases he : t.target.state? with
    | none => simp [crossing?, joined, hs, he, ofFault, fault?]
    | some e =>
      have hjoins := Joins.state?.2 ⟨hs, he⟩
      obtain ⟨up, hup⟩ := h.way (.inl hjoins.1) hends
      obtain ⟨other, hother⟩ := h.way (.inr hjoins.2) hends
      rw [crossing?_eq hjoins hup hother]
      simp only [Work.bind_apply, Work.ofExcept, hup, hother]
      cases sharesAncestor c s e up other with
      | true => rfl
      | false => rfl

section Verdict

variable {c : Chart} (h : Climbable c) {t : Transition} (hends : EndsEnabled c t)
include h hends

theorem crossing?_cases {s e : String} (ht : t.Joins s e) :
    (crossing? c t = none ∧ Allowed c s e ∧ ¬ Crosses c s e) ∨
      (crossing? c t = some (.noCommonAncestor t.name s e) ∧ Crosses c s e ∧ ¬ Allowed c s e) := by
  obtain ⟨up, hup⟩ := h.way (.inl ht.1) hends
  obtain ⟨other, hother⟩ := h.way (.inr ht.2) hends
  have hs := ascent_of_ancestry hup
  have he := ascent_of_ancestry hother
  rw [crossing?_eq ht hup hother]
  rcases sharesAncestor_cases hs he with ⟨hshares, hallowed⟩ | ⟨hshares, hcrosses⟩
  · exact .inl ⟨by simp [hshares], hallowed, hallowed.not_crosses hs he⟩
  · exact .inr ⟨by simp [hshares], hcrosses, fun hallowed => hallowed.not_crosses hs he hcrosses⟩

theorem crossing?_eq_none :
    crossing? c t = none ↔ ∀ s e, t.Joins s e → Allowed c s e := by
  constructor
  · intro hnone s e ht
    rcases crossing?_cases h hends ht with ⟨-, hallowed, -⟩ | ⟨hsome, -⟩
    · exact hallowed
    · simp [hnone] at hsome
  · intro hall
    cases hs : t.source.state? with
    | none => simp [crossing?, joined, hs, fault?]
    | some s =>
      cases he : t.target.state? with
      | none => simp [crossing?, joined, hs, he, fault?]
      | some e =>
        have ht := Joins.state?.2 ⟨hs, he⟩
        rcases crossing?_cases h hends ht with ⟨hnone, -⟩ | ⟨-, -, hnot⟩
        · exact hnone
        · exact absurd (hall s e ht) hnot

theorem crossing?_eq_some {err : Error} :
    crossing? c t = some err ↔
      ∃ s e, t.Joins s e ∧ Crosses c s e ∧ err = .noCommonAncestor t.name s e := by
  constructor
  · intro hsome
    have hnot : ¬ ∀ s e, t.Joins s e → Allowed c s e := by
      rw [← crossing?_eq_none h hends, hsome]
      simp
    push Not at hnot
    obtain ⟨s, e, ht, hnot⟩ := hnot
    rcases crossing?_cases h hends ht with ⟨-, hallowed, -⟩ | ⟨heq, hcrosses, -⟩
    · exact absurd hallowed hnot
    · rw [hsome, Option.some.injEq] at heq
      exact ⟨s, e, ht, hcrosses, heq⟩
  · intro hsome
    obtain ⟨s, e, ht, hcrosses, rfl⟩ := hsome
    rcases crossing?_cases h hends ht with ⟨-, -, hnot⟩ | ⟨heq, -⟩
    · exact absurd hcrosses hnot
    · exact heq

theorem alone_result (hon : t.disabled = false) :
    (checkCommonAncestors { c with transitions := [t] }).result = ofFault (crossing? c t) := by
  have hcrossing : crossing? { c with transitions := [t] } = crossing? c := by
    funext u
    simp only [crossing?, joined_congr (d := { c with transitions := [t] }) (c := c) rfl]
  have halone : Climbable { c with transitions := [t] } := by
    refine ⟨fun hs => ?_, fun u hu => ?_⟩
    · have hway : ancestry { c with transitions := [t] } = ancestry c := ancestry_congr rfl
      rw [hway]
      exact h.ways hs
    · obtain rfl : u = t := by simpa using (Chart.mem_enabledTransitions.1 hu).1
      exact hends
  have henabled : ({ c with transitions := [t] } : Chart).enabledTransitions = [t] := by
    simp [Chart.enabledTransitions, hon]
  rw [checkCommonAncestors_eq halone, henabled, hcrossing]
  cases hfault : crossing? c t <;> simp [hfault]

end Verdict

structure Judged (c : Chart) (t : Transition) (s e : String) : Prop where
  /-- Neither way up meets a disabled state. -/
  ways : ∃ up other, ancestry c s = .ok (.complete up) ∧ ancestry c e = .ok (.complete other)
  accepted : (checkCommonAncestors { c with transitions := [t] }).result = .ok () ↔ Allowed c s e
  refused : (checkCommonAncestors { c with transitions := [t] }).result =
    .error (.noCommonAncestor t.name s e) ↔ Crosses c s e
  accepted_swapped : (checkCommonAncestors { c with transitions := [t.swapped] }).result = .ok () ↔
    (checkCommonAncestors { c with transitions := [t] }).result = .ok ()
  refused_swapped : (checkCommonAncestors { c with transitions := [t.swapped] }).result =
      .error (.noCommonAncestor t.name e s) ↔
    (checkCommonAncestors { c with transitions := [t] }).result =
      .error (.noCommonAncestor t.name s e)

theorem endsEnabled_swapped {c : Chart} {t : Transition} (h : EndsEnabled c t) :
    EndsEnabled c t.swapped :=
  fun name hname => h name hname.symm

theorem crosses_comm {c : Chart} {s e : String} : Crosses c s e ↔ Crosses c e s := by
  simp only [Crosses, InnermostKind, Innermost, commonAncestor_comm (s := s)]

theorem alone_ok_iff {c : Chart} (h : Climbable c) {t : Transition} (hends : EndsEnabled c t)
    (hon : t.disabled = false) {s e : String} (ht : t.Joins s e) :
    (checkCommonAncestors { c with transitions := [t] }).result = .ok () ↔ Allowed c s e := by
  rw [alone_result h hends hon, ofFault_eq_ok]
  rcases crossing?_cases h hends ht with ⟨hnone, hallowed, -⟩ | ⟨hsome, -, hnot⟩
  · simp [hnone, hallowed]
  · simp [hsome, hnot]

theorem alone_error_iff {c : Chart} (h : Climbable c) {t : Transition} (hends : EndsEnabled c t)
    (hon : t.disabled = false) {s e : String} (ht : t.Joins s e) :
    (checkCommonAncestors { c with transitions := [t] }).result =
      .error (.noCommonAncestor t.name s e) ↔ Crosses c s e := by
  rw [alone_result h hends hon, ofFault_eq_error]
  rcases crossing?_cases h hends ht with ⟨hnone, -, hnot⟩ | ⟨hsome, hcrosses, -⟩
  · simp [hnone, hnot]
  · simp [hsome, hcrosses]

theorem judged {c : Chart} (h : Climbable c) {t : Transition} (ht : t ∈ c.enabledTransitions)
    {s e : String} (hjoins : t.Joins s e) : Judged c t s e := by
  obtain ⟨-, hon⟩ := Chart.mem_enabledTransitions.1 ht
  have hends := h.ends t ht
  have hends' := endsEnabled_swapped hends
  have hjoins' : t.swapped.Joins e s := ⟨hjoins.2, hjoins.1⟩
  refine ⟨?_, alone_ok_iff h hends hon hjoins, alone_error_iff h hends hon hjoins, ?_, ?_⟩
  · obtain ⟨up, hup⟩ := h.way (.inl hjoins.1) hends
    obtain ⟨other, hother⟩ := h.way (.inr hjoins.2) hends
    exact ⟨up, other, hup, hother⟩
  · rw [alone_ok_iff h hends' hon hjoins', alone_ok_iff h hends hon hjoins, allowed_comm]
  · exact (alone_error_iff h hends' hon hjoins').trans
      (crosses_comm.trans (alone_error_iff h hends hon hjoins).symm)

/-- A transition between states is accepted if the innermost composite state around both is
hierarchical, or there is none. -/
theorem crossing_exact {c : Chart} (h : Screened c) :
    let after := checkCommonAncestors c
    after.state = c ∧ after.journal = [] ∧
      (after.result = .ok () ↔
        ∀ t ∈ c.enabledTransitions, ∀ s e, t.Joins s e → Allowed c s e) ∧
      (∀ err, after.result = .error err ↔
        ∃ before t rest s e, c.enabledTransitions = before ++ t :: rest ∧
          (∀ u ∈ before, ∀ s e, u.Joins s e → Allowed c s e) ∧
          t.Joins s e ∧ Crosses c s e ∧ err = .noCommonAncestor t.name s e) ∧
      ∀ t ∈ c.enabledTransitions, ∀ s e, t.Joins s e → Judged c t s e := by
  have hc := h.climbable
  rw [checkCommonAncestors_eq hc]
  refine ⟨rfl, rfl, ?_, fun err => ?_, fun t ht s e hjoins => judged hc ht hjoins⟩
  · rw [ofFault_eq_ok, List.findSome?_eq_none_iff]
    refine forall₂_congr fun t ht => ?_
    exact crossing?_eq_none hc (hc.ends t ht)
  · rw [ofFault_eq_error, List.findSome?_eq_some_iff]
    constructor
    · intro hsome
      obtain ⟨before, t, rest, hsplit, hfault, hbefore⟩ := hsome
      have hends : ∀ u ∈ before ++ t :: rest, EndsEnabled c u := hsplit ▸ hc.ends
      obtain ⟨s, e, hjoins, hcrosses, rfl⟩ :=
        (crossing?_eq_some hc (hends t (by simp))).1 hfault
      refine ⟨before, t, rest, s, e, hsplit, fun u hu => ?_, hjoins, hcrosses, rfl⟩
      exact (crossing?_eq_none hc (hends u (by simp [hu]))).1 (hbefore u hu)
    · intro hsome
      obtain ⟨before, t, rest, s, e, hsplit, hbefore, hjoins, hcrosses, rfl⟩ := hsome
      have hends : ∀ u ∈ before ++ t :: rest, EndsEnabled c u := hsplit ▸ hc.ends
      refine ⟨before, t, rest, hsplit, ?_, fun u hu => ?_⟩
      · exact (crossing?_eq_some hc (hends t (by simp))).2 ⟨s, e, hjoins, hcrosses, rfl⟩
      · exact (crossing?_eq_none hc (hends u (by simp [hu]))).2 (hbefore u hu)

/-- Two regions side by side, with a transition inside of one and a transition between them. -/
def desk : Chart where
  name := "Desk"
  states :=
    [⟨"STATE_1", "Desk", none, .concurrent, .absent, .absent, .absent, false⟩,
      ⟨"STATE_2", "Lamp", some "Desk", .hierarchical, .absent, .absent, .absent, false⟩,
      ⟨"STATE_3", "Fan", some "Desk", .hierarchical, .absent, .absent, .absent, false⟩,
      ⟨"STATE_4", "Lit", some "Lamp", .simple, .absent, .absent, .absent, false⟩,
      ⟨"STATE_5", "Dark", some "Lamp", .simple, .absent, .absent, .absent, false⟩,
      ⟨"STATE_6", "Still", some "Fan", .history, .absent, .absent, .absent, false⟩]
  transitions :=
    [⟨"TRANSITION_1", .state "Lit", .state "Dark", none, .absent, .absent, false⟩,
      ⟨"TRANSITION_2", .state "Lit", .state "Still", none, .absent, .absent, false⟩]

theorem desk_screened : Screened desk := by
  have hok : (screen desk).result = .ok () := ok_of_toOption (by decide +kernel)
  have hsame : (screen desk).state = desk := by decide +kernel
  refine ⟨desk, hok, by rw [hsame], ?_⟩
  rw [hsame]
  exact List.forall₂_same.2 fun _ _ => rfl

theorem desk_crossing :
    Screened desk ∧ Allowed desk "Lit" "Dark" ∧ Crosses desk "Lit" "Still" ∧
      ¬ ∀ t ∈ desk.enabledTransitions, ∀ s e, t.Joins s e → Allowed desk s e := by
  obtain ⟨-, -, hok, -, hjudged⟩ := crossing_exact desk_screened
  have hinside := hjudged
    ⟨"TRANSITION_1", .state "Lit", .state "Dark", none, .absent, .absent, false⟩
    (by decide) "Lit" "Dark" ⟨rfl, rfl⟩
  have hacross := hjudged
    ⟨"TRANSITION_2", .state "Lit", .state "Still", none, .absent, .absent, false⟩
    (by decide) "Lit" "Still" ⟨rfl, rfl⟩
  refine ⟨desk_screened, hinside.accepted.1 (ok_of_toOption (by decide +kernel)),
    hacross.refused.1 rfl, ?_⟩
  rw [← hok]
  intro hresult
  have hnone : (checkCommonAncestors desk).result.toOption = none := by decide +kernel
  simp [hresult, Except.toOption] at hnone

end Validation

end Statechart
