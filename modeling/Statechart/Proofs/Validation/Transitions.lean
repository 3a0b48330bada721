import Statechart.Proofs.Validation.Events
import Statechart.Proofs.Validation.Hierarchy
import Statechart.Validation.Transitions

/-!
Passes over the transitions of a chart.

Three checks go through the enabled transitions and change each in its place. None of them looks at
another transition, so each is told by what it makes of one: `retired`, `qualified` and `joined`.
The other checks change nothing.
-/
set_option autoImplicit false

namespace Statechart

theorem Chart.mem_enabledTransitions {c : Chart} {t : Transition} :
    t ∈ c.enabledTransitions ↔ t ∈ c.transitions ∧ t.disabled = false := by
  simp [enabledTransitions]

namespace Validation

/-- What becomes of a transition, with the entries that are made on the way. -/
abbrev Treatment := Transition → Except Error (Transition × Journal)

/-- A pass over transitions. Disabled ones are left alone. -/
inductive Pass (treat : Treatment) : List Transition → List Transition → Journal → Prop where
  | nil : Pass treat [] [] []
  | skip {t : Transition} {ts ts' : List Transition} {j : Journal} :
      t.disabled = true → Pass treat ts ts' j → Pass treat (t :: ts) (t :: ts') j
  | step {t t' : Transition} {ts ts' : List Transition} {j₁ j₂ : Journal} :
      t.disabled = false → treat t = .ok (t', j₁) → Pass treat ts ts' j₂ →
      Pass treat (t :: ts) (t' :: ts') (j₁ ++ j₂)

theorem Pass.origin {treat : Treatment} {ts ts' : List Transition} {j : Journal}
    (h : Pass treat ts ts' j) {t' : Transition} (ht : t' ∈ ts') :
    (t' ∈ ts ∧ t'.disabled = true) ∨
      ∃ t ∈ ts, t.disabled = false ∧ ∃ j, treat t = .ok (t', j) := by
  induction h with
  | nil => simp at ht
  | @skip t ts ts' j hd _ ih =>
    rcases List.mem_cons.1 ht with rfl | ht
    · exact .inl ⟨by simp, hd⟩
    · rcases ih ht with ⟨hm, hd'⟩ | ⟨u, hu, hrest⟩
      · exact .inl ⟨by simp [hm], hd'⟩
      · exact .inr ⟨u, by simp [hu], hrest⟩
  | @step t u ts ts' j₁ j₂ he htreat _ ih =>
    rcases List.mem_cons.1 ht with rfl | ht
    · exact .inr ⟨t, by simp, he, j₁, htreat⟩
    · rcases ih ht with ⟨hm, hd'⟩ | ⟨u, hu, hrest⟩
      · exact .inl ⟨by simp [hm], hd'⟩
      · exact .inr ⟨u, by simp [hu], hrest⟩

theorem Pass.outcome {treat : Treatment} {ts ts' : List Transition} {j : Journal}
    (h : Pass treat ts ts' j) {t : Transition} (ht : t ∈ ts) (he : t.disabled = false) :
    ∃ t' ∈ ts', ∃ j, treat t = .ok (t', j) := by
  induction h with
  | nil => simp at ht
  | @skip u ts ts' j hd _ ih =>
    rcases List.mem_cons.1 ht with rfl | ht
    · simp [he] at hd
    · obtain ⟨t', ht', hj⟩ := ih ht
      exact ⟨t', by simp [ht'], hj⟩
  | @step u u' ts ts' j₁ j₂ _ htreat _ ih =>
    rcases List.mem_cons.1 ht with rfl | ht
    · exact ⟨u', by simp, j₁, htreat⟩
    · obtain ⟨t', ht', hj⟩ := ih ht
      exact ⟨t', by simp [ht'], hj⟩

theorem Pass.idle {treat : Treatment} {ts : List Transition}
    (h : ∀ t ∈ ts, t.disabled = false → treat t = .ok (t, [])) : Pass treat ts ts [] := by
  induction ts with
  | nil => exact .nil
  | cons t ts ih =>
    obtain ⟨ht, hts⟩ := List.forall_mem_cons.1 h
    cases hd : t.disabled with
    | true => exact .skip hd (ih hts)
    | false => exact .step hd (ht hd) (ih hts)

theorem Pass.names {treat : Treatment} {ts ts' : List Transition} {j : Journal}
    (h : Pass treat ts ts' j)
    (hname : ∀ {t t' j}, treat t = .ok (t', j) → t'.name = t.name) :
    ts'.map Transition.name = ts.map Transition.name := by
  induction h with
  | nil => rfl
  | skip _ _ ih => simp [ih]
  | step _ htreat _ ih => simp [ih, hname htreat]

def Leaves (c : Chart) (i : Nat) (r : Except Error (Transition × Journal)) (j : Journal)
    (c' : Chart) : Prop :=
  ∃ t', r = .ok (t', j) ∧ c' = { c with transitions := c.transitions.set i t' }

def Treats (f : Nat → Transition → Check Unit) (treat : Chart → Treatment) : Prop :=
  ∀ (c : Chart) (i : Nat) (t : Transition), c.transitions[i]? = some t → t.disabled = false →
    ∀ (j : Journal) (c' : Chart), (f i t).Yields c () j c' ↔ Leaves c i (treat c t) j c'

/-- The treatment of a transition does not depend on the transitions of the chart. -/
def Local (treat : Chart → Treatment) : Prop :=
  ∀ (c : Chart) (ts : List Transition), treat { c with transitions := ts } = treat c

def visit (f : Nat → Transition → Check Unit) (i : Nat) : Check Unit :=
  Work.get >>= fun c =>
    match c.transitions[i]?.filter (!·.disabled) with
    | some t => f i t
    | none => pure ()

theorem eachEnabled_eq (f : Nat → Transition → Check Unit) :
    eachEnabled f = (Work.get >>= fun c =>
      Work.each (visit f) (List.range c.transitions.length)) := rfl

theorem visit_yields {f : Nat → Transition → Check Unit} {treat : Chart → Treatment}
    (hf : Treats f treat) {c c' : Chart} {t : Transition} {i : Nat} {j : Journal}
    (ht : c.transitions[i]? = some t) :
    (visit f i).Yields c () j c' ↔
      if t.disabled then j = [] ∧ c' = c else Leaves c i (treat c t) j c' := by
  rw [visit, Work.yields_get_bind, ht]
  cases hd : t.disabled with
  | true => simp [Option.filter, hd]
  | false => simpa [Option.filter, hd] using hf c i t ht hd j c'

/-- Positions from `done.length` on: the transitions before them are treated, the others not yet. -/
theorem visits_yields {f : Nat → Transition → Check Unit} {treat : Chart → Treatment}
    (hf : Treats f treat) (hl : Local treat) (c : Chart) (rest done : List Transition)
    {j : Journal} {c' : Chart} :
    (Work.each (visit f) (List.range' done.length rest.length)).Yields
        { c with transitions := done ++ rest } () j c' ↔
      ∃ ts, Pass (treat c) rest ts j ∧ c' = { c with transitions := done ++ ts } := by
  induction rest generalizing done j with
  | nil =>
    simp only [List.length_nil, List.range'_zero, Work.yields_each_nil]
    constructor
    · rintro ⟨rfl, rfl⟩
      exact ⟨[], .nil, rfl⟩
    · rintro ⟨ts, hpass, rfl⟩
      cases hpass
      exact ⟨rfl, rfl⟩
  | cons t rest ih =>
    have hget : ({ c with transitions := done ++ t :: rest } : Chart).transitions[done.length]? =
        some t := by simp
    have hset : ∀ t', (done ++ t :: rest).set done.length t' = (done ++ [t']) ++ rest := by simp
    have hrest : ∀ (t' : Transition) (j : Journal),
        (Work.each (visit f) (List.range' (done.length + 1) rest.length)).Yields
            { c with transitions := (done ++ [t']) ++ rest } () j c' ↔
          ∃ ts, Pass (treat c) rest ts j ∧ c' = { c with transitions := done ++ t' :: ts } := by
      intro t' j
      have h := ih (done ++ [t']) (j := j)
      simpa using h
    simp only [List.length_cons, List.range'_succ, Work.yields_each_cons, visit_yields hf hget]
    cases hd : t.disabled with
    | true =>
      constructor
      · rintro ⟨_, _, j, hsame, h, rfl⟩
        obtain ⟨rfl, rfl⟩ : _ ∧ _ := by simpa only [if_true] using hsame
        obtain ⟨ts, hpass, rfl⟩ := (hrest t j).1 (by simpa using h)
        exact ⟨t :: ts, .skip hd hpass, rfl⟩
      · rintro ⟨_, hpass, rfl⟩
        cases hpass with
        | @skip _ _ ts _ _ hpass =>
          have h := (hrest t j).2 ⟨ts, hpass, rfl⟩
          exact ⟨[], _, j, ⟨rfl, rfl⟩, by simpa using h, rfl⟩
        | step he => simp [hd] at he
    | false =>
      simp only [Bool.false_eq_true, if_false, Leaves, hset, hl c (done ++ t :: rest)]
      constructor
      · rintro ⟨j₁, _, j₂, ⟨t', ht, rfl⟩, h, rfl⟩
        obtain ⟨ts, hpass, rfl⟩ := (hrest t' j₂).1 h
        exact ⟨t' :: ts, .step hd ht hpass, rfl⟩
      · rintro ⟨_, hpass, rfl⟩
        cases hpass with
        | skip he => simp [hd] at he
        | @step _ t' _ ts j₁ j₂ _ ht hpass =>
          exact ⟨j₁, _, j₂, ⟨t', ht, rfl⟩, (hrest t' j₂).2 ⟨ts, hpass, rfl⟩, rfl⟩

theorem eachEnabled_yields {f : Nat → Transition → Check Unit} {treat : Chart → Treatment}
    (hf : Treats f treat) (hl : Local treat) {c c' : Chart} {u : Unit} {j : Journal} :
    (eachEnabled f).Yields c u j c' ↔
      ∃ ts, Pass (treat c) c.transitions ts j ∧ c' = { c with transitions := ts } := by
  rw [eachEnabled_eq, Work.yields_get_bind, List.range_eq_range']
  exact visits_yields hf hl c c.transitions []

def retirement (t : Transition) (state : String) : Transition × Journal :=
  ({ t with disabled := true },
    [.warning ⟨.cascadingDisable, s!"{t.name} disabled because state {state} is disabled"⟩])

def retired (c : Chart) : Treatment := fun t =>
  (disabledEnd c t).map fun state => (state.map (retirement t)).getD (t, [])

def qualified (c : Chart) : Treatment := fun t =>
  match t.event with
  | none => .ok (t, [])
  | some event =>
    (lookupEvent c.groups t.name event).map fun r =>
      ({ t with event := some r.qualified }, resolutionEntries t.name event r)

def verdict (c : Chart) (t : Transition) (source target : String) :
    Ancestry → Ancestry → Except Error (Transition × Journal)
  | .complete up, .complete other =>
    if sharesAncestor c source target up other then .ok (t, [])
    else .error (.noCommonAncestor t.name source target)
  | .disabled state, _ => .ok (retirement t state)
  | _, .disabled state => .ok (retirement t state)

def joined (c : Chart) : Treatment := fun t =>
  match t.source.state?, t.target.state? with
  | some source, some target => do
    verdict c t source target (← ancestry c source) (← ancestry c target)
  | _, _ => .ok (t, [])

theorem ancestryFrom_congr {c d : Chart} (h : d.states = c.states) (name : String) (steps : Nat)
    (names : List String) (current : String) :
    ancestryFrom d name steps names current = ancestryFrom c name steps names current := by
  have hs : d.state? = c.state? := by
    funext name
    simp only [Chart.state?, h]
  induction steps generalizing names current with
  | zero => simp only [ancestryFrom, hs]
  | succ steps ih =>
    rw [ancestryFrom, ancestryFrom, hs]
    simp only [ih]

theorem ancestry_congr {c d : Chart} (h : d.states = c.states) : ancestry d = ancestry c := by
  funext name
  rw [ancestry, ancestry, h]
  exact ancestryFrom_congr h name _ _ _

theorem acceptedBy_congr {c d : Chart} (h : d.states = c.states) (names : List String) :
    acceptedBy d names = acceptedBy c names := by
  induction names with
  | nil => rfl
  | cons name names ih => simp only [acceptedBy, Chart.state?, h, ih]

theorem sharesAncestor_congr {c d : Chart} (h : d.states = c.states) :
    sharesAncestor d = sharesAncestor c := by
  funext s t source target
  exact acceptedBy_congr h _

theorem joined_congr {c d : Chart} (h : d.states = c.states) : joined d = joined c := by
  have hv : verdict d = verdict c := by
    funext t source target up other
    cases up <;> cases other <;> simp only [verdict, sharesAncestor_congr h]
  funext t
  simp only [joined, ancestry_congr h, hv]

theorem modify_eq_set {ts : List Transition} {i : Nat} {t : Transition} (ht : ts[i]? = some t)
    (g : Transition → Transition) : ts.modify i g = ts.set i (g t) := by
  simp [List.modify_eq_set_getElem?, ht]

theorem pure_yields_leaves {i : Nat} {t : Transition} {c c' : Chart} {j : Journal}
    (ht : c.transitions[i]? = some t) :
    (pure () : Check Unit).Yields c () j c' ↔ Leaves c i (.ok (t, [])) j c' := by
  have hsame : { c with transitions := c.transitions.set i t } = c := by
    obtain ⟨hi, hget⟩ := List.getElem?_eq_some_iff.1 ht
    rw [← hget, List.set_getElem_self]
  rw [Work.yields_pure, Leaves]
  constructor
  · rintro ⟨-, rfl, rfl⟩
    exact ⟨t, rfl, hsame.symm⟩
  · rintro ⟨t', h, rfl⟩
    cases h
    exact ⟨rfl, rfl, hsame⟩

theorem disableAt_yields_leaves {i : Nat} {t : Transition} {state : String} {c c' : Chart}
    {j : Journal} (ht : c.transitions[i]? = some t) :
    (disableAt i t state).Yields c () j c' ↔ Leaves c i (.ok (retirement t state)) j c' := by
  rw [disableAt, Work.yields_modify_bind, Work.yields_warn, disableTransition, modify_eq_set ht,
    Leaves]
  constructor
  · rintro ⟨rfl, rfl⟩
    exact ⟨_, rfl, rfl⟩
  · rintro ⟨t', h, rfl⟩
    cases h
    exact ⟨rfl, rfl⟩

theorem not_leaves_error {c c' : Chart} {i : Nat} {e : Error} {j : Journal} :
    ¬ Leaves c i (.error e) j c' := by
  simp [Leaves]

theorem verifyTransitionStates_yields {c c' : Chart} {u : Unit} {j : Journal} :
    verifyTransitionStates.Yields c u j c' ↔
      ∃ ts, Pass (retired c) c.transitions ts j ∧ c' = { c with transitions := ts } := by
  refine eachEnabled_yields ?_ fun _ _ => rfl
  intro c i t ht _ j c'
  rw [Work.yields_get_bind, Work.yields_ofExcept_bind, retired]
  cases disabledEnd c t with
  | error e => simp [Except.map, not_leaves_error]
  | ok o =>
    simp only [Except.ok.injEq, exists_eq_left']
    cases o with
    | none => exact pure_yields_leaves ht
    | some state => exact disableAt_yields_leaves ht

theorem resolveTransitionEvents_yields {c c' : Chart} {u : Unit} {j : Journal} :
    resolveTransitionEvents.Yields c u j c' ↔
      ∃ ts, Pass (qualified c) c.transitions ts j ∧ c' = { c with transitions := ts } := by
  refine eachEnabled_yields ?_ fun c ts => by funext t; simp only [qualified]
  intro c i t ht _ j c'
  simp only [qualified]
  cases t.event with
  | none => exact pure_yields_leaves ht
  | some event =>
    simp only [Work.yields_bind, resolveEvent_yields, Work.yields_modify]
    constructor
    · rintro ⟨_, _, _, _, ⟨r, hr, rfl, rfl, rfl⟩, ⟨rfl, rfl⟩, rfl⟩
      refine ⟨{ t with event := some r.qualified }, ?_, ?_⟩
      · simp [hr, Except.map]
      · rw [setEvent, modify_eq_set ht]
    · rintro ⟨t', h, rfl⟩
      cases hr : lookupEvent c.groups t.name event with
      | error e => simp [hr, Except.map] at h
      | ok r =>
        simp only [hr, Except.map, Except.ok.injEq, Prod.mk.injEq] at h
        obtain ⟨rfl, rfl⟩ := h
        refine ⟨_, _, _, [], ⟨r, rfl, rfl, rfl, rfl⟩, ⟨rfl, ?_⟩, by simp⟩
        rw [setEvent, modify_eq_set ht]

theorem checkCommonAncestors_yields {c c' : Chart} {u : Unit} {j : Journal} :
    checkCommonAncestors.Yields c u j c' ↔
      ∃ ts, Pass (joined c) c.transitions ts j ∧ c' = { c with transitions := ts } := by
  refine eachEnabled_yields ?_ fun _ _ => joined_congr rfl
  intro c i t ht _ j c'
  rw [Work.yields_get_bind, joined]
  cases t.source.state? with
  | none => exact pure_yields_leaves ht
  | some source =>
    cases t.target.state? with
    | none => exact pure_yields_leaves ht
    | some target =>
      simp only [Work.yields_ofExcept_bind]
      cases ancestry c source with
      | error e => simp [bind, Except.bind, not_leaves_error]
      | ok up =>
        cases ancestry c target with
        | error e => simp [bind, Except.bind, not_leaves_error]
        | ok other =>
          simp only [Except.ok.injEq, exists_eq_left', bind, Except.bind]
          cases up with
          | disabled state => exact disableAt_yields_leaves ht
          | complete up =>
            cases other with
            | disabled state => exact disableAt_yields_leaves ht
            | complete other =>
              simp only [verdict]
              by_cases hs : sharesAncestor c source target up other = true
              · simp only [hs, Bool.not_true, Bool.false_eq_true, if_false, if_true]
                exact pure_yields_leaves ht
              · simp [hs, not_leaves_error]

def EndsEnabled (c : Chart) (t : Transition) : Prop :=
  ∀ name, t.source = .state name ∨ t.target = .state name → ∃ s, c.enabledState? name = some s

theorem disabledEnd_one_eq_none {c : Chart} {t : Transition} {e : Endpoint} :
    disabledEnd.one c t e = .ok none ↔
      ∀ name, e = .state name → ∃ s, c.enabledState? name = some s := by
  cases e with
  | start => simp [disabledEnd.one, Endpoint.state?]
  | stop => simp [disabledEnd.one, Endpoint.state?]
  | state name =>
    simp only [disabledEnd.one, Endpoint.state?, Endpoint.state.injEq, forall_eq',
      Chart.enabledState?_eq_some]
    cases c.state? name with
    | none => simp
    | some s => cases s.disabled <;> simp

theorem disabledEnd_eq_none {c : Chart} {t : Transition} :
    disabledEnd c t = .ok none ↔ EndsEnabled c t := by
  have hboth : EndsEnabled c t ↔
      disabledEnd.one c t t.source = .ok none ∧ disabledEnd.one c t t.target = .ok none := by
    simp only [disabledEnd_one_eq_none, EndsEnabled]
    exact ⟨fun h => ⟨fun n hn => h n (.inl hn), fun n hn => h n (.inr hn)⟩,
      fun h n hn => hn.elim (h.1 n) (h.2 n)⟩
  rw [hboth, disabledEnd]
  cases hs : disabledEnd.one c t t.source with
  | error e => simp [bind, Except.bind]
  | ok source =>
    cases ht : disabledEnd.one c t t.target with
    | error e => simp [bind, Except.bind]
    | ok target =>
      simp only [bind, Except.bind, pure, Except.pure, Except.ok.injEq, Option.or_eq_none_iff]
      exact and_comm

theorem retired_eq_self {c : Chart} {t : Transition} (h : EndsEnabled c t) :
    retired c t = .ok (t, []) := by
  simp [retired, disabledEnd_eq_none.2 h, Except.map]

theorem retired_cases {c : Chart} {t t' : Transition} {j : Journal}
    (h : retired c t = .ok (t', j)) :
    (t' = t ∧ j = [] ∧ EndsEnabled c t) ∨ t' = { t with disabled := true } := by
  rw [retired] at h
  cases hd : disabledEnd c t with
  | error e => simp [hd, Except.map] at h
  | ok o =>
    cases o with
    | none =>
      simp only [hd, Except.map, Option.map_none, Option.getD_none, Except.ok.injEq,
        Prod.mk.injEq] at h
      exact .inl ⟨h.1.symm, h.2.symm, disabledEnd_eq_none.1 hd⟩
    | some state =>
      simp only [hd, Except.map, Option.map_some, Option.getD_some, Except.ok.injEq] at h
      exact .inr (congrArg Prod.fst h).symm

theorem qualified_cases {c : Chart} {t t' : Transition} {j : Journal}
    (h : qualified c t = .ok (t', j)) :
    (t.event = none ∧ t' = t ∧ j = []) ∨
      ∃ event r, t.event = some event ∧ lookupEvent c.groups t.name event = .ok r ∧
        t' = { t with event := some r.qualified } ∧ j = resolutionEntries t.name event r := by
  rw [qualified] at h
  cases he : t.event with
  | none =>
    simp only [he, Except.ok.injEq, Prod.mk.injEq] at h
    exact .inl ⟨rfl, h.1.symm, h.2.symm⟩
  | some event =>
    cases hr : lookupEvent c.groups t.name event with
    | error e => simp [he, hr, Except.map] at h
    | ok r =>
      simp only [he, hr, Except.map, Except.ok.injEq, Prod.mk.injEq] at h
      exact .inr ⟨event, r, rfl, hr, h.1.symm, h.2.symm⟩

theorem verdict_cases {c : Chart} {t t' : Transition} {source target : String}
    {up other : Ancestry} {j : Journal} (h : verdict c t source target up other = .ok (t', j)) :
    (t' = t ∧ j = []) ∨ t' = { t with disabled := true } := by
  cases up with
  | disabled state => exact .inr (congrArg Prod.fst (Except.ok.inj h)).symm
  | complete up =>
    cases other with
    | disabled state => exact .inr (congrArg Prod.fst (Except.ok.inj h)).symm
    | complete other =>
      simp only [verdict] at h
      split at h
      · cases h
        exact .inl ⟨rfl, rfl⟩
      · cases h

theorem joined_cases {c : Chart} {t t' : Transition} {j : Journal}
    (h : joined c t = .ok (t', j)) :
    (t' = t ∧ j = []) ∨ (t.source ≠ .start ∧ t' = { t with disabled := true }) := by
  rw [joined] at h
  split at h
  · rename_i source target hs _
    have hstart : t.source ≠ .start := by
      intro he
      simp [he, Endpoint.state?] at hs
    cases ha : ancestry c source with
    | error e => simp [ha, bind, Except.bind] at h
    | ok up =>
      cases hb : ancestry c target with
      | error e => simp [ha, hb, bind, Except.bind] at h
      | ok other =>
        simp only [ha, hb, bind, Except.bind] at h
        exact (verdict_cases h).imp_right fun h => ⟨hstart, h⟩
  · cases h
    exact .inl ⟨rfl, rfl⟩

theorem retired_name {c : Chart} {t t' : Transition} {j : Journal}
    (h : retired c t = .ok (t', j)) : t'.name = t.name := by
  rcases retired_cases h with ⟨rfl, -⟩ | rfl <;> rfl

theorem qualified_name {c : Chart} {t t' : Transition} {j : Journal}
    (h : qualified c t = .ok (t', j)) : t'.name = t.name := by
  rcases qualified_cases h with ⟨-, rfl, -⟩ | ⟨_, _, -, -, rfl, -⟩ <;> rfl

theorem joined_name {c : Chart} {t t' : Transition} {j : Journal}
    (h : joined c t = .ok (t', j)) : t'.name = t.name := by
  rcases joined_cases h with ⟨rfl, -⟩ | ⟨-, rfl⟩ <;> rfl

end Validation

end Statechart
