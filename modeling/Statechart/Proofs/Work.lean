import Statechart.Report.Work

/-!
Results, and work that goes through.

`w.Yields s a j s'` says that from the state `s` the work `w` succeeds with value `a`, makes the
entries `j` and leaves `s'`. There is one rule for each way to make work, so a long piece of work is
taken apart, and put together again, by rewriting.
-/
set_option autoImplicit false

namespace Statechart

variable {ε σ α β γ : Type}

theorem ok_of_toOption {r : Except ε α} {a : α} (h : r.toOption = some a) : r = .ok a := by
  cases r with
  | error e => cases h
  | ok b => exact congrArg _ (Option.some.inj h)

theorem exists_of_toOption {r : Except ε α} (h : r.toOption.isSome = true) : ∃ a, r = .ok a := by
  obtain ⟨a, ha⟩ := Option.isSome_iff_exists.1 h
  exact ⟨a, ok_of_toOption ha⟩

theorem bind_eq_ok {r : Except ε α} {f : α → Except ε β} {b : β} :
    (r >>= f) = .ok b ↔ ∃ a, r = .ok a ∧ f a = .ok b := by
  cases r with
  | error e => simp [bind, Except.bind]
  | ok a => simp [bind, Except.bind]

theorem map_eq_ok {r : Except ε α} {f : α → β} {b : β} :
    r.map f = .ok b ↔ ∃ a, r = .ok a ∧ f a = b := by
  cases r with
  | error e => simp [Except.map]
  | ok a => simp [Except.map]

@[simp] theorem mapError_ok {ε' : Type} (f : ε → ε') (a : α) :
    (Except.ok a : Except ε α).mapError f = .ok a := rfl

@[simp] theorem mapError_error {ε' : Type} (f : ε → ε') (e : ε) :
    (Except.error e : Except ε α).mapError f = .error (f e) := rfl

theorem mapError_eq_ok {ε' : Type} {r : Except ε α} {f : ε → ε'} {a : α} :
    r.mapError f = .ok a ↔ r = .ok a := by
  cases r <;> simp

/-- A result that fails for given reasons only. -/
def FailsFor (P : ε → Prop) (r : Except ε α) : Prop :=
  ∀ e, r = .error e → P e

section

variable {P : ε → Prop} {r : Except ε α}

theorem failsFor_of_eq_ok {a : α} (h : r = .ok a) : FailsFor P r := by
  intro e he
  cases h.symm.trans he

theorem failsFor_pure (a : α) : FailsFor P (Pure.pure a : Except ε α) :=
  failsFor_of_eq_ok rfl

theorem failsFor_bind {f : α → Except ε β} (hr : FailsFor P r)
    (hf : ∀ a, r = .ok a → FailsFor P (f a)) : FailsFor P (r >>= f) := by
  cases r with
  | error fault =>
    intro e he
    exact hr e (congrArg _ (Except.error.inj he))
  | ok a => exact hf a rfl

theorem failsFor_map {f : α → β} (hr : FailsFor P r) : FailsFor P (r.map f) := by
  cases r with
  | error fault =>
    intro e he
    exact hr e (congrArg _ (Except.error.inj he))
  | ok a => exact failsFor_of_eq_ok rfl

theorem failsFor_mapError {ε' : Type} {f : ε → ε'} {Q : ε' → Prop}
    (h : FailsFor (fun e => Q (f e)) r) : FailsFor Q (r.mapError f) := by
  cases r with
  | error fault =>
    intro e he
    cases he
    exact h fault rfl
  | ok a => exact failsFor_of_eq_ok rfl

end

def ofFault : Option ε → Except ε Unit
  | none => .ok ()
  | some e => .error e

theorem ofFault_eq_ok {o : Option ε} {u : Unit} : ofFault o = .ok u ↔ o = none := by
  cases o <;> simp [ofFault]

theorem ofFault_eq_error {o : Option ε} {e : ε} : ofFault o = .error e ↔ o = some e := by
  cases o <;> simp [ofFault]

def fault? : Except ε α → Option ε
  | .ok _ => none
  | .error e => some e

theorem fault?_eq_none {r : Except ε α} : fault? r = none ↔ ∃ a, r = .ok a := by
  cases r <;> simp [fault?]

theorem fault?_eq_some {r : Except ε α} {e : ε} : fault? r = some e ↔ r = .error e := by
  cases r <;> simp [fault?]

namespace Work

def Yields (w : Work ε σ α) (s : σ) (a : α) (j : Journal) (s' : σ) : Prop :=
  w s = ⟨s', j, .ok a⟩

theorem yields_of_result {w : Work ε σ α} {s : σ} {a : α} (h : (w s).result = .ok a) :
    w.Yields s a (w s).journal (w s).state := by
  rw [Yields, ← h]

theorem yields_of_parts {w : Work ε σ α} {s s' : σ} {a : α} {j : Journal}
    (hr : (w s).result = .ok a) (hj : (w s).journal = j) (hs : (w s).state = s') :
    w.Yields s a j s' := by
  subst hj hs
  exact yields_of_result hr

theorem Yields.state_eq {w : Work ε σ α} {s s' : σ} {a : α} {j : Journal}
    (h : w.Yields s a j s') : (w s).state = s' := by
  rw [h]

theorem Yields.journal_eq {w : Work ε σ α} {s s' : σ} {a : α} {j : Journal}
    (h : w.Yields s a j s') : (w s).journal = j := by
  rw [h]

theorem Yields.result_eq {w : Work ε σ α} {s s' : σ} {a : α} {j : Journal}
    (h : w.Yields s a j s') : (w s).result = .ok a := by
  rw [h]

@[simp] theorem yields_pure {a b : α} {s s' : σ} {j : Journal} :
    (Pure.pure a : Work ε σ α).Yields s b j s' ↔ b = a ∧ j = [] ∧ s' = s := by
  simp only [Yields, pure_apply, Step.mk.injEq, Except.ok.injEq]
  constructor
  · rintro ⟨rfl, rfl, rfl⟩
    exact ⟨rfl, rfl, rfl⟩
  · rintro ⟨rfl, rfl, rfl⟩
    exact ⟨rfl, rfl, rfl⟩

@[simp] theorem yields_bind {w : Work ε σ α} {f : α → Work ε σ β} {s s'' : σ} {b : β}
    {j : Journal} :
    (w >>= f).Yields s b j s'' ↔
      ∃ a j₁ s' j₂, w.Yields s a j₁ s' ∧ (f a).Yields s' b j₂ s'' ∧ j = j₁ ++ j₂ := by
  constructor
  · intro h
    obtain ⟨a, ha, hb⟩ := bind_result_eq_ok.1 h.result_eq
    simp only [Yields, bind_apply, ha, Step.mk.injEq] at h
    obtain ⟨rfl, rfl, -⟩ := h
    exact ⟨a, _, _, _, yields_of_result ha, yields_of_result hb, rfl⟩
  · rintro ⟨a, j₁, s', j₂, hw, hf, rfl⟩
    simp only [Yields] at hw hf
    simp only [Yields, bind_apply, hw, hf]

@[simp] theorem yields_fail {e : ε} {s s' : σ} {a : α} {j : Journal} :
    ¬ (fail e : Work ε σ α).Yields s a j s' := by
  simp [Yields, fail]

@[simp] theorem yields_get {s t s' : σ} {j : Journal} :
    (get : Work ε σ σ).Yields s t j s' ↔ t = s ∧ j = [] ∧ s' = s := by
  simp only [Yields, get, Step.mk.injEq, Except.ok.injEq]
  grind

@[simp] theorem yields_modify {f : σ → σ} {s s' : σ} {u : Unit} {j : Journal} :
    (modify f : Work ε σ Unit).Yields s u j s' ↔ j = [] ∧ s' = f s := by
  simp only [Yields, modify, Step.mk.injEq]
  grind

@[simp] theorem yields_enter {e : Entry} {s s' : σ} {u : Unit} {j : Journal} :
    (enter e : Work ε σ Unit).Yields s u j s' ↔ j = [e] ∧ s' = s := by
  simp only [Yields, enter, Step.mk.injEq]
  grind

@[simp] theorem yields_warn {concern : Concern} {message : String} {s s' : σ} {u : Unit}
    {j : Journal} :
    (warn concern message : Work ε σ Unit).Yields s u j s' ↔
      j = [.warning ⟨concern, message⟩] ∧ s' = s :=
  yields_enter

@[simp] theorem yields_note {level : Level} {message : String} {fields : List (String × String)}
    {s s' : σ} {u : Unit} {j : Journal} :
    (note level message fields : Work ε σ Unit).Yields s u j s' ↔
      j = [.note ⟨level, message, fields⟩] ∧ s' = s :=
  yields_enter

@[simp] theorem yields_ofExcept {r : Except ε α} {s s' : σ} {a : α} {j : Journal} :
    (ofExcept r : Work ε σ α).Yields s a j s' ↔ r = .ok a ∧ j = [] ∧ s' = s := by
  simp only [Yields, ofExcept, Step.mk.injEq]
  grind

theorem yields_get_bind {f : σ → Work ε σ β} {s s' : σ} {b : β} {j : Journal} :
    (get >>= f).Yields s b j s' ↔ (f s).Yields s b j s' := by
  simp only [yields_bind, yields_get]
  constructor
  · rintro ⟨_, _, _, _, ⟨rfl, rfl, rfl⟩, h, rfl⟩
    exact h
  · intro h
    exact ⟨s, [], s, j, ⟨rfl, rfl, rfl⟩, h, rfl⟩

theorem yields_modify_bind {f : σ → σ} {k : Unit → Work ε σ β} {s s' : σ} {b : β} {j : Journal} :
    (modify f >>= k).Yields s b j s' ↔ (k ()).Yields (f s) b j s' := by
  simp only [yields_bind, yields_modify]
  constructor
  · rintro ⟨_, _, _, _, ⟨rfl, rfl⟩, h, rfl⟩
    exact h
  · intro h
    exact ⟨(), [], f s, j, ⟨rfl, rfl⟩, h, rfl⟩

theorem yields_ofExcept_bind {r : Except ε α} {k : α → Work ε σ β} {s s' : σ} {b : β}
    {j : Journal} :
    (ofExcept r >>= k).Yields s b j s' ↔ ∃ a, r = .ok a ∧ (k a).Yields s b j s' := by
  simp only [yields_bind, yields_ofExcept]
  constructor
  · rintro ⟨a, _, _, _, ⟨hr, rfl, rfl⟩, h, rfl⟩
    exact ⟨a, hr, h⟩
  · rintro ⟨a, hr, h⟩
    exact ⟨a, [], s, j, ⟨hr, rfl, rfl⟩, h, rfl⟩

theorem ofExcept_bind_congr {r : Except ε α} {k k' : α → Work ε σ β}
    (h : ∀ a, r = .ok a → k a = k' a) : (ofExcept r >>= k) = (ofExcept r >>= k') := by
  funext s
  cases r with
  | error e => simp only [bind_apply, ofExcept]
  | ok a => simp only [bind_apply, ofExcept, h a rfl]

theorem yields_warn_bind {concern : Concern} {message : String} {k : Unit → Work ε σ β}
    {s s' : σ} {b : β} {j : Journal} :
    (warn concern message >>= k).Yields s b j s' ↔
      ∃ j', (k ()).Yields s b j' s' ∧ j = .warning ⟨concern, message⟩ :: j' := by
  simp only [yields_bind, yields_warn]
  constructor
  · rintro ⟨_, _, _, j', ⟨rfl, rfl⟩, h, rfl⟩
    exact ⟨j', h, rfl⟩
  · rintro ⟨j', h, rfl⟩
    exact ⟨(), _, s, j', ⟨rfl, rfl⟩, h, rfl⟩

def warningsOf (concern : Concern) (messages : List String) : Journal :=
  messages.map fun m => .warning ⟨concern, m⟩

@[simp] theorem yields_warnAll {concern : Concern} {messages : List String} {s s' : σ} {u : Unit}
    {j : Journal} :
    (warnAll concern messages : Work ε σ Unit).Yields s u j s' ↔
      j = warningsOf concern messages ∧ s' = s := by
  induction messages generalizing s j with
  | nil =>
    have h : (warnAll concern [] : Work ε σ Unit) = Pure.pure () := rfl
    simp [h, warningsOf]
  | cons m ms ih =>
    have h : (warnAll concern (m :: ms) : Work ε σ Unit) =
        warn concern m >>= fun _ => warnAll concern ms := rfl
    simp only [h, yields_bind, yields_warn, ih]
    constructor
    · rintro ⟨_, _, _, _, ⟨rfl, rfl⟩, ⟨rfl, rfl⟩, rfl⟩
      exact ⟨rfl, rfl⟩
    · rintro ⟨rfl, rfl⟩
      exact ⟨(), _, _, _, ⟨rfl, rfl⟩, ⟨rfl, rfl⟩, rfl⟩

theorem yields_warnAll_bind {concern : Concern} {messages : List String} {k : Unit → Work ε σ β}
    {s s' : σ} {b : β} {j : Journal} :
    (warnAll concern messages >>= k).Yields s b j s' ↔
      ∃ j', (k ()).Yields s b j' s' ∧ j = warningsOf concern messages ++ j' := by
  simp only [yields_bind, yields_warnAll]
  constructor
  · rintro ⟨_, _, _, j', ⟨rfl, rfl⟩, h, rfl⟩
    exact ⟨j', h, rfl⟩
  · rintro ⟨j', h, rfl⟩
    exact ⟨(), _, s, j', ⟨rfl, rfl⟩, h, rfl⟩

/-- Work with the same effect, whatever it has to say. -/
def Matches (w w' : Work ε σ α) : Prop :=
  ∀ s, (w s).state = (w' s).state ∧ (w s).result = (w' s).result

theorem Matches.refl (w : Work ε σ α) : w.Matches w :=
  fun _ => ⟨rfl, rfl⟩

theorem Matches.symm {w w' : Work ε σ α} (h : w.Matches w') : w'.Matches w :=
  fun s => ⟨(h s).1.symm, (h s).2.symm⟩

theorem Matches.trans {w w' w'' : Work ε σ α} (h : w.Matches w') (h' : w'.Matches w'') :
    w.Matches w'' :=
  fun s => ⟨(h s).1.trans (h' s).1, (h s).2.trans (h' s).2⟩

theorem Matches.bind {w w' : Work ε σ α} {f f' : α → Work ε σ β} (hw : w.Matches w')
    (hf : ∀ a, (f a).Matches (f' a)) : (w >>= f).Matches (w' >>= f') := by
  intro s
  obtain ⟨hstate, hresult⟩ := hw s
  rw [bind_apply, bind_apply, ← hstate, ← hresult]
  cases (w s).result with
  | error e => exact ⟨rfl, rfl⟩
  | ok a => exact hf a (w s).state

theorem yields_within {ε' τ : Type} {part : τ → σ} {put : σ → τ → τ} {widen : ε → ε'}
    {w : Work ε σ α} {t t' : τ} {a : α} {j : Journal} :
    (w.within part put widen).Yields t a j t' ↔
      ∃ s', w.Yields (part t) a j s' ∧ t' = put s' t := by
  constructor
  · intro h
    simp only [Yields, within, Step.mk.injEq] at h
    obtain ⟨rfl, rfl, hr⟩ := h
    exact ⟨_, yields_of_result (mapError_eq_ok.1 hr), rfl⟩
  · rintro ⟨s', h, rfl⟩
    simp only [Yields] at h
    simp only [Yields, within, h, mapError_ok]

theorem yields_reporting {ε' : Type} {entries : ε → Journal} {widen : ε → ε'} {w : Work ε σ α}
    {s s' : σ} {a : α} {j : Journal} :
    (w.reporting entries widen).Yields s a j s' ↔ w.Yields s a j s' := by
  simp only [Yields, reporting]
  generalize w s = step
  obtain ⟨t, j', r⟩ := step
  cases r with
  | error e => simp
  | ok b => simp

@[simp] theorem yields_each_nil {f : γ → Work ε σ Unit} {s s' : σ} {u : Unit} {j : Journal} :
    (each f []).Yields s u j s' ↔ j = [] ∧ s' = s := by
  have h : (each f [] : Work ε σ Unit) = Pure.pure () := rfl
  simp [h]

@[simp] theorem yields_each_cons {f : γ → Work ε σ Unit} {c : γ} {cs : List γ} {s s'' : σ}
    {u : Unit} {j : Journal} :
    (each f (c :: cs)).Yields s u j s'' ↔
      ∃ j₁ s' j₂, (f c).Yields s () j₁ s' ∧ (each f cs).Yields s' () j₂ s'' ∧ j = j₁ ++ j₂ := by
  have h : (each f (c :: cs) : Work ε σ Unit) = f c >>= fun _ => each f cs := rfl
  simp only [h, yields_bind]
  exact ⟨fun ⟨_, h⟩ => h, fun h => ⟨(), h⟩⟩

theorem yields_each_check {f : γ → Work ε σ Unit} {P : γ → Prop} {cs : List γ} {s s' : σ} {u : Unit}
    {j : Journal}
    (hf : ∀ c j s', (f c).Yields s () j s' ↔ P c ∧ j = [] ∧ s' = s) :
    (each f cs).Yields s u j s' ↔ (∀ c ∈ cs, P c) ∧ j = [] ∧ s' = s := by
  induction cs generalizing j with
  | nil => simp
  | cons c cs ih =>
    simp only [yields_each_cons, hf]
    constructor
    · rintro ⟨_, _, _, ⟨hc, rfl, rfl⟩, h, rfl⟩
      obtain ⟨hcs, rfl, rfl⟩ := ih.1 h
      exact ⟨List.forall_mem_cons.2 ⟨hc, hcs⟩, rfl, rfl⟩
    · rintro ⟨h, rfl, rfl⟩
      obtain ⟨hc, hcs⟩ := List.forall_mem_cons.1 h
      exact ⟨[], s', [], ⟨hc, rfl, rfl⟩, ih.2 ⟨hcs, rfl, rfl⟩, rfl⟩

theorem each_checks {f : γ → Work ε σ Unit} {fault : γ → Option ε} {cs : List γ} {s : σ}
    (hf : ∀ c ∈ cs, f c s = ⟨s, [], ofFault (fault c)⟩) :
    each f cs s = ⟨s, [], ofFault (cs.findSome? fault)⟩ := by
  induction cs with
  | nil => rfl
  | cons c cs ih =>
    obtain ⟨hc, hcs⟩ := List.forall_mem_cons.1 hf
    have heach : each f (c :: cs) s = (f c >>= fun _ => each f cs) s := rfl
    rw [heach, bind_apply, hc, List.findSome?_cons]
    cases fault c with
    | some e => rfl
    | none => simp [ofFault, ih hcs]

/-- What the work on each member preserves is preserved, whether all of it goes through or not. -/
theorem each_preserves {f : γ → Work ε σ Unit} {P : σ → Prop} {cs : List γ} {s : σ} (hs : P s)
    (hstep : ∀ c ∈ cs, ∀ t, P t → P (f c t).state) : P (each f cs s).state := by
  induction cs generalizing s with
  | nil => exact hs
  | cons c cs ih =>
    obtain ⟨hc, hcs⟩ := List.forall_mem_cons.1 hstep
    have hfirst := hc s hs
    have heach : each f (c :: cs) s = (f c >>= fun _ => each f cs) s := rfl
    rw [heach, bind_apply]
    cases (f c s).result with
    | ok u => exact ih hfirst hcs
    | error e => exact hfirst

theorem result_bind (w : Work ε σ α) (f : α → Work ε σ β) (s : σ) :
    ((w >>= f) s).result = (w s).result >>= fun a => (f a (w s).state).result := by
  rw [bind_apply]
  cases (w s).result with
  | error e => rfl
  | ok a => rfl

/-- What was done before a failure stays: `w.Fails s e s'` says that from the state `s` the work `w`
fails with `e` and leaves `s'`. -/
def Fails (w : Work ε σ α) (s : σ) (e : ε) (s' : σ) : Prop :=
  (w s).result = .error e ∧ (w s).state = s'

theorem yields_or_fails (w : Work ε σ α) (s : σ) :
    (∃ a j s', w.Yields s a j s') ∨ ∃ e s', w.Fails s e s' := by
  cases h : (w s).result with
  | ok a => exact .inl ⟨a, _, _, yields_of_result h⟩
  | error e => exact .inr ⟨e, _, h, rfl⟩

theorem fails_fail {e e' : ε} {s s' : σ} :
    (fail e : Work ε σ α).Fails s e' s' ↔ e' = e ∧ s' = s := by
  simp only [Fails, fail, Except.error.injEq, eq_comm]

theorem not_fails_note {level : Level} {message : String} {fields : List (String × String)}
    {s s' : σ} {e : ε} : ¬ (note level message fields : Work ε σ Unit).Fails s e s' := by
  simp [Fails, note, enter]

theorem fails_bind {w : Work ε σ α} {f : α → Work ε σ β} {s s' : σ} {e : ε} :
    (w >>= f).Fails s e s' ↔
      w.Fails s e s' ∨ ∃ a j t, w.Yields s a j t ∧ (f a).Fails t e s' := by
  cases hw : (w s).result with
  | error e' =>
    have hno : ∀ a j t, ¬ w.Yields s a j t := by
      intro a j t h
      simp [h.result_eq] at hw
    simp [Fails, bind_apply, hw, hno]
  | ok a =>
    have hyes := yields_of_result hw
    simp only [Fails, bind_apply, hw, reduceCtorEq, false_and, false_or]
    constructor
    · intro h
      exact ⟨a, _, _, hyes, h⟩
    · rintro ⟨b, j, t, hb, h⟩
      obtain rfl : a = b := by simpa [hw] using hb.result_eq
      rwa [hb.state_eq]

theorem fails_get_bind {f : σ → Work ε σ β} {s s' : σ} {e : ε} :
    (get >>= f).Fails s e s' ↔ (f s).Fails s e s' :=
  Iff.rfl

theorem fails_modify_bind {f : σ → σ} {k : Unit → Work ε σ β} {s s' : σ} {e : ε} :
    (modify f >>= k).Fails s e s' ↔ (k ()).Fails (f s) e s' :=
  Iff.rfl

theorem fails_warnAll_bind {concern : Concern} {messages : List String} {k : Unit → Work ε σ β}
    {s s' : σ} {e : ε} :
    (warnAll concern messages >>= k).Fails s e s' ↔ (k ()).Fails s e s' := by
  have h : (warnAll concern messages : Work ε σ Unit).Yields s ()
      (warningsOf concern messages) s := yields_warnAll.2 ⟨rfl, rfl⟩
  simp only [Fails, bind_apply, h.result_eq, h.state_eq]

theorem fails_note_bind {level : Level} {message : String} {fields : List (String × String)}
    {f : Unit → Work ε σ β} {s s' : σ} {e : ε} :
    (note level message fields >>= f).Fails s e s' ↔ (f ()).Fails s e s' :=
  Iff.rfl

theorem fails_reporting {ε' : Type} {entries : ε → Journal} {widen : ε → ε'} {w : Work ε σ α}
    {s s' : σ} {e' : ε'} :
    (w.reporting entries widen).Fails s e' s' ↔ ∃ e, w.Fails s e s' ∧ e' = widen e := by
  unfold Fails reporting
  cases hw : (w s).result with
  | ok a => simp [hw]
  | error e =>
    simp only [hw]
    constructor
    · intro h
      exact ⟨e, ⟨rfl, h.2⟩, (Except.error.inj h.1).symm⟩
    · intro h
      obtain ⟨_, ⟨he, hstate⟩, rfl⟩ := h
      obtain rfl := Except.error.inj he
      exact ⟨rfl, hstate⟩

theorem fails_ofExcept {r : Except ε α} {s s' : σ} {e : ε} :
    (ofExcept r : Work ε σ α).Fails s e s' ↔ r = .error e ∧ s = s' :=
  Iff.rfl

theorem fails_each_nil {f : γ → Work ε σ Unit} {s s' : σ} {e : ε} :
    ¬ (each f []).Fails s e s' := by
  have h : (each f [] : Work ε σ Unit) = Pure.pure () := rfl
  simp [h, Fails]

theorem fails_each_cons {f : γ → Work ε σ Unit} {c : γ} {cs : List γ} {s s' : σ} {e : ε} :
    (each f (c :: cs)).Fails s e s' ↔
      (f c).Fails s e s' ∨ ∃ j t, (f c).Yields s () j t ∧ (each f cs).Fails t e s' := by
  have h : (each f (c :: cs) : Work ε σ Unit) = f c >>= fun _ => each f cs := rfl
  rw [h, fails_bind]
  exact or_congr_right ⟨fun ⟨_, h⟩ => h, fun h => ⟨(), h⟩⟩

@[simp] theorem yields_collect_nil {f : γ → Work ε σ α} {s s' : σ} {as : List α} {j : Journal} :
    (collect f []).Yields s as j s' ↔ as = [] ∧ j = [] ∧ s' = s := by
  have h : (collect f [] : Work ε σ (List α)) = Pure.pure [] := rfl
  simp [h]

@[simp] theorem yields_collect_cons {f : γ → Work ε σ α} {c : γ} {cs : List γ} {s s'' : σ}
    {as : List α} {j : Journal} :
    (collect f (c :: cs)).Yields s as j s'' ↔
      ∃ a j₁ s' as' j₂, (f c).Yields s a j₁ s' ∧ (collect f cs).Yields s' as' j₂ s'' ∧
        as = a :: as' ∧ j = j₁ ++ j₂ := by
  have h : (collect f (c :: cs) : Work ε σ (List α)) =
      f c >>= fun a => collect f cs >>= fun as => Pure.pure (a :: as) := rfl
  simp only [h, yields_bind, yields_pure]
  constructor
  · rintro ⟨a, j₁, s', _, hf, ⟨as', j₂, _, _, hc, ⟨rfl, rfl, rfl⟩, rfl⟩, rfl⟩
    exact ⟨a, j₁, s', as', j₂, hf, hc, rfl, by simp⟩
  · rintro ⟨a, j₁, s', as', j₂, hf, hc, rfl, rfl⟩
    exact ⟨a, j₁, s', j₂, hf, ⟨as', j₂, s'', [], hc, ⟨rfl, rfl, rfl⟩, by simp⟩, rfl⟩

theorem fails_collect_nil {f : γ → Work ε σ α} {s s' : σ} {e : ε} :
    ¬ (collect f []).Fails s e s' := by
  have h : (collect f [] : Work ε σ (List α)) = Pure.pure [] := rfl
  simp [h, Fails]

theorem fails_collect_cons {f : γ → Work ε σ α} {c : γ} {cs : List γ} {s s' : σ} {e : ε} :
    (collect f (c :: cs)).Fails s e s' ↔
      (f c).Fails s e s' ∨ ∃ a j t, (f c).Yields s a j t ∧ (collect f cs).Fails t e s' := by
  have h : (collect f (c :: cs) : Work ε σ (List α)) =
      f c >>= fun a => collect f cs >>= fun as => Pure.pure (a :: as) := rfl
  have hpure : ∀ (as : List α) (t : σ), ¬ (Pure.pure as : Work ε σ _).Fails t e s' := by
    simp [Fails]
  simp only [h, fails_bind, hpure, and_false, exists_false, or_false]

end Work

end Statechart
