import Statechart.Report.Error
import Statechart.Report.Journal

/-!
Work that may change a state, make journal entries and fail.

A failure ends the work but undoes nothing: the state keeps what was changed before it, and the
journal what was entered.
-/
set_option autoImplicit false

namespace Statechart

structure Step (ε σ α : Type) where
  state : σ
  journal : Journal
  result : Except ε α

/-- Work on a state `σ` with value `α`, failing with `ε`. -/
def Work (ε σ α : Type) : Type :=
  σ → Step ε σ α

namespace Work

variable {ε σ α β : Type}

def pure (a : α) : Work ε σ α :=
  fun s => ⟨s, [], .ok a⟩

def bind (w : Work ε σ α) (f : α → Work ε σ β) : Work ε σ β := fun s =>
  let first := w s
  match first.result with
  | .ok a =>
    let second := f a first.state
    ⟨second.state, first.journal ++ second.journal, second.result⟩
  | .error e => ⟨first.state, first.journal, .error e⟩

instance : Monad (Work ε σ) where
  pure := Work.pure
  bind := Work.bind

def fail (e : ε) : Work ε σ α :=
  fun s => ⟨s, [], .error e⟩

def get : Work ε σ σ :=
  fun s => ⟨s, [], .ok s⟩

def modify (f : σ → σ) : Work ε σ Unit :=
  fun s => ⟨f s, [], .ok ()⟩

def enter (e : Entry) : Work ε σ Unit :=
  fun s => ⟨s, [e], .ok ()⟩

def warn (concern : Concern) (message : String) : Work ε σ Unit :=
  enter (.warning ⟨concern, message⟩)

def note (level : Level) (message : String) (fields : List (String × String)) :
    Work ε σ Unit :=
  enter (.note ⟨level, message, fields⟩)

def warnAll (concern : Concern) : List String → Work ε σ Unit
  | [] => pure ()
  | m :: ms => bind (warn concern m) fun _ => warnAll concern ms

def ofExcept (r : Except ε α) : Work ε σ α :=
  fun s => ⟨s, [], r⟩

/-- Work on every member, in order, up to the first failure. -/
def each {γ : Type} (f : γ → Work ε σ Unit) : List γ → Work ε σ Unit
  | [] => pure ()
  | c :: cs => bind (f c) fun _ => each f cs

/-- The values of work on every member, up to the first failure. -/
def collect {γ : Type} (f : γ → Work ε σ α) : List γ → Work ε σ (List α)
  | [] => pure []
  | c :: cs => bind (f c) fun a => bind (collect f cs) fun as => pure (a :: as)

/-- Work on a part of a larger state, with failures seen as those of the larger work. -/
def within {ε' τ : Type} (part : τ → σ) (put : σ → τ → τ) (widen : ε → ε') (w : Work ε σ α) :
    Work ε' τ α := fun t =>
  let inner := w (part t)
  ⟨put inner.state t, inner.journal, inner.result.mapError widen⟩

/-- The same work, where a failure is entered in the journal and seen as another one. -/
def reporting {ε' : Type} (entries : ε → Journal) (widen : ε → ε') (w : Work ε σ α) :
    Work ε' σ α := fun s =>
  let inner := w s
  match inner.result with
  | .ok a => ⟨inner.state, inner.journal, .ok a⟩
  | .error e => ⟨inner.state, inner.journal ++ entries e, .error (widen e)⟩

@[simp] theorem pure_apply (a : α) (s : σ) :
    (Pure.pure a : Work ε σ α) s = ⟨s, [], .ok a⟩ := rfl

theorem bind_apply (w : Work ε σ α) (f : α → Work ε σ β) (s : σ) :
    (w >>= f) s =
      match (w s).result with
      | .ok a =>
        ⟨(f a (w s).state).state, (w s).journal ++ (f a (w s).state).journal,
          (f a (w s).state).result⟩
      | .error e => ⟨(w s).state, (w s).journal, .error e⟩ := rfl

theorem bind_result_eq_ok {w : Work ε σ α} {f : α → Work ε σ β} {s : σ} {b : β} :
    ((w >>= f) s).result = .ok b ↔
      ∃ a, (w s).result = .ok a ∧ (f a (w s).state).result = .ok b := by
  rw [bind_apply]
  cases (w s).result <;> simp

end Work

end Statechart
