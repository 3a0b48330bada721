import Statechart.Compile.Run
import Statechart.Proofs.Callbacks.Closure

/-!
Generation in two passes.

The pass over the transitions goes on from the routines that the pass over the states made. The
names that were given a role are not handed on; they are told again from the routines. A generator
asks of them only which role a name has, and that answer is the same. So nobody can tell whether one
generator made both passes or each had its own.
-/
set_option autoImplicit false

namespace Statechart

namespace Work

variable {ε σ α β γ : Type} {R : σ → σ → Prop}

/-- Work that cannot tell related states apart: it does the same from both, and leaves states that
are related. -/
def Respects (R : σ → σ → Prop) (w : Work ε σ α) : Prop :=
  ∀ s t, R s t → (w s).result = (w t).result ∧ (w s).journal = (w t).journal ∧
    R (w s).state (w t).state

theorem Stateless.respects {w : Work ε σ α} (hw : w.Stateless) : w.Respects R := by
  obtain ⟨j, r, hw⟩ := hw
  intro s t hst
  rw [hw, hw]
  exact ⟨rfl, rfl, hst⟩

theorem respects_modify {f : σ → σ} (hf : ∀ s t, R s t → R (f s) (f t)) :
    (modify f : Work ε σ Unit).Respects R :=
  fun s t hst => ⟨rfl, rfl, hf s t hst⟩

theorem Respects.bind {w : Work ε σ α} {f : α → Work ε σ β} (hw : w.Respects R)
    (hf : ∀ a, (f a).Respects R) : (w >>= f).Respects R := by
  intro s t hst
  obtain ⟨hresult, hjournal, hstate⟩ := hw s t hst
  rw [bind_apply, bind_apply, ← hresult, ← hjournal]
  cases (w s).result with
  | error e => exact ⟨rfl, rfl, hstate⟩
  | ok a =>
    obtain ⟨hresult', hjournal', hstate'⟩ := hf a _ _ hstate
    exact ⟨hresult', congrArg ((w s).journal ++ ·) hjournal', hstate'⟩

/-- Work that looks at the state respects a relation if it sees only what is common to related
states. -/
theorem respects_get_bind {f : σ → Work ε σ β} (hsame : ∀ s t, R s t → f s = f t)
    (hf : ∀ s, (f s).Respects R) : (get >>= f).Respects R := by
  intro s t hst
  have hs : (get >>= f) s = f s s := rfl
  have ht : (get >>= f) t = f s t := by rw [hsame s t hst]; rfl
  rw [hs, ht]
  exact hf s s t hst

theorem Respects.collect {f : γ → Work ε σ α} (hf : ∀ c, (f c).Respects R) (cs : List γ) :
    (Work.collect f cs).Respects R := by
  induction cs with
  | nil => exact (stateless_pure []).respects
  | cons c cs ih =>
    exact (hf c).bind fun a => ih.bind fun as => (stateless_pure (a :: as)).respects

end Work

namespace Generator

variable {c : Chart} {g : Generator}

structure Alike (g h : Generator) : Prop where
  out : g.out = h.out
  role : ∀ name, g.declared.lookup name = h.declared.lookup name

theorem respects_declare (name : String) (role : Role) : (declare name role).Respects Alike := by
  refine Work.respects_get_bind (fun g h hgh => by rw [hgh.role]) fun g => ?_
  cases g.declared.lookup name with
  | some other =>
    dsimp only
    split
    · exact (Work.stateless_pure false).respects
    · exact (Work.stateless_fail _).respects
  | none =>
    refine (Work.respects_modify fun g h hgh => ⟨hgh.out, fun other => ?_⟩).bind fun _ =>
      (Work.stateless_pure true).respects
    rw [List.lookup_cons, List.lookup_cons, hgh.role]

theorem respects_add (r : Routine) : (add r).Respects Alike :=
  Work.respects_modify fun g h hgh => ⟨by rw [hgh.out], hgh.role⟩

theorem respects_stub (name : String) (role : Role) (site : Site) (traced : Bool) :
    (stub name role site traced).Respects Alike := by
  refine (Work.stateless_ofExcept _).respects.bind fun _ =>
    (respects_declare name role).bind fun isNew => ?_
  have hhook : (pure (.named name) : Generate Hook).Respects Alike :=
    (Work.stateless_pure _).respects
  cases isNew with
  | true => exact (respects_add _).bind fun _ => hhook
  | false => exact hhook

theorem respects_structured (c : Chart) (name : String) (pieces : List String) (role : Role)
    (site : Site) : (structured c name pieces role site).Respects Alike := by
  refine (Work.stateless_ofExcept _).respects.bind fun _ =>
    (respects_declare name role).bind fun isNew => ?_
  have hhook : (pure (.named name) : Generate Hook).Respects Alike :=
    (Work.stateless_pure _).respects
  cases isNew with
  | true =>
    exact (stateless_body c name site.context pieces).respects.bind fun body =>
      (respects_add _).bind fun _ => hhook
  | false =>
    simp only [Bool.false_eq_true, if_false]
    split
    · exact (Work.stateless_warn _ _).respects.bind fun _ => hhook
    · exact hhook

theorem respects_reference (c : Chart) (role : Role) (site : Site) (callback : Callback) :
    (reference c role site callback).Respects Alike := by
  cases callback with
  | absent =>
    simp only [reference, absent]
    split
    · split
      · exact respects_stub _ _ _ _
      · exact respects_stub _ _ _ _
    · exact respects_stub _ _ _ _
    · exact respects_stub _ _ _ _
  | bare text =>
    simp only [reference, bare]
    split
    · -- Which call it is does not matter here.
      generalize Target.Fragment.expr? (Callback.dropCall text) = tree
      cases tree with
      | none => exact (Work.stateless_fail _).respects
      | some tree => exact (Work.stateless_pure _).respects
    · exact respects_stub _ _ _ _
  | structured name pieces => exact respects_structured c name pieces role site

theorem respects_transitionHooks (c : Chart) : (transitionHooks c).Respects Alike := by
  have hfield : ∀ role field, (Work.collect (transitionField c role field)
      c.enabledTransitions).Respects Alike := fun role field =>
    Work.Respects.collect (fun t => respects_reference c role (.transition t) (field t)) _
  refine (hfield .guard Transition.guard).bind fun guards =>
    (hfield .action Transition.action).bind fun actions =>
      (Work.respects_modify fun g h hgh => ⟨by rw [hgh.out], hgh.role⟩).bind fun _ => ?_
  exact Work.respects_get_bind (fun g h hgh => by rw [hgh.out]) fun g =>
    Work.Stateless.respects ⟨_, _, fun _ => rfl⟩

/-- The roles of the names used so far can be told from the routines. -/
theorem Tracks.alike_resume {us : List Use} (h : Tracks c us g) :
    Alike g (Generator.resume g.out) where
  out := rfl
  role := by
    intro name
    apply Option.ext
    intro role
    rw [h.declared, h.resume.declared]
    rfl

theorem transitionHooks_resume {u : Unit} (h : (stateHooks c (resume {})).result = .ok u) :
    let g := (stateHooks c (resume {})).state
    (transitionHooks c (resume g.out)).result = (transitionHooks c g).result ∧
      (transitionHooks c (resume g.out)).journal = (transitionHooks c g).journal ∧
      (transitionHooks c (resume g.out)).state.out = (transitionHooks c g).state.out := by
  have htracks := (stateHooks_yields (Tracks.empty c) (Work.yields_of_result h)).1
  obtain ⟨hresult, hjournal, halike⟩ := respects_transitionHooks c _ _ htracks.alike_resume
  exact ⟨hresult.symm, hjournal.symm, halike.out.symm⟩

def hooks (c : Chart) : Generate Unit := do
  stateHooks c
  transitionHooks c

/-- The passes by two generators, of which the second goes on from what the first made. -/
def hooksResumed (c : Chart) : Generate Unit := do
  stateHooks c
  Work.modify fun g => resume g.out
  transitionHooks c

/-- Two generators do the same as one: they make the same routines and hooks or fail alike, and have
the same to say. -/
theorem hooksResumed_agrees (c : Chart) :
    (hooksResumed c (resume {})).result = (hooks c (resume {})).result ∧
      (hooksResumed c (resume {})).journal = (hooks c (resume {})).journal ∧
      (hooksResumed c (resume {})).state.out = (hooks c (resume {})).state.out := by
  cases hstates : (stateHooks c (resume {})).result with
  | error e => simp [hooksResumed, hooks, Work.bind_apply, hstates]
  | ok u =>
    obtain ⟨hresult, hjournal, hout⟩ := transitionHooks_resume hstates
    simp only [hooksResumed, hooks, Work.bind_apply, hstates, Work.modify, List.nil_append]
    exact ⟨hresult, congrArg _ hjournal, hout⟩

end Generator

namespace Run

theorem generate_hooks {r : Run} (hr : r.callbacks = {}) :
    (do generate Generator.stateHooks; generate Generator.transitionHooks) r =
      generate Generator.hooks r := by
  have happly : ∀ pass (r : Run), generate pass r =
      let step := pass r.chart (Generator.resume r.callbacks)
      ⟨{ r with callbacks := step.state.out }, step.journal, step.result.mapError .rejected⟩ :=
    fun _ _ => rfl
  rw [Work.bind_apply]
  simp only [happly, hr]
  cases hstates : (Generator.stateHooks r.chart (Generator.resume {})).result with
  | error e => simp [Generator.hooks, Work.bind_apply, hstates]
  | ok u =>
    obtain ⟨hresult, hjournal, hout⟩ := Generator.transitionHooks_resume hstates
    simp [Generator.hooks, Work.bind_apply, hstates, hresult, hjournal, hout]

end Run

end Statechart
