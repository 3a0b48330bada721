import Statechart.Proofs.Lists
import Statechart.Proofs.Module.Instructions

/-!
The constructor, run.

Each call on the chart that is built gives a new handle. A variable has the handle that it was last
bound to, so a binding hides an earlier one of the same variable.
-/
set_option autoImplicit false

namespace Statechart.Module

open Target

/-- When two spellings are the same variable: when they have the same normal form. Whatever the
normal form does to other characters, it leaves the words alone that the constructor puts in. -/
structure Spelling where
  form : String → String
  form_st : ∀ s, form ("st_" ++ s) = "st_" ++ form s
  form_start : ∀ s, form ("start_" ++ s) = "start_" ++ form s
  form_top : form "top" = "top"
  form_end : form "end" = "end"

namespace Spelling

def exact : Spelling := ⟨id, fun _ => rfl, fun _ => rfl, rfl, rfl⟩

def key (sp : Spelling) (i : Ident) : String :=
  sp.form i.text

theorem key_state (sp : Spelling) (name : String) :
    sp.key (stateIdent name) = "st_" ++ sp.form (stem name) :=
  sp.form_st (stem name)

theorem key_start (sp : Spelling) (parent : Option String) :
    sp.key (startIdent parent) =
      "start_" ++ (parent.map fun p => sp.form (stem p)).getD "top" := by
  cases parent with
  | none => exact (sp.form_start "top").trans (congrArg _ sp.form_top)
  | some p => exact sp.form_start (stem p)

theorem state_ne_start (sp : Spelling) (name : String) (parent : Option String) :
    sp.key (stateIdent name) ≠ sp.key (startIdent parent) := by
  rw [key_state, key_start]
  intro h
  simpa using congrArg String.toList h

theorem state_ne_end (sp : Spelling) (name : String) :
    sp.key (stateIdent name) ≠ sp.key endName := by
  rw [key_state, show sp.key endName = "end" from sp.form_end]
  intro h
  simpa using congrArg String.toList h

theorem start_ne_end (sp : Spelling) (parent : Option String) :
    sp.key (startIdent parent) ≠ sp.key endName := by
  rw [key_start, show sp.key endName = "end" from sp.form_end]
  intro h
  simpa using congrArg String.toList h

theorem top_ne (sp : Spelling) :
    (∀ name, sp.key topName ≠ sp.key (stateIdent name)) ∧
      (∀ parent, sp.key topName ≠ sp.key (startIdent parent)) ∧
      sp.key topName ≠ sp.key endName := by
  have htop : sp.key topName = "top" := sp.form_top
  refine ⟨fun name h => ?_, fun parent h => ?_, ?_⟩
  · rw [htop, key_state] at h
    simpa using congrArg String.toList h
  · rw [htop, key_start] at h
    simpa using congrArg String.toList h
  · rw [htop, show sp.key endName = "end" from sp.form_end]
    decide

end Spelling

inductive Handle where
  /-- The chart itself. -/
  | root
  /-- What the call at a position gave. -/
  | made (position : Nat)
  deriving DecidableEq, Repr

/-- A call with the values of its arguments; a variable that was not bound has none. -/
inductive Call where
  | addState (parent : Option Handle) (name : String)
  | startState (owner : Option Handle)
  | endState
  | addTransition (source target : Option Handle)
  deriving DecidableEq, Repr

abbrev Env := List (String × Handle)

namespace Instruction

def binding? : Instruction → Option String
  | addState binding _ _ _ _ => some binding
  | startState binding _ => some binding
  | endState binding => some binding
  | addTransition _ _ _ _ => none

def call (value : String → Option Handle) : Instruction → Call
  | addState _ parent name _ _ => .addState (value parent) name
  | startState _ owner => .startState (value owner)
  | endState _ => .endState
  | addTransition source target _ _ => .addTransition (value source) (value target)

end Instruction

def Env.after (env : Env) (position : Nat) : (binding : Option String) → Env
  | some v => (v, .made position) :: env
  | none => env

section

variable (sp : Spelling)

/-- Carries out calls, the first of which is at a position. -/
def execute : (position : Nat) → Env → List Instruction → List Call
  | _, _, [] => []
  | position, env, i :: is =>
    i.call (fun v => env.lookup (sp.form v)) ::
      execute (position + 1) (env.after position (i.binding?.map sp.form)) is

def calls (is : List Instruction) : List Call :=
  execute sp 0 [(sp.form "top", .root)] is

end

namespace Part

def binding? : Part → Option Ident
  | state s => some (stateIdent s.name)
  | start parent => some (startIdent parent)
  | stop => some endName
  | link _ => none

def call (c : Chart) (value : Ident → Option Handle) : Part → Call
  | state s => .addState (value (homeIdent s.parent)) s.name
  | start parent => .startState (value (homeIdent parent))
  | stop => .endState
  | link t => .addTransition (value (sourceIdent c t)) (value (targetIdent t))

def key? (sp : Spelling) (p : Part) : Option String :=
  p.binding?.map sp.key

end Part

theorem Tells.binding_eq {c : Chart} {callbacks : Callbacks} {p : Part} {i : Instruction}
    (h : Tells c callbacks p i) : i.binding? = p.binding?.map Ident.text := by
  obtain ⟨w, hw, hi⟩ := h
  cases hw <;> cases hi <;> rfl

theorem Tells.key_eq {c : Chart} {callbacks : Callbacks} {p : Part} {i : Instruction}
    (h : Tells c callbacks p i) (sp : Spelling) : i.binding?.map sp.form = p.key? sp := by
  rw [h.binding_eq, Option.map_map]
  rfl

theorem Tells.call_eq {c : Chart} {callbacks : Callbacks} {p : Part} {i : Instruction}
    (h : Tells c callbacks p i) (value : String → Option Handle) :
    i.call value = p.call c fun i => value i.text := by
  obtain ⟨w, hw, hi⟩ := h
  cases hw <;> cases hi <;> rfl

section

variable (sp : Spelling) (c : Chart)

def Env.value (env : Env) (i : Ident) : Option Handle :=
  env.lookup (sp.key i)

def known (ps : List Part) : Env :=
  (ps.foldl (fun (env : Env × Nat) p => (env.1.after env.2 (p.key? sp), env.2 + 1))
    ([(sp.key topName, .root)], 0)).1

def partCalls : (before : List Part) → List Part → List Call
  | _, [] => []
  | before, p :: ps => p.call c ((known sp before).value sp) :: partCalls (before ++ [p]) ps

end

section

variable {sp : Spelling} {c : Chart}

theorem known_snoc (ps : List Part) (p : Part) :
    known sp (ps ++ [p]) = (known sp ps).after ps.length (p.key? sp) := by
  have hlen : ∀ (ps : List Part) (env : Env × Nat),
      (ps.foldl (fun (env : Env × Nat) p => (env.1.after env.2 (p.key? sp), env.2 + 1)) env).2 =
        env.2 + ps.length := by
    intro ps
    induction ps with
    | nil => simp
    | cons p ps ih =>
      intro env
      simp only [List.foldl_cons, ih, List.length_cons]
      omega
  simp only [known, List.foldl_append, List.foldl_cons, List.foldl_nil, hlen]
  simp

theorem execute_eq_partCalls {callbacks : Callbacks} (before : List Part) {ps : List Part}
    {is : List Instruction} (h : List.Forall₂ (Tells c callbacks) ps is) :
    execute sp before.length (known sp before) is = partCalls sp c before ps := by
  induction h generalizing before with
  | nil => rfl
  | @cons p i ps is hp _ ih =>
    have hrest := ih (before ++ [p])
    simp only [known_snoc, List.length_append, List.length_singleton] at hrest
    simp only [execute, partCalls, hp.key_eq, hp.call_eq, hrest]
    rfl

theorem known_lookup_snoc (ps : List Part) (p : Part) (v : String) :
    (known sp (ps ++ [p])).lookup v =
      if p.key? sp = some v then some (.made ps.length) else (known sp ps).lookup v := by
  rw [known_snoc]
  cases hb : p.key? sp with
  | none => simp [Env.after]
  | some u =>
    simp only [Env.after, List.lookup_cons, Option.some.injEq]
    by_cases hv : u = v
    · simp [hv]
    · have hne : (v == u) = false := by simpa using Ne.symm hv
      simp [hne, hv]

/-- A variable has the handle of the last part that bound it. -/
theorem known_lookup {v : String} (hv : v ≠ sp.key topName) {ps : List Part} {h : Handle} :
    (known sp ps).lookup v = some h ↔
      ∃ before p after, ps = before ++ p :: after ∧ p.key? sp = some v ∧
        (∀ q ∈ after, q.key? sp ≠ some v) ∧ h = .made before.length := by
  induction ps using List.reverseRecOn with
  | nil =>
    have hne : (v == sp.key topName) = false := by simpa using hv
    simp [known, List.lookup_cons, hne]
  | append_singleton ps x ih =>
    rw [known_lookup_snoc]
    by_cases hx : x.key? sp = some v
    · simp only [hx, if_true, Option.some.injEq]
      constructor
      · rintro rfl
        exact ⟨ps, x, [], rfl, hx, by simp, rfl⟩
      · rintro ⟨before, p, after, hsplit, -, hafter, rfl⟩
        rcases snoc_eq_append_cons.1 hsplit with ⟨-, rfl, -⟩ | ⟨rest, rfl, -⟩
        · rfl
        · exact absurd hx (hafter x (by simp))
    · simp only [hx, if_false, ih]
      constructor
      · rintro ⟨before, p, after, rfl, hp, hafter, rfl⟩
        refine ⟨before, p, after ++ [x], by simp, hp, ?_, rfl⟩
        intro q hq
        rcases List.mem_append.1 hq with hq | hq
        · exact hafter q hq
        · obtain rfl : q = x := by simpa using hq
          exact hx
      · rintro ⟨before, p, after, hsplit, hp, hafter, rfl⟩
        rcases snoc_eq_append_cons.1 hsplit with ⟨-, -, rfl⟩ | ⟨rest, rfl, hps⟩
        · exact absurd hp hx
        · exact ⟨before, p, rest, hps, hp, fun q hq => hafter q (by simp [hq]), rfl⟩

theorem known_top (ps : List Part) : (known sp ps).value sp topName = some .root := by
  obtain ⟨hstate, hstart, hend⟩ := sp.top_ne
  induction ps using List.reverseRecOn with
  | nil => simp [known, Env.value]
  | append_singleton ps p ih =>
    have hp : p.key? sp ≠ some (sp.key topName) := by
      cases p with
      | state s => simpa [Part.key?, Part.binding?] using (hstate s.name).symm
      | start parent => simpa [Part.key?, Part.binding?] using (hstart parent).symm
      | stop => simpa [Part.key?, Part.binding?] using hend.symm
      | link t => simp [Part.key?, Part.binding?]
    rw [Env.value, known_lookup_snoc, if_neg hp]
    exact ih

theorem partCalls_append (before ps qs : List Part) :
    partCalls sp c before (ps ++ qs) =
      partCalls sp c before ps ++ partCalls sp c (before ++ ps) qs := by
  induction ps generalizing before with
  | nil => simp [partCalls]
  | cons p ps ih => simp [partCalls, ih]

theorem length_partCalls (before ps : List Part) :
    (partCalls sp c before ps).length = ps.length := by
  induction ps generalizing before with
  | nil => rfl
  | cons p ps ih => simp [partCalls, ih]

theorem partCalls_getElem? (before : List Part) (p : Part) (after : List Part) :
    (partCalls sp c [] (before ++ p :: after))[before.length]? =
      some (p.call c ((known sp before).value sp)) := by
  rw [partCalls_append, List.getElem?_append_right (by simp [length_partCalls])]
  simp [length_partCalls, partCalls]

theorem exists_of_partCalls_getElem? {ps : List Part} {n : Nat} {call : Call}
    (h : (partCalls sp c [] ps)[n]? = some call) :
    ∃ before p after, ps = before ++ p :: after ∧ before.length = n ∧
      call = p.call c ((known sp before).value sp) := by
  have hn : n < ps.length := by
    have := (List.getElem?_eq_some_iff.1 h).1
    rwa [length_partCalls] at this
  obtain ⟨before, p, after, rfl, rfl⟩ :
      ∃ before p after, ps = before ++ p :: after ∧ before.length = n :=
    ⟨ps.take n, ps[n], ps.drop (n + 1), by simp, by simp; omega⟩
  rw [partCalls_getElem?] at h
  exact ⟨before, p, after, rfl, rfl, (Option.some.inj h).symm⟩

/-- The calls of a constructor are told by the chart. -/
theorem calls_eq {callbacks : Callbacks} {is : List Instruction}
    (h : List.Forall₂ (Tells c callbacks) (outline c) is) :
    calls sp is = partCalls sp c [] (outline c) :=
  execute_eq_partCalls [] h

end

end Statechart.Module
