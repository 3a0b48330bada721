import Statechart.Callbacks.Generator
import Statechart.Proofs.Work

/-!
Uses of callbacks.

A field of a state or transition uses a routine: it names one, or calls a guard of the runtime. What
generation does for a field is told by what the field says and by the names that were declared.
-/
set_option autoImplicit false

namespace Statechart

namespace Work

variable {ε σ α β : Type}

def Stateless (w : Work ε σ α) : Prop :=
  ∃ j r, ∀ s, w s = ⟨s, j, r⟩

theorem stateless_pure (a : α) : (Pure.pure a : Work ε σ α).Stateless :=
  ⟨_, _, fun _ => rfl⟩

theorem stateless_fail (e : ε) : (fail e : Work ε σ α).Stateless :=
  ⟨_, _, fun _ => rfl⟩

theorem stateless_warn (concern : Concern) (message : String) :
    (warn concern message : Work ε σ Unit).Stateless :=
  ⟨_, _, fun _ => rfl⟩

theorem stateless_ofExcept (r : Except ε α) : (ofExcept r : Work ε σ α).Stateless :=
  ⟨_, _, fun _ => rfl⟩

theorem Stateless.bind {w : Work ε σ α} {f : α → Work ε σ β} (hw : w.Stateless)
    (hf : ∀ a, (f a).Stateless) : (w >>= f).Stateless := by
  obtain ⟨j, r, hw⟩ := hw
  cases r with
  | error e =>
    refine ⟨j, .error e, fun s => ?_⟩
    simp only [bind_apply, hw]
  | ok a =>
    obtain ⟨j', r', hf⟩ := hf a
    refine ⟨j ++ j', r', fun s => ?_⟩
    simp only [bind_apply, hw, hf]

theorem Stateless.yields {w : Work ε σ α} (hw : w.Stateless) {s s' : σ} {a : α} {j : Journal}
    (h : w.Yields s a j s') (t : σ) : s' = s ∧ (w t).result = .ok a := by
  obtain ⟨j', r, hw⟩ := hw
  rw [Yields, hw] at h
  cases h
  exact ⟨rfl, by rw [hw]⟩

end Work

def IsName (name : String) : Prop :=
  ∃ i, Target.Fragment.ident? (Text.trim name) = some i

theorem readIdent_eq_ok {origin text : String} {i : Target.Ident} :
    readIdent origin text = .ok i ↔ Target.Fragment.ident? (Text.trim text) = some i := by
  unfold readIdent
  -- Without this the cases below would look into the lexer.
  generalize Target.Fragment.ident? (Text.trim text) = o
  cases o with
  | none => simp
  | some j => simp

theorem readIdent_eq_error {origin text : String} {e : Error} :
    readIdent origin text = .error e ↔
      ¬ IsName text ∧ e = .invalidIdentifier origin (Text.trim text) := by
  unfold readIdent IsName
  generalize Target.Fragment.ident? (Text.trim text) = o
  cases o with
  | none => simp [eq_comm]
  | some j => simp

namespace Generator

theorem stateless_embedded (callback word : String) (limited : Bool) :
    (Embedded.statements callback word limited : Generate (List Target.Tree)).Stateless := by
  cases limited with
  | true => exact Work.stateless_fail _
  | false =>
    unfold Embedded.statements
    simp only [Bool.false_eq_true, if_false]
    -- Whether the code is a block is left open.
    generalize Target.Fragment.block? ("\x7b " ++ Embedded.blockText word ++ " \x7d") = block
    cases block with
    | none => exact Work.stateless_fail _
    | some block =>
      simp only
      split
      · exact (Work.stateless_warn _ _).bind fun _ => Work.stateless_pure _
      · exact Work.stateless_pure _

def onWord (c : Chart) (name context : String) (port : Option String) (chosen : Bool)
    (word : String) (words : List String) : Word → Generate (List Statement)
  | .event resolved => do
    if resolved.unqualified then
      Work.warn .autoQualifiedEvent s!"{context}: event {word} resolved to {resolved.qualified}"
    let path ← Work.ofExcept (EventPath.read context resolved.qualified)
    return [.send port path (words.map Datum.ofWord)]
  | .port via => statements c name context (some via) true words
  | .literal => do
    let code ← Embedded.statements name word c.options.limitActions
    return code.map Statement.embedded ++ (← statements c name context port chosen words)

theorem statements_cons (c : Chart) (name context : String) (port : Option String)
    (chosen : Bool) (word : String) (words : List String) :
    statements c name context port chosen (word :: words) =
      Work.ofExcept (Word.classify c context word) >>=
        onWord c name context port chosen word words := by
  cases port <;> cases chosen <;> rfl

theorem stateless_statements (c : Chart) (name context : String) (port : Option String)
    (chosen : Bool) (words : List String) :
    (statements c name context port chosen words).Stateless := by
  induction words generalizing port chosen with
  | nil =>
    cases port with
    | none => exact Work.stateless_pure _
    | some port =>
      cases chosen with
      | false => exact Work.stateless_pure _
      | true => exact Work.stateless_fail _
  | cons word words ih =>
    rw [statements_cons]
    refine (Work.stateless_ofExcept _).bind fun kind => ?_
    cases kind with
    | event resolved =>
      have hsend : (do
          let path ← Work.ofExcept (EventPath.read context resolved.qualified)
          return [.send port path (words.map Datum.ofWord)] :
            Generate (List Statement)).Stateless :=
        (Work.stateless_ofExcept _).bind fun path => Work.stateless_pure _
      rw [onWord]
      split
      · exact (Work.stateless_warn _ _).bind fun _ => hsend
      · exact hsend
    | port via => exact ih (some via) true
    | literal =>
      refine (stateless_embedded name word c.options.limitActions).bind fun code => ?_
      exact (ih port chosen).bind fun rest => Work.stateless_pure _

theorem stateless_body (c : Chart) (name context : String) (pieces : List String) :
    (body c name context pieces).Stateless :=
  (Work.stateless_ofExcept _).bind fun words => stateless_statements c name context _ false words

structure Use where
  role : Role
  site : Site
  callback : Callback

namespace Use

/-- The routine that is used; a guard of the runtime is none. -/
def name? (c : Chart) (u : Use) : Option String :=
  match u.callback with
  | .absent =>
    match u.role, u.site with
    | .action, .transition t =>
      some (if c.options.debug then s!"trace_{t.name}" else "do_nothing")
    | .action, .state _ => some "do_nothing"
    | .guard, _ => some "always_true"
  | .bare text =>
    let name := Callback.dropCall text
    if u.role = .guard && Text.containsChar '(' name then none else some name
  | .structured name _ => some name

/-- The body of a routine that is first used here. -/
def body (c : Chart) (u : Use) : Except Error (List Statement) :=
  match u.callback with
  | .absent =>
    match u.role, u.site with
    | .action, .transition t => .ok (if c.options.debug then [.trace t.arrow] else [])
    | _, _ => .ok []
  | .bare _ => .ok (if c.options.debug then [.trace u.site.traceLine] else [])
  | .structured name pieces => (Generator.body c name u.site.context pieces {}).result

end Use

def stateUse (field : State → Callback) (s : State) : Use :=
  ⟨.action, .state s, field s⟩

def transitionUse (role : Role) (field : Transition → Callback) (t : Transition) : Use :=
  ⟨role, .transition t, field t⟩

def stateUses (c : Chart) : List Use :=
  c.enabledStates.map (stateUse State.entry) ++ c.enabledStates.map (stateUse State.during) ++
    c.enabledStates.map (stateUse State.exit)

def transitionUses (c : Chart) : List Use :=
  c.enabledTransitions.map (transitionUse .guard Transition.guard) ++
    c.enabledTransitions.map (transitionUse .action Transition.action)

def uses (c : Chart) : List Use :=
  stateUses c ++ transitionUses c

theorem mem_uses {c : Chart} {u : Use} :
    u ∈ uses c ↔
      (∃ s ∈ c.enabledStates, u = stateUse State.entry s ∨ u = stateUse State.during s ∨
        u = stateUse State.exit s) ∨
      ∃ t ∈ c.enabledTransitions, u = transitionUse .guard Transition.guard t ∨
        u = transitionUse .action Transition.action t := by
  simp only [uses, stateUses, transitionUses, List.mem_append, List.mem_map]
  grind

def Refers (c : Chart) (u : Use) (hook : Hook) : Prop :=
  ∀ name, hook = .named name ↔ u.name? c = some name

/-- What becomes of a generator when a name is used: a name that is new gets a routine. -/
def Registers (g : Generator) (name : String) (role : Role)
    (body : Except Error (List Statement)) (g' : Generator) : Prop :=
  (g.declared.lookup name = some role ∧ g' = g) ∨
    (g.declared.lookup name = none ∧ IsName name ∧ ∃ b, body = .ok b ∧
      g' = ⟨(name, role) :: g.declared,
        { g.out with routines := g.out.routines ++ [{ name, role, body := b }] }⟩)

theorem declare_yields {name : String} {role : Role} {g g' : Generator} {isNew : Bool}
    {j : Journal} (h : (declare name role).Yields g isNew j g') :
    (g.declared.lookup name = some role ∧ isNew = false ∧ g' = g) ∨
      (g.declared.lookup name = none ∧ isNew = true ∧
        g' = { g with declared := (name, role) :: g.declared }) := by
  rw [declare, Work.yields_get_bind] at h
  cases hl : g.declared.lookup name with
  | none =>
    simp only [hl] at h
    rw [Work.yields_modify_bind] at h
    obtain ⟨rfl, -, rfl⟩ := Work.yields_pure.1 h
    exact .inr ⟨rfl, rfl, rfl⟩
  | some other =>
    simp only [hl] at h
    split at h
    · rename_i heq
      subst heq
      obtain ⟨rfl, -, rfl⟩ := Work.yields_pure.1 h
      exact .inl ⟨rfl, rfl, rfl⟩
    · simp at h

theorem stub_yields {name : String} {role : Role} {site : Site} {traced : Bool}
    {g g' : Generator} {hook : Hook} {j : Journal}
    (h : (stub name role site traced).Yields g hook j g') :
    hook = .named name ∧
      Registers g name role (.ok (if traced then [.trace site.traceLine] else [])) g' := by
  rw [stub, Work.yields_ofExcept_bind] at h
  obtain ⟨i, hi, hdo⟩ := h
  obtain ⟨isNew, _, g₁, _, hdeclare, hrest, -⟩ := Work.yields_bind.1 hdo
  rcases declare_yields hdeclare with ⟨hl, rfl, rfl⟩ | ⟨hl, rfl, rfl⟩
  · simp only [Bool.false_eq_true, if_false] at hrest
    obtain ⟨rfl, -, rfl⟩ := Work.yields_pure.1 hrest
    exact ⟨rfl, .inl ⟨hl, rfl⟩⟩
  · simp only [if_true, add] at hrest
    rw [Work.yields_modify_bind] at hrest
    obtain ⟨rfl, -, rfl⟩ := Work.yields_pure.1 hrest
    exact ⟨rfl, .inr ⟨hl, ⟨i, readIdent_eq_ok.1 hi⟩, _, rfl, rfl⟩⟩

theorem structured_yields {c : Chart} {name : String} {pieces : List String} {role : Role}
    {site : Site} {g g' : Generator} {hook : Hook} {j : Journal}
    (h : (structured c name pieces role site).Yields g hook j g') :
    hook = .named name ∧
      Registers g name role (Generator.body c name site.context pieces {}).result g' := by
  rw [structured, Work.yields_ofExcept_bind] at h
  obtain ⟨i, hi, hdo⟩ := h
  obtain ⟨isNew, _, g₁, _, hdeclare, hrest, -⟩ := Work.yields_bind.1 hdo
  rcases declare_yields hdeclare with ⟨hl, rfl, rfl⟩ | ⟨hl, rfl, rfl⟩
  · simp only [Bool.false_eq_true, if_false] at hrest
    split at hrest
    · rw [Work.yields_warn_bind] at hrest
      obtain ⟨_, hhook, -⟩ := hrest
      obtain ⟨rfl, -, rfl⟩ := Work.yields_pure.1 hhook
      exact ⟨rfl, .inl ⟨hl, rfl⟩⟩
    · obtain ⟨rfl, -, rfl⟩ := Work.yields_pure.1 hrest
      exact ⟨rfl, .inl ⟨hl, rfl⟩⟩
  · simp only [if_true] at hrest
    obtain ⟨b, _, g₂, _, hbody, hadd, -⟩ := Work.yields_bind.1 hrest
    obtain ⟨rfl, hb⟩ := (stateless_body c name site.context pieces).yields hbody {}
    rw [add, Work.yields_modify_bind] at hadd
    obtain ⟨rfl, -, rfl⟩ := Work.yields_pure.1 hadd
    exact ⟨rfl, .inr ⟨hl, ⟨i, readIdent_eq_ok.1 hi⟩, b, hb, rfl⟩⟩

/-- What generation does for a field. -/
theorem reference_yields {c : Chart} {u : Use} {g g' : Generator} {hook : Hook} {j : Journal}
    (h : (reference c u.role u.site u.callback).Yields g hook j g') :
    Refers c u hook ∧
      ((u.name? c = none ∧ g' = g) ∨
        ∃ name, u.name? c = some name ∧ Registers g name u.role (u.body c) g') := by
  have hnamed : ∀ {name body}, u.name? c = some name → u.body c = body →
      hook = .named name ∧ Registers g name u.role body g' →
      Refers c u hook ∧ ((u.name? c = none ∧ g' = g) ∨
        ∃ name, u.name? c = some name ∧ Registers g name u.role (u.body c) g') := by
    rintro name body hname rfl ⟨rfl, hreg⟩
    refine ⟨fun name' => ?_, .inr ⟨name, hname, hreg⟩⟩
    rw [hname, Hook.named.injEq, Option.some.injEq]
  obtain ⟨role, site, callback⟩ := u
  cases callback with
  | absent =>
    cases role with
    | guard => exact hnamed rfl rfl (stub_yields h)
    | action =>
      cases site with
      | state s => exact hnamed rfl rfl (stub_yields h)
      | transition t =>
        simp only [reference, absent] at h
        split at h
        · rename_i hdebug
          exact hnamed (by simp [Use.name?, hdebug])
            (by simp [Use.body, hdebug, Site.traceLine]) (stub_yields h)
        · rename_i hdebug
          exact hnamed (by simp [Use.name?, hdebug]) (by simp [Use.body, hdebug]) (stub_yields h)
  | bare text =>
    simp only [reference, bare] at h
    split at h
    · rename_i hcall
      have hnone : (Use.mk role site (.bare text)).name? c = none := by simp [Use.name?, hcall]
      -- Which call it is does not matter here.
      generalize Target.Fragment.expr? (Callback.dropCall text) = tree at h
      cases tree with
      | none => simp at h
      | some tree =>
        obtain ⟨rfl, -, rfl⟩ := Work.yields_pure.1 h
        exact ⟨fun name => by simp [hnone], .inl ⟨hnone, rfl⟩⟩
    · rename_i hplain
      exact hnamed (by simp [Use.name?, hplain]) rfl (stub_yields h)
  | structured name pieces => exact hnamed rfl rfl (structured_yields h)

end Generator

end Statechart
