import Statechart.Proofs.Module.Execution
import Statechart.Proofs.Module.Order
import Statechart.Proofs.Validation.Soundness

/-!
Which charts the constructor wires as they are.

The variables of two states, or of two starts, may be the same although the names differ. Then the
later binding hides the earlier one, and a use of the earlier one goes astray. The constructor is
faithful exactly if no such use is hidden.
-/
set_option autoImplicit false

namespace Statechart.Module

open Target

def IsState (calls : List Call) (name : String) (h : Handle) : Prop :=
  ∃ n parent, h = .made n ∧ calls[n]? = some (.addState parent name)

def IsHome (calls : List Call) : Option String → Handle → Prop
  | none, h => h = .root
  | some name, h => IsState calls name h

def IsStart (calls : List Call) (parent : Option String) (h : Handle) : Prop :=
  ∃ n owner, h = .made n ∧ calls[n]? = some (.startState (some owner)) ∧
    IsHome calls parent owner

def Call.ends? : Call → Option (Option Handle × Option Handle)
  | addTransition source target => some (source, target)
  | _ => none

structure Joins (c : Chart) (calls : List Call) (t : Transition)
    (ends : Option Handle × Option Handle) : Prop where
  source : ∀ name, t.source = .state name → ∃ h, ends.1 = some h ∧ IsState calls name h
  start : t.source = .start → ∀ x ∈ c.states, t.target = .state x.name →
    ∃ h, ends.1 = some h ∧ IsStart calls x.parent h
  target : ∀ name, t.target = .state name → ∃ h, ends.2 = some h ∧ IsState calls name h

/-- The calls wire the chart's own hierarchy. -/
structure Faithful (c : Chart) (calls : List Call) : Prop where
  parents : ∀ parent name, .addState parent name ∈ calls → ∀ s ∈ c.states, s.name = name →
    ∃ h, parent = some h ∧ IsHome calls s.parent h
  joins : List.Forall₂ (Joins c calls) c.enabledTransitions (calls.filterMap Call.ends?)

/-- A member such that no later one looks the same. -/
def Last {α β : Type} (f : α → β) (as : List α) (a : α) : Prop :=
  ∃ before after, as = before ++ a :: after ∧ ∀ b ∈ after, f b ≠ f a

def stateKey (sp : Spelling) (s : State) : String :=
  sp.key (stateIdent s.name)

def startKey (sp : Spelling) (parent : Option String) : String :=
  sp.key (startIdent parent)

/-- The parents whose starts are declared, in the order of their first use. -/
def startParents (c : Chart) (ts : List Transition) : List (Option String) :=
  (ts.filterMap (startParent? c)).eraseDups

/-- No use of a variable is hidden by a later binding. -/
structure Unshadowed (sp : Spelling) (c : Chart) : Prop where
  /-- No state between a parent and its child has the variable of the parent. -/
  parents : ∀ before s after, parentFirst c = before ++ s :: after →
    ∀ p ∈ before, s.parent = some p.name → Last (stateKey sp) before p
  /-- No later state has the variable of one that a transition joins. -/
  ends : ∀ t ∈ c.enabledTransitions, ∀ p ∈ parentFirst c,
    t.source = .state p.name ∨ t.target = .state p.name → Last (stateKey sp) (parentFirst c) p
  /-- No later state has the variable of one that owns a start. -/
  owners : ∀ t ∈ c.enabledTransitions, ∀ p ∈ parentFirst c, startParent? c t = some (some p.name) →
    Last (stateKey sp) (parentFirst c) p
  /-- No start is declared between that of a parent and its use, with the same variable. -/
  starts : ∀ before t after, c.enabledTransitions = before ++ t :: after →
    ∀ parent, startParent? c t = some parent →
      Last (startKey sp) (startParents c (before ++ [t])) parent

section

variable {α β γ : Type}

theorem last_snoc {f : α → γ} {as : List α} {x a : α} :
    Last f (as ++ [x]) a ↔ x = a ∨ f x ≠ f a ∧ Last f as a := by
  constructor
  · rintro ⟨before, after, hsplit, hafter⟩
    rcases snoc_eq_append_cons.1 hsplit with ⟨-, -, rfl⟩ | ⟨rest, rfl, has⟩
    · exact .inl rfl
    · exact .inr ⟨hafter x (by simp), before, rest, has, fun b hb => hafter b (by simp [hb])⟩
  · rintro (rfl | ⟨hx, before, after, rfl, hafter⟩)
    · exact ⟨as, [], rfl, by simp⟩
    · refine ⟨before, after ++ [x], by simp, ?_⟩
      intro b hb
      rcases List.mem_append.1 hb with hb | hb
      · exact hafter b hb
      · obtain rfl : b = x := by simpa using hb
        exact hx

end

section

variable {sp : Spelling} {c : Chart}

theorem IsHome.inj {calls : List Call} {p q : Option String} {h : Handle}
    (hp : IsHome calls p h) (hq : IsHome calls q h) : p = q := by
  cases p with
  | none =>
    cases q with
    | none => rfl
    | some q =>
      obtain ⟨n, _, hn, -⟩ := hq
      cases hp.symm.trans hn
  | some p =>
    obtain ⟨n, _, rfl, hcall⟩ := hp
    cases q with
    | none => cases hq
    | some q =>
      obtain ⟨m, _, hm, hcall'⟩ := hq
      cases hm
      rw [hcall] at hcall'
      cases hcall'
      rfl

def chartCalls (sp : Spelling) (c : Chart) : List Call :=
  partCalls sp c [] (outline c)

theorem state_not_mem_links (before ts : List Transition) (s : State) :
    Part.state s ∉ links c before ts := by
  induction ts generalizing before with
  | nil => simp [links]
  | cons t ts ih =>
    simp only [links, List.mem_append, List.mem_singleton, reduceCtorEq, ih, or_false, not_or]
    constructor
    · rw [freshStart]
      split
      · split <;> simp
      · simp
    · rw [freshStop]
      split <;> simp

theorem split_state {added : List State} {rest before after : List Part} {s : State}
    (hrest : Part.state s ∉ rest)
    (h : added.map .state ++ rest = before ++ .state s :: after) :
    ∃ earlier later, added = earlier ++ s :: later ∧ before = earlier.map .state := by
  rcases List.append_eq_append_iff.1 h with ⟨middle, rfl, hr⟩ | ⟨middle, hadded, hr⟩
  · exact absurd (hr ▸ by simp) hrest
  · cases middle with
    | nil =>
      rw [List.nil_append] at hr
      exact absurd (hr ▸ by simp) hrest
    | cons x middle =>
      obtain ⟨rfl, -⟩ : Part.state s = x ∧ after = middle ++ rest := by simpa using hr
      obtain ⟨earlier, tail, rfl, rfl, htail⟩ := List.map_eq_append_iff.1 hadded
      obtain ⟨s', later, rfl, hs, -⟩ := List.map_eq_cons_iff.1 htail
      cases hs
      exact ⟨earlier, later, rfl, rfl⟩

theorem addState_at {n : Nat} {parent : Option Handle} {name : String} :
    (chartCalls sp c)[n]? = some (.addState parent name) ↔
      ∃ before s after, parentFirst c = before ++ s :: after ∧ before.length = n ∧
        s.name = name ∧ parent = (known sp (before.map .state)).value sp (homeIdent s.parent) := by
  constructor
  · intro hcall
    obtain ⟨before, p, after, hsplit, rfl, hp⟩ := exists_of_partCalls_getElem? hcall
    cases p with
    | state s =>
      cases hp
      obtain ⟨earlier, later, horder, rfl⟩ := split_state (state_not_mem_links _ _ s) hsplit
      exact ⟨earlier, s, later, horder, by simp, rfl, rfl⟩
    | start parent => cases hp
    | stop => cases hp
    | link t => cases hp
  · rintro ⟨before, s, after, horder, rfl, rfl, rfl⟩
    have hsplit : outline c =
        before.map .state ++ .state s :: (after.map .state ++ links c [] c.enabledTransitions) := by
      simp [outline, horder]
    have hcall : (partCalls sp c [] (before.map .state ++ _))[(before.map Part.state).length]? = _ :=
      partCalls_getElem? (before.map .state) (.state s)
        (after.map .state ++ links c [] c.enabledTransitions)
    rw [List.length_map] at hcall
    rw [chartCalls, hsplit, hcall, Part.call]

theorem isState_iff {name : String} {h : Handle} :
    IsState (chartCalls sp c) name h ↔
      ∃ before s after, parentFirst c = before ++ s :: after ∧ s.name = name ∧
        h = .made before.length := by
  constructor
  · rintro ⟨n, parent, rfl, hcall⟩
    obtain ⟨before, s, after, horder, rfl, hname, -⟩ := addState_at.1 hcall
    exact ⟨before, s, after, horder, hname, rfl⟩
  · rintro ⟨before, s, after, horder, hname, rfl⟩
    exact ⟨_, _, rfl, addState_at.2 ⟨before, s, after, horder, rfl, hname, rfl⟩⟩

/-- A variable of a state has the handle of the last state with that variable. -/
theorem state_value {added : List State} {rest : List Part} (hrest : ∀ s, Part.state s ∉ rest)
    {name : String} {h : Handle} :
    (known sp (added.map .state ++ rest)).value sp (stateIdent name) = some h ↔
      ∃ before s after, added = before ++ s :: after ∧ stateKey sp s = sp.key (stateIdent name) ∧
        (∀ q ∈ after, stateKey sp q ≠ sp.key (stateIdent name)) ∧ h = .made before.length := by
  have hkey : ∀ p : Part, p.key? sp = some (sp.key (stateIdent name)) ↔
      ∃ s, p = .state s ∧ stateKey sp s = sp.key (stateIdent name) := by
    intro p
    cases p with
    | state s => simp [Part.key?, Part.binding?, stateKey]
    | start parent => simpa [Part.key?, Part.binding?] using (sp.state_ne_start name parent).symm
    | stop => simpa [Part.key?, Part.binding?] using (sp.state_ne_end name).symm
    | link t => simp [Part.key?, Part.binding?]
  rw [Env.value, known_lookup (sp.top_ne.1 name).symm]
  constructor
  · rintro ⟨before, p, after, hsplit, hp, hafter, rfl⟩
    obtain ⟨s, rfl, hs⟩ := (hkey p).1 hp
    obtain ⟨earlier, later, rfl, rfl⟩ := split_state (hrest s) hsplit
    obtain rfl : later.map .state ++ rest = after := by simpa using hsplit
    refine ⟨earlier, s, later, rfl, hs, ?_, by simp⟩
    intro q hq heq
    exact hafter (.state q) (by simp [hq]) ((hkey _).2 ⟨q, rfl, heq⟩)
  · rintro ⟨before, s, after, rfl, hs, hafter, rfl⟩
    refine ⟨before.map .state, .state s, after.map .state ++ rest, by simp,
      (hkey _).2 ⟨s, rfl, hs⟩, ?_, by simp⟩
    intro p hp heq
    obtain ⟨q, rfl, hq⟩ := (hkey p).1 heq
    have hmem : q ∈ after := by simpa [hrest q] using hp
    exact hafter q hmem hq

/-- Homes are states, so nothing but a state changes the variable of one. -/
theorem home_value (added : List State) {rest : List Part} (hrest : ∀ s, Part.state s ∉ rest)
    (parent : Option String) :
    (known sp (added.map .state ++ rest)).value sp (homeIdent parent) =
      (known sp (added.map .state)).value sp (homeIdent parent) := by
  cases parent with
  | none => exact (known_top _).trans (known_top _).symm
  | some p =>
    have hadded : ∀ h, (known sp (added.map .state ++ [])).value sp (stateIdent p) = some h ↔ _ :=
      fun h => state_value (by simp)
    rw [List.append_nil] at hadded
    exact Option.ext fun h => (state_value hrest).trans (hadded h).symm

theorem eq_of_name_eq {p q : State} (hp : p ∈ parentFirst c) (hq : q ∈ parentFirst c)
    (h : p.name = q.name) : p = q :=
  List.inj_on_of_nodup_map (parentFirst_nodup c) hp hq h

theorem state_found {added later : List State} (horder : parentFirst c = added ++ later)
    {rest : List Part} (hrest : ∀ s, Part.state s ∉ rest) {p : State} (hp : p ∈ added) :
    (∃ h, (known sp (added.map .state ++ rest)).value sp (stateIdent p.name) = some h ∧
        IsState (chartCalls sp c) p.name h) ↔
      Last (stateKey sp) added p := by
  constructor
  · rintro ⟨h, hvalue, hstate⟩
    obtain ⟨before, s, after, rfl, hkey, hafter, rfl⟩ := (state_value hrest).1 hvalue
    obtain ⟨before', s', after', horder', hname, hlen⟩ := isState_iff.1 hstate
    have hsplit : before ++ s :: (after ++ later) = before' ++ s' :: after' := by
      rw [← horder', horder, List.append_assoc, List.cons_append]
    obtain ⟨-, htail⟩ := List.append_inj hsplit (Handle.made.inj hlen)
    obtain ⟨rfl, -⟩ := List.cons_eq_cons.1 htail
    have hp' : p ∈ parentFirst c := horder ▸ List.mem_append_left _ hp
    obtain rfl : s = p := eq_of_name_eq (by simp [horder']) hp' hname
    exact ⟨before, after, rfl, hafter⟩
  · rintro ⟨before, after, rfl, hafter⟩
    exact ⟨_, (state_value hrest).2 ⟨before, p, after, rfl, rfl, hafter, rfl⟩,
      isState_iff.2 ⟨before, p, after ++ later, by simp [horder], rfl, rfl⟩⟩

theorem home_found {added later : List State} (horder : parentFirst c = added ++ later)
    {parent : Option String} (hparent : ∀ p, parent = some p → p ∈ added.map State.name) :
    (∃ h, (known sp (added.map .state)).value sp (homeIdent parent) = some h ∧
        IsHome (chartCalls sp c) parent h) ↔
      ∀ p ∈ added, parent = some p.name → Last (stateKey sp) added p := by
  cases parent with
  | none => exact iff_of_true ⟨.root, known_top _, rfl⟩ (by simp)
  | some name =>
    have hfound : ∀ p ∈ added, p.name = name →
        ((∃ h, (known sp (added.map .state ++ [])).value sp (stateIdent name) = some h ∧
            IsState (chartCalls sp c) name h) ↔
          Last (stateKey sp) added p) := by
      rintro p hp rfl
      exact state_found horder (by simp) hp
    rw [List.append_nil] at hfound
    obtain ⟨p, hp, hname⟩ := List.mem_map.1 (hparent name rfl)
    constructor
    · intro h q hq hqname
      exact (hfound q hq (Option.some.inj hqname).symm).1 h
    · intro h
      exact (hfound p hp hname).2 (h p hp (congrArg some hname.symm))

end

end Statechart.Module
