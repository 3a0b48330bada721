import Statechart.Proofs.Callbacks.Closure
import Statechart.Proofs.Compile.Stages

/-!
The callbacks of a run.

After the stages up to the hooks a run has the routines that the fields of its chart use, and hooks
that say what the fields say.
-/
set_option autoImplicit false

namespace Statechart

namespace Generator

theorem mem_insert {α : Type} {key : String} {value : α} {into : List (String × α)}
    {p : String × α} (h : p ∈ Callbacks.insert key value into) : p = (key, value) ∨ p ∈ into := by
  induction into with
  | nil => simpa [Callbacks.insert] using h
  | cons q into ih =>
    rw [Callbacks.insert] at h
    split at h
    · obtain h | h := List.mem_cons.1 h
      · exact .inl h
      · exact .inr (List.mem_cons_of_mem q h)
    · obtain h | h := List.mem_cons.1 h
      · exact .inr (h ▸ List.mem_cons_self)
      · exact (ih h).imp_right (List.mem_cons_of_mem q)

theorem mem_insertAll {α : Type} {ps into : List (String × α)} {p : String × α}
    (h : p ∈ Callbacks.insertAll ps into) : p ∈ ps ∨ p ∈ into := by
  induction ps generalizing into with
  | nil => exact .inr h
  | cons q ps ih =>
    obtain h | h := ih (show p ∈ Callbacks.insertAll ps (Callbacks.insert q.1 q.2 into) from h)
    · exact .inl (List.mem_cons_of_mem q h)
    · obtain rfl | h := mem_insert h
      · exact .inl List.mem_cons_self
      · exact .inr h

end Generator

namespace Run

open Generator

variable {s : Settings} {read : Reading.FileReader} {text : Option String} {st : Stage}
  {r r' : Run} {j : Journal}

theorem callbacks_of_passes
    (hst : st ∈ [Stage.parseDesign, .allocateEvents, .validateStart, .validateTransitions])
    (h : Passes s read text st r j r') : r'.callbacks = r.callbacks := by
  obtain ⟨-, -, rfl⟩ | ⟨-, _, hyields, -⟩ := h
  · rfl
  · simp only [List.mem_cons, List.not_mem_nil, or_false] at hst
    rcases hst with rfl | rfl | rfl | rfl
    · obtain ⟨_, _, -, -, rfl⟩ := yields_parse.1 hyields
      rfl
    all_goals
      obtain ⟨_, -, rfl⟩ := yields_onChart.1 hyields
      rfl

structure Serving (c : Chart) (k : Callbacks) : Prop where
  tracks : ∃ g, Tracks c (uses c) g ∧ g.out = k
  states : ∀ p ∈ k.states, ∃ s ∈ c.enabledStates, StateServed c s p
  transitions : ∀ p ∈ k.transitions, ∃ t ∈ c.enabledTransitions, TransitionServed c t p

theorem serving_of_toHooks (h : (stages s read text toHooks).Yields {} () j r)
    (hgen : r.chart.options.genCode = true) : Serving r.chart r.callbacks := by
  obtain ⟨_, r₁, _, hp₁, h, -⟩ := yields_stages_cons.1 h
  obtain ⟨_, r₂, _, hp₂, h, -⟩ := yields_stages_cons.1 h
  obtain ⟨_, r₃, _, hp₃, h, -⟩ := yields_stages_cons.1 h
  obtain ⟨_, r₄, _, hp₄, h, -⟩ := yields_stages_cons.1 h
  obtain ⟨_, r₅, _, hp₅, h, -⟩ := yields_stages_cons.1 h
  obtain ⟨_, r₆, _, hp₆, h, -⟩ := yields_stages_cons.1 h
  obtain ⟨-, rfl⟩ := yields_stages_nil.1 h
  have hstart : r₄.callbacks = {} := by
    rw [callbacks_of_passes (by simp) hp₄, callbacks_of_passes (by simp) hp₃,
      callbacks_of_passes (by simp) hp₂, callbacks_of_passes (by simp) hp₁]
  have hgen₅ : r₅.chart.options.genCode = true := by rw [← chart_of_passes rfl hp₆, hgen]
  have hgen₄ : r₄.chart.options.genCode = true := by rw [← chart_of_passes rfl hp₅, hgen₅]
  obtain ⟨_, hy₅, -⟩ := (passes_of_genCode hgen₄).1 hp₅
  obtain ⟨_, hy₆, -⟩ := (passes_of_genCode hgen₅).1 hp₆
  obtain ⟨g, hstates, rfl⟩ := yields_generate.1 hy₅
  obtain ⟨g', htransitions, rfl⟩ := yields_generate.1 hy₆
  rw [hstart] at hstates
  obtain ⟨htracks, hkept, ps, hps, hout⟩ := stateHooks_yields (Tracks.empty _) hstates
  obtain ⟨htracks', hkept', qs, hqs, hout'⟩ := transitionHooks_yields htracks.resume htransitions
  refine ⟨⟨g', htracks', rfl⟩, ?_, ?_⟩
  · intro p hp
    rw [hkept'] at hp
    obtain hp | hp := mem_insertAll (hout ▸ hp)
    · exact forall₂_exists_left hps hp
    · cases hp
  · intro p hp
    obtain hp | hp := mem_insertAll (hout' ▸ hp)
    · exact forall₂_exists_left hqs hp
    · rw [resume, hkept] at hp
      cases hp

theorem routines_of_toHooks (h : (stages s read text toHooks).Yields {} () j r)
    (hgen : r.chart.options.genCode = true) :
    (r.callbacks.routines.map Routine.name).Nodup ∧
      ∀ x ∈ r.callbacks.routines, x.override = none := by
  obtain ⟨g, htracks, hout⟩ := (serving_of_toHooks h hgen).tracks
  rw [← hout]
  refine ⟨htracks.nodup, ?_⟩
  intro x hx
  obtain ⟨_, -, -, -, hno⟩ := htracks.made x hx
  exact hno

theorem Serving.exists_routine {c : Chart} {k : Callbacks} (h : Serving c k) {name : String}
    (hname : (∃ p ∈ k.states, .named name ∈ [p.2.entry, p.2.during, p.2.exit]) ∨
      ∃ p ∈ k.transitions, .named name ∈ [p.2.guard, p.2.action]) :
    ∃ x ∈ k.routines, x.name = name := by
  obtain ⟨g, htracks, rfl⟩ := h.tracks
  have huse : ∀ {u : Use} {hook : Hook}, u ∈ uses c → Refers c u hook → .named name = hook →
      ∃ x ∈ g.out.routines, x.name = name := by
    intro u hook hu hrefers hhook
    obtain ⟨x, hx, hxname, -⟩ := htracks.roles u hu name ((hrefers name).1 hhook.symm)
    exact ⟨x, hx, hxname⟩
  simp only [List.mem_cons, List.not_mem_nil, or_false] at hname
  obtain ⟨p, hp, hname⟩ | ⟨p, hp, hname⟩ := hname
  · obtain ⟨s, hs, hserved⟩ := h.states p hp
    have hmem : ∀ u, _ → u ∈ uses c := fun u hu => mem_uses.2 (.inl ⟨s, hs, hu⟩)
    obtain hname | hname | hname := hname
    · exact huse (hmem _ (.inl rfl)) hserved.entry hname
    · exact huse (hmem _ (.inr (.inl rfl))) hserved.during hname
    · exact huse (hmem _ (.inr (.inr rfl))) hserved.exit hname
  · obtain ⟨t, ht, hserved⟩ := h.transitions p hp
    have hmem : ∀ u, _ → u ∈ uses c := fun u hu => mem_uses.2 (.inr ⟨t, ht, hu⟩)
    obtain hname | hname := hname
    · exact huse (hmem _ (.inl rfl)) hserved.guard hname
    · exact huse (hmem _ (.inr rfl)) hserved.action hname

end Run

end Statechart
