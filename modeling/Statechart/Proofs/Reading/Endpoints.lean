import Statechart.Proofs.Reading.WellFormed

/-!
Transitions and the states that they name.

The ends of a transition are texts. A text that reads `start` or `end`, in any case, is the start or
the end of the chart, also where a state has this name. No other name is taken from a state.
-/
set_option autoImplicit false

namespace Statechart

namespace Endpoint

def IsPseudo (name : String) : Prop :=
  Text.lower name = "start" ∨ Text.lower name = "end"

theorem ofText_eq_start {text : String} (h : Text.lower (Text.trim text) = "start") :
    ofText text = .start := by
  have hlower : Text.lower "start" = "start" := by decide
  simp [ofText, Text.sameLetters, h, hlower]

theorem ofText_eq_stop {text : String} (h : Text.lower (Text.trim text) = "end") :
    ofText text = .stop := by
  have hstart : Text.lower "start" = "start" := by decide
  have hstop : Text.lower "end" = "end" := by decide
  simp [ofText, Text.sameLetters, h, hstart, hstop]

theorem ofText_eq_state {text : String} (h : ¬ IsPseudo (Text.trim text)) :
    ofText text = .state (Text.trim text) := by
  obtain ⟨hstart, hstop⟩ := not_or.1 h
  have hlower : Text.lower "start" = "start" ∧ Text.lower "end" = "end" := by decide
  simp [ofText, Text.sameLetters, hstart, hstop, hlower]

theorem ofText_eq_state_iff {text name : String} :
    ofText text = .state name ↔ Text.trim text = name ∧ ¬ IsPseudo name := by
  constructor
  · intro h
    by_cases hpseudo : IsPseudo (Text.trim text)
    · rcases hpseudo with hstart | hstop
      · simp [ofText_eq_start hstart] at h
      · simp [ofText_eq_stop hstop] at h
    · rw [ofText_eq_state hpseudo] at h
      obtain rfl := state.inj h
      exact ⟨rfl, hpseudo⟩
  · rintro ⟨rfl, h⟩
    exact ofText_eq_state h

structure NamedBy (e : Endpoint) (name : String) : Prop where
  state : e = .state name ↔ ¬ IsPseudo name
  start : e = .start ↔ Text.lower name = "start"
  stop : e = .stop ↔ Text.lower name = "end"

theorem ofText_namedBy (text : String) : (ofText text).NamedBy (Text.trim text) where
  state := by
    rw [ofText_eq_state_iff]
    exact and_iff_right rfl
  start := by
    refine ⟨fun h => ?_, ofText_eq_start⟩
    by_contra hother
    by_cases hstop : Text.lower (Text.trim text) = "end"
    · simp [ofText_eq_stop hstop] at h
    · simp [ofText_eq_state (not_or.2 ⟨hother, hstop⟩)] at h
  stop := by
    refine ⟨fun h => ?_, ofText_eq_stop⟩
    by_contra hother
    by_cases hstart : Text.lower (Text.trim text) = "start"
    · simp [ofText_eq_start hstart] at h
    · simp [ofText_eq_state (not_or.2 ⟨hstart, hother⟩)] at h

end Endpoint

namespace Chart

/-- A section and the end that is read from one of its keys: where the value is the name of a state,
the end is what this name stands for. -/
def EndRead (c : Chart) (s : Design.Section) (key : String) (e : Endpoint) : Prop :=
  ∃ v, s.value? key = some v ∧ ∀ st ∈ c.states, Text.trim v.text = st.name → e.NamedBy st.name

theorem endRead_ofText {c : Chart} {s : Design.Section} {key : String} {v : Design.Value}
    (h : s.value? key = some v) : c.EndRead s key (.ofText v.text) := by
  refine ⟨v, h, fun st _ hname => ?_⟩
  rw [← hname]
  exact Endpoint.ofText_namedBy v.text

structure TransitionRead (c : Chart) (s : Design.Section) (t : Transition) : Prop where
  name : t.name = s.name
  source : c.EndRead s "start" t.source
  target : c.EndRead s "end" t.target
  /-- A state whose name stands for something else is neither of its ends. -/
  proper : ∀ name, t.source = .state name ∨ t.target = .state name → ¬ Endpoint.IsPseudo name

theorem transitionRead_of_yields {c : Chart} {f : Design.File} {s : Design.Section} {t : Transition}
    {j : Journal} {u : Unit} (h : (Reading.transition f s).Yields () t j u) :
    c.TransitionRead s t := by
  obtain ⟨hname, ⟨v, hv, hsource⟩, ⟨w, hw, htarget⟩, -⟩ := Reading.transition_read h
  constructor
  · exact hname
  · rw [hsource]
    exact endRead_ofText hv
  · rw [htarget]
    exact endRead_ofText hw
  · rw [hsource, htarget]
    rintro name (hstate | hstate)
    · exact (Endpoint.ofText_eq_state_iff.1 hstate).2
    · exact (Endpoint.ofText_eq_state_iff.1 hstate).2

/-- A transition whose section names a state leads from or to this state, unless the name of the
state stands for the start or the end of the chart. A state with such a name is an end of no
transition. -/
theorem endpoints_of_read {label text : String} {base : Path} {read : Reading.FileReader}
    {c : Chart} (h : (Chart.read label text base read ()).result = .ok c) :
    ∃ f, Design.File.parse label text = .ok f ∧
      List.Forall₂ c.TransitionRead (f.family "TRANSITION_") c.transitions := by
  obtain ⟨f, hparse, -, -, ⟨_, _, hread⟩, -⟩ := read_parts h
  obtain ⟨-, _, _, hts⟩ := Reading.transitions_collect hread
  refine ⟨f, hparse, Reading.collect_forall₂ ?_ hts⟩
  intro s t j u ht
  exact transitionRead_of_yields ht

end Chart

namespace Reading

open Design

theorem tram_leaves :
    (Chart.read "tram.ini" (Text.unlines tramLines) ⟨""⟩ tramFiles ()).result = .ok tram ∧
      ∃ t ∈ tram.transitions, tram.TransitionRead tramEdge t ∧ t.source = .state "Run" := by
  obtain ⟨f, hparse, hends⟩ := Chart.endpoints_of_read tram_read
  obtain rfl : tramFile = f := Except.ok.inj (tram_parsed.symm.trans hparse)
  have hedge : tramEdge ∈ tramFile.family "TRANSITION_" := by decide +kernel
  obtain ⟨t, ht, hread⟩ := forall₂_exists_right hends hedge
  refine ⟨tram_read, t, ht, hread, ?_⟩
  have hvalue : tramEdge.value? "start" = some (.scalar "Run") := by decide +kernel
  have hstate : (⟨"STATE_1", "Run", none, .simple, .absent, .absent, .absent, false⟩ : State) ∈
      tram.states := List.mem_cons_self
  have hproper : ¬ Endpoint.IsPseudo "Run" := by
    unfold Endpoint.IsPseudo
    decide
  obtain ⟨v, hv, hnamed⟩ := hread.source
  obtain rfl : Value.scalar "Run" = v := Option.some.inj (hvalue.symm.trans hv)
  exact (hnamed _ hstate (by decide)).state.2 hproper

/-- It is to go to the state `End`, and ends its run. -/
theorem tram_ends :
    (Chart.read "tram.ini" (Text.unlines tramLines) ⟨""⟩ tramFiles ()).result = .ok tram ∧
      File.parse "tram.ini" (Text.unlines tramLines) = .ok tramFile ∧
      tramFile.family "TRANSITION_" = [tramEdge] ∧
      (∃ v, tramEdge.value? "end" = some v ∧
        ∃ s ∈ tram.states, Text.trim v.text = s.name ∧ s.name = "End") ∧
      ∀ t ∈ tram.transitions, t.name = tramEdge.name ∧ t.target = .stop := by
  refine ⟨tram_read, tram_parsed, by decide +kernel, ⟨.scalar "End", by decide +kernel, ?_⟩, ?_⟩
  · exact ⟨_, List.mem_cons_of_mem _ List.mem_cons_self, by decide, rfl⟩
  · decide

end Reading

end Statechart
