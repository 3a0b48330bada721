import Statechart.Compile.Run
import Statechart.Proofs.Reading.Chart
import Statechart.Proofs.Target.Spelling

/-!
The stages of a compilation that goes through.

`Run.Passes` says what one stage does to a run. A compilation is emitted when all stages pass, one
after the other, and the callbacks file can be laid out.
-/
set_option autoImplicit false

namespace Statechart

namespace Run

variable {s : Settings} {read : Reading.FileReader} {text : Option String} {st : Stage}
  {r r' r'' : Run} {j : Journal}

def skipped (st : Stage) : Entry :=
  .note ⟨.debug, "skipped, GenCode is off", [("stage", st.text)]⟩

def entered (st : Stage) : Entry :=
  .note ⟨.debug, "entering stage", [("stage", st.text)]⟩

def isSkipped (st : Stage) (r : Run) : Bool :=
  st.generates && !r.chart.options.genCode

def Passes (s : Settings) (read : Reading.FileReader) (text : Option String) (st : Stage)
    (r : Run) (j : Journal) (r' : Run) : Prop :=
  isSkipped st r = true ∧ j = [skipped st] ∧ r' = r ∨
    isSkipped st r = false ∧ ∃ j', (stage s read text st).Yields r () j' r' ∧ j = entered st :: j'

theorem yields_stages_nil :
    (stages s read text []).Yields r () j r' ↔ j = [] ∧ r' = r := by
  simp [stages]

theorem yields_stages_cons {rest : List Stage} :
    (stages s read text (st :: rest)).Yields r () j r'' ↔
      ∃ j₁ r' j₂, Passes s read text st r j₁ r' ∧ (stages s read text rest).Yields r' () j₂ r'' ∧
        j = j₁ ++ j₂ := by
  rw [stages, Work.yields_get_bind]
  by_cases hskip : isSkipped st r = true
  · have hif : (st.generates && !r.chart.options.genCode) = true := hskip
    simp only [hif, if_true, Work.yields_bind, Work.yields_note, Passes, hskip]
    constructor
    · intro h
      obtain ⟨_, _, _, j₂, ⟨rfl, rfl⟩, hrest, rfl⟩ := h
      exact ⟨_, _, j₂, .inl ⟨trivial, rfl, rfl⟩, hrest, rfl⟩
    · intro h
      obtain ⟨_, _, j₂, ⟨-, rfl, rfl⟩ | ⟨hno, -⟩, hrest, rfl⟩ := h
      · exact ⟨(), _, _, j₂, ⟨rfl, rfl⟩, hrest, rfl⟩
      · cases hno
  · have hif : (st.generates && !r.chart.options.genCode) = false := by
      simpa [isSkipped] using hskip
    simp only [hif, Bool.false_eq_true, if_false, Work.yields_bind, Work.yields_note, Passes, hskip,
      Work.yields_reporting]
    constructor
    · intro h
      obtain ⟨_, _, _, j₂, ⟨rfl, rfl⟩, ⟨_, j', r', j₃, hst, hrest, rfl⟩, rfl⟩ := h
      exact ⟨_, r', j₃, .inr ⟨by simp, j', hst, rfl⟩, hrest, by simp [entered]⟩
    · intro h
      obtain ⟨_, r', j₂, ⟨hno, -⟩ | ⟨-, j', hst, rfl⟩, hrest, rfl⟩ := h
      · cases hno
      · exact ⟨(), _, r, _, ⟨rfl, rfl⟩, ⟨(), j', r', j₂, hst, hrest, rfl⟩, by simp [entered]⟩

theorem yields_stages_append {first rest : List Stage} :
    (stages s read text (first ++ rest)).Yields r () j r'' ↔
      ∃ j₁ r' j₂, (stages s read text first).Yields r () j₁ r' ∧
        (stages s read text rest).Yields r' () j₂ r'' ∧ j = j₁ ++ j₂ := by
  induction first generalizing r j with
  | nil =>
    simp only [List.nil_append, yields_stages_nil]
    constructor
    · intro h
      exact ⟨[], r, j, ⟨rfl, rfl⟩, h, rfl⟩
    · intro h
      obtain ⟨_, _, j₂, ⟨rfl, rfl⟩, h, rfl⟩ := h
      exact h
  | cons st first ih =>
    simp only [List.cons_append, yields_stages_cons, ih]
    constructor
    · intro h
      obtain ⟨j₁, r₁, _, hst, ⟨j₂, r₂, j₃, hfirst, hrest, rfl⟩, rfl⟩ := h
      exact ⟨j₁ ++ j₂, r₂, j₃, ⟨j₁, r₁, j₂, hst, hfirst, rfl⟩, hrest, by simp⟩
    · intro h
      obtain ⟨_, r₂, j₃, ⟨j₁, r₁, j₂, hst, hfirst, rfl⟩, hrest, rfl⟩ := h
      exact ⟨j₁, r₁, j₂ ++ j₃, hst, ⟨j₂, r₂, j₃, hfirst, hrest, rfl⟩, by simp⟩

theorem fails_stages_cons {rest : List Stage} {stop : Stop} :
    (stages s read text (st :: rest)).Fails r stop r'' ↔
      (isSkipped st r = false ∧
        ∃ fault, (stage s read text st).Fails r fault r'' ∧ stop = ⟨st, fault⟩) ∨
      ∃ j r', Passes s read text st r j r' ∧ (stages s read text rest).Fails r' stop r'' := by
  rw [stages, Work.fails_get_bind]
  by_cases hskip : isSkipped st r = true
  · have hif : (st.generates && !r.chart.options.genCode) = true := hskip
    simp [hif, Work.fails_note_bind, Passes, hskip]
  · have hif : (st.generates && !r.chart.options.genCode) = false := by
      simpa [isSkipped] using hskip
    simp only [hif, Bool.false_eq_true, if_false, Work.fails_note_bind]
    simp only [Work.fails_bind, Work.fails_reporting, Work.yields_reporting, Passes, hskip]
    constructor
    · intro h
      obtain hst | ⟨_, j, r', hst, hrest⟩ := h
      · exact .inl ⟨by simp, hst⟩
      · exact .inr ⟨_, r', .inr ⟨by simp, j, hst, rfl⟩, hrest⟩
    · intro h
      obtain ⟨-, hst⟩ | ⟨_, r', ⟨hno, -⟩ | ⟨-, j, hst, -⟩, hrest⟩ := h
      · exact .inl hst
      · cases hno
      · exact .inr ⟨(), j, r', hst, hrest⟩

theorem fails_stages_append {first rest : List Stage} {stop : Stop}
    (hfirst : (stages s read text first).Yields r () j r')
    (hrest : (stages s read text rest).Fails r' stop r'') :
    (stages s read text (first ++ rest)).Fails r stop r'' := by
  induction first generalizing r j with
  | nil =>
    obtain ⟨-, rfl⟩ := yields_stages_nil.1 hfirst
    exact hrest
  | cons st first ih =>
    obtain ⟨_, _, _, hst, hfirst, -⟩ := yields_stages_cons.1 hfirst
    exact fails_stages_cons.2 (.inr ⟨_, _, hst, ih hfirst⟩)

theorem yields_parse {u : Unit} :
    (parse s read text).Yields r u j r' ↔ ∃ design c, designText s read text = .ok design ∧
      (Chart.read s.label design s.directory read).Yields () c j () ∧
      r' = { r with chart := c } := by
  rw [parse, Work.yields_ofExcept_bind]
  simp only [mapError_eq_ok, Work.yields_bind, Work.yields_within, Work.yields_modify]
  constructor
  · intro h
    obtain ⟨design, hdesign, c, j₁, _, _, ⟨_, hread, rfl⟩, ⟨rfl, rfl⟩, rfl⟩ := h
    exact ⟨design, c, hdesign, by simpa using hread, rfl⟩
  · intro h
    obtain ⟨design, c, hdesign, hread, rfl⟩ := h
    exact ⟨design, hdesign, c, j, r, [], ⟨(), hread, rfl⟩, ⟨rfl, rfl⟩, by simp⟩

theorem yields_onChart {check : Check Unit} {u : Unit} :
    (onChart check).Yields r u j r' ↔
      ∃ c, check.Yields r.chart u j c ∧ r' = { r with chart := c } :=
  Work.yields_within

theorem yields_generate {pass : Chart → Generate Unit} {u : Unit} :
    (generate pass).Yields r u j r' ↔
      ∃ g, (pass r.chart).Yields (Generator.resume r.callbacks) u j g ∧
        r' = { r with callbacks := g.out } := by
  simp only [generate, Work.yields_get_bind, Work.yields_within]

theorem overridePath_state {ε σ : Type} {o : Options} {t t' : σ} {p : Option Path}
    (h : (s.overridePath o : Work ε σ (Option Path)).Yields t p j t') : t' = t := by
  unfold Settings.overridePath at h
  dsimp only at h
  split at h
  · split at h
    · simp only [Work.yields_bind, Work.yields_warn, Work.yields_pure] at h
      obtain ⟨_, _, _, _, ⟨-, rfl⟩, ⟨-, -, rfl⟩, -⟩ := h
      rfl
    · exact (Work.yields_pure.1 h).2.2
  · exact (Work.yields_pure.1 h).2.2
  · exact (Work.yields_pure.1 h).2.2

def mergeFile (read : Reading.FileReader) (path : Path) : Stagework Unit := do
  let file ← Work.ofExcept ((OverrideFile.load read path).mapError .rejected)
  let orphans ← file.merge.within (fun r => r.callbacks.routines)
    (fun routines r => { r with callbacks := { r.callbacks with routines } }) .rejected
  Work.modify fun r => { r with orphans }

theorem yields_mergeFile {u : Unit} {p : Path} :
    (mergeFile read p).Yields r u j r' ↔
      ∃ file orphans routines, OverrideFile.load read p = .ok file ∧
        file.merge.Yields r.callbacks.routines orphans j routines ∧
        r' = { r with callbacks := { r.callbacks with routines }, orphans } := by
  rw [mergeFile, Work.yields_ofExcept_bind]
  simp only [mapError_eq_ok, Work.yields_bind, Work.yields_within, Work.yields_modify]
  constructor
  · intro h
    obtain ⟨file, hfile, orphans, j₁, _, _, ⟨routines, hmerge, rfl⟩, ⟨rfl, rfl⟩, rfl⟩ := h
    exact ⟨file, orphans, routines, hfile, by simpa using hmerge, rfl⟩
  · intro h
    obtain ⟨file, orphans, routines, hfile, hmerge, rfl⟩ := h
    exact ⟨file, hfile, orphans, j, _, [], ⟨routines, hmerge, rfl⟩, ⟨rfl, rfl⟩, by simp⟩

theorem fails_mergeFile {p : Path} {e : Error} (h : OverrideFile.load read p = .error e) :
    (mergeFile read p).Fails r (.rejected e) r := by
  rw [mergeFile, Work.fails_bind, h]
  exact .inl ⟨rfl, rfl⟩

theorem merge_eq : merge s read = Work.get >>= fun r =>
    s.overridePath r.chart.options >>= fun path => path.elim (Pure.pure ()) (mergeFile read) := by
  unfold merge
  congr 1
  funext r
  congr 1
  funext path
  cases path with
  | none => rfl
  | some path => rfl

theorem yields_merge {u : Unit} :
    (merge s read).Yields r u j r' ↔ ∃ path j₁ j₂,
      (s.overridePath r.chart.options : Stagework (Option Path)).Yields r path j₁ r ∧
        (path.elim (Pure.pure ()) (mergeFile read)).Yields r u j₂ r' ∧ j = j₁ ++ j₂ := by
  rw [merge_eq, Work.yields_get_bind, Work.yields_bind]
  constructor
  · intro h
    obtain ⟨path, j₁, _, j₂, hpath, hfile, rfl⟩ := h
    obtain rfl := overridePath_state hpath
    exact ⟨path, j₁, j₂, hpath, hfile, rfl⟩
  · intro h
    obtain ⟨path, j₁, j₂, hpath, hfile, rfl⟩ := h
    exact ⟨path, j₁, r, j₂, hpath, hfile, rfl⟩

theorem merge_chart {u : Unit} (h : (merge s read).Yields r u j r') : r'.chart = r.chart := by
  obtain ⟨path, _, _, -, hfile, -⟩ := yields_merge.1 h
  cases path with
  | none =>
    obtain ⟨-, -, rfl⟩ := Work.yields_pure.1 hfile
    rfl
  | some p =>
    obtain ⟨_, _, _, -, -, rfl⟩ := yields_mergeFile.1 hfile
    rfl

theorem merge_of_no_overrides (ho : r.chart.options.overrides = none) :
    merge s read r = (s.callbacks.elim (Pure.pure ()) (mergeFile read)) r := by
  have hpath : (s.overridePath r.chart.options : Stagework (Option Path)) =
      Pure.pure s.callbacks := by
    unfold Settings.overridePath
    cases hs : s.callbacks with
    | none => simp [ho]
    | some p => simp [ho]
  have hget : merge s read r = (s.overridePath r.chart.options >>= fun path =>
      path.elim (Pure.pure ()) (mergeFile read)) r := by
    rw [merge_eq]
    rfl
  rw [hget, hpath]
  rfl

theorem yields_merge_none {u : Unit} (ho : r.chart.options.overrides = none)
    (hgiven : s.callbacks = none) :
    (merge s read).Yields r u j r' ↔ j = [] ∧ r' = r := by
  rw [Work.Yields, merge_of_no_overrides ho, hgiven]
  exact Work.yields_pure.trans (and_iff_right rfl)

theorem yields_declare {u : Unit} :
    declare.Yields r u j r' ↔ ∃ d, Module.declarations r.chart r.callbacks = .ok d ∧ j = [] ∧
      r' = { r with declarations := d } := by
  simp only [declare, Work.yields_get_bind, Work.yields_ofExcept_bind, Work.yields_modify]

theorem yields_write {u : Unit} :
    write.Yields r u j r' ↔ ∃ source, Module.source r.chart r.declarations = .ok source ∧ j = [] ∧
      r' = { r with source := some source } := by
  simp only [write, Work.yields_get_bind, Work.yields_ofExcept_bind, Work.yields_modify]

/-- The stages up to the hooks, which hand-written callbacks have no part in. -/
def toHooks : List Stage :=
  [.parseDesign, .allocateEvents, .validateStart, .validateTransitions, .generateStateHooks,
    .generateTransitionHooks]

def afterHooks : List Stage :=
  [.mergeOverrides, .emitDeclarations, .emitWrapper]

theorem stages_all : Stage.all = toHooks ++ afterHooks := rfl

def compiled (s : Settings) (r : Run) (callbacksSource : Option String) : Compilation where
  chart := r.chart
  source := r.source
  callbacksSource := callbacksSource
  orphans := r.orphans
  outputPath := s.outputPath r.chart.name

theorem exists_yields_stages_cons {rest : List Stage} (hskip : isSkipped st r = false)
    (hst : (stage s read text st).Yields r () j r')
    (hrest : ∃ j, (stages s read text rest).Yields r' () j r'') :
    ∃ j, (stages s read text (st :: rest)).Yields r () j r'' := by
  obtain ⟨j', hrest⟩ := hrest
  exact ⟨_, yields_stages_cons.2 ⟨_, r', j', .inr ⟨hskip, j, hst, rfl⟩, hrest, rfl⟩⟩

def hooksOf (v : Chart) : Callbacks :=
  (Generator.transitionHooks v (Generator.resume
    (Generator.stateHooks v (Generator.resume {})).state.out)).state.out

structure Generates (v : Chart) : Prop where
  genCode : v.options.genCode = true
  states : (Generator.stateHooks v (Generator.resume {})).result = .ok ()
  transitions : (Generator.transitionHooks v (Generator.resume
    (Generator.stateHooks v (Generator.resume {})).state.out)).result = .ok ()
  module : ∃ declarations source, Module.declarations v (hooksOf v) = .ok declarations ∧
    Module.source v declarations = .ok source
  callbacks : ∃ text, Module.callbacksSource v (hooksOf v) = .ok (some text)

theorem yields_toHooks {design : String} {c : Chart}
    (hgen : (Validation.all c).state.options.genCode = true)
    (hstates : (Generator.stateHooks (Validation.all c).state (Generator.resume {})).result = .ok ())
    (htransitions : (Generator.transitionHooks (Validation.all c).state (Generator.resume
      (Generator.stateHooks (Validation.all c).state (Generator.resume {})).state.out)).result =
        .ok ())
    (hdesign : designText s read text = .ok design)
    (hread : (Chart.read s.label design s.directory read ()).result = .ok c)
    (hall : (Validation.all c).result = .ok ()) :
    ∃ j, (stages s read text toHooks).Yields {} () j
      { chart := (Validation.all c).state, callbacks := hooksOf (Validation.all c).state } := by
  have hvalidated := Work.yields_of_result hall
  generalize (Validation.all c).state = v at hgen hstates htransitions hvalidated ⊢
  rw [Validation.all, Work.yields_bind] at hvalidated
  obtain ⟨_, j₁, c₁, _, hevents, hrest, -⟩ := hvalidated
  obtain ⟨_, j₂, c₂, _, hstarts, hchecks, -⟩ := Work.yields_bind.1 hrest
  have hon : ∀ (st : Stage) (out : Callbacks),
      isSkipped st { chart := v, callbacks := out } = false := by
    intro st out
    simp [isSkipped, hgen]
  refine exists_yields_stages_cons rfl
    (yields_parse.2 ⟨design, c, hdesign, Work.yields_of_result hread, rfl⟩) ?_
  refine exists_yields_stages_cons rfl (yields_onChart.2 ⟨c₁, hevents, rfl⟩) ?_
  refine exists_yields_stages_cons rfl (yields_onChart.2 ⟨c₂, hstarts, rfl⟩) ?_
  refine exists_yields_stages_cons rfl (yields_onChart.2 ⟨v, hchecks, rfl⟩) ?_
  refine exists_yields_stages_cons (hon _ _)
    (yields_generate.2 ⟨_, Work.yields_of_result hstates, rfl⟩) ?_
  refine exists_yields_stages_cons (hon _ _)
    (yields_generate.2 ⟨_, Work.yields_of_result htransitions, rfl⟩) ?_
  exact ⟨[], yields_stages_nil.2 ⟨rfl, rfl⟩⟩

theorem Generates.yields_toHooks {design : String} {c : Chart}
    (h : Generates (Validation.all c).state) (hdesign : designText s read text = .ok design)
    (hread : (Chart.read s.label design s.directory read ()).result = .ok c)
    (hall : (Validation.all c).result = .ok ()) :
    ∃ j, (stages s read text toHooks).Yields {} () j
      { chart := (Validation.all c).state, callbacks := hooksOf (Validation.all c).state } :=
  Run.yields_toHooks h.genCode h.states h.transitions hdesign hread hall

theorem passes_of_genCode (hgen : r.chart.options.genCode = true) :
    Passes s read text st r j r' ↔
      ∃ j', (stage s read text st).Yields r () j' r' ∧ j = entered st :: j' := by
  simp [Passes, isSkipped, hgen]

def emission : List Stage :=
  [.emitDeclarations, .emitWrapper]

theorem yields_emission (hgen : r.chart.options.genCode = true) :
    (stages s read text emission).Yields r () j r' ↔
      ∃ declarations source, Module.declarations r.chart r.callbacks = .ok declarations ∧
        Module.source r.chart declarations = .ok source ∧
        r' = { r with declarations, source := some source } ∧
        j = [entered .emitDeclarations, entered .emitWrapper] := by
  constructor
  · intro h
    obtain ⟨_, r₁, _, hpass₁, hrest₁, rfl⟩ := yields_stages_cons.1 h
    obtain ⟨_, hdeclare, rfl⟩ := (passes_of_genCode hgen).1 hpass₁
    obtain ⟨d, hd, rfl, rfl⟩ := yields_declare.1 hdeclare
    obtain ⟨_, r₂, _, hpass₂, hrest₂, rfl⟩ := yields_stages_cons.1 hrest₁
    obtain ⟨_, hwrite, rfl⟩ := (passes_of_genCode (by exact hgen)).1 hpass₂
    obtain ⟨source, hsource, rfl, rfl⟩ := yields_write.1 hwrite
    obtain ⟨rfl, rfl⟩ := yields_stages_nil.1 hrest₂
    exact ⟨d, source, hd, hsource, rfl, rfl⟩
  · intro h
    obtain ⟨d, source, hd, hsource, rfl, rfl⟩ := h
    have hdeclare : declare.Yields r () _ _ := yields_declare.2 ⟨d, hd, rfl, rfl⟩
    have hwrite : write.Yields { r with declarations := d } () _ _ :=
      yields_write.2 ⟨source, hsource, rfl, rfl⟩
    exact yields_stages_cons.2 ⟨_, _, _, (passes_of_genCode hgen).2 ⟨_, hdeclare, rfl⟩,
      yields_stages_cons.2 ⟨_, _, _, (passes_of_genCode (by exact hgen)).2 ⟨_, hwrite, rfl⟩,
        yields_stages_nil.2 ⟨rfl, rfl⟩, rfl⟩, rfl⟩

theorem yields_afterHooks (hgen : r.chart.options.genCode = true) :
    (stages s read text afterHooks).Yields r () j r'' ↔
      ∃ j₁ r' declarations source, (merge s read).Yields r () j₁ r' ∧
        Module.declarations r'.chart r'.callbacks = .ok declarations ∧
        Module.source r'.chart declarations = .ok source ∧
        r'' = { r' with declarations, source := some source } ∧
        j = entered .mergeOverrides :: j₁ ++ [entered .emitDeclarations, entered .emitWrapper] := by
  constructor
  · intro h
    obtain ⟨_, r₁, _, hpass, hrest, rfl⟩ := yields_stages_cons.1 h
    obtain ⟨j₁, hmerge, rfl⟩ := (passes_of_genCode hgen).1 hpass
    have hgen₁ : r₁.chart.options.genCode = true := by rw [merge_chart hmerge, hgen]
    obtain ⟨d, source, hd, hsource, rfl, rfl⟩ := (yields_emission hgen₁).1 hrest
    exact ⟨j₁, r₁, d, source, hmerge, hd, hsource, rfl, rfl⟩
  · intro h
    obtain ⟨j₁, r₁, d, source, hmerge, hd, hsource, rfl, rfl⟩ := h
    have hgen₁ : r₁.chart.options.genCode = true := by rw [merge_chart hmerge, hgen]
    exact yields_stages_cons.2 ⟨_, r₁, _, (passes_of_genCode hgen).2 ⟨j₁, hmerge, rfl⟩,
      (yields_emission hgen₁).2 ⟨d, source, hd, hsource, rfl, rfl⟩, rfl⟩

def routines (s : Settings) (read : Reading.FileReader) (text : Option String) : List Routine :=
  (stages s read text Stage.all {}).state.callbacks.routines

theorem routines_eq {d : List Target.Token} {source : String} {j₁ j₂ : Journal}
    (hhooks : (stages s read text toHooks).Yields {} () j₁ r)
    (hgen : r.chart.options.genCode = true) (hmerge : (merge s read).Yields r () j₂ r')
    (hd : Module.declarations r'.chart r'.callbacks = .ok d)
    (hsource : Module.source r'.chart d = .ok source) :
    routines s read text = r'.callbacks.routines := by
  have hafter : (stages s read text afterHooks).Yields r () _ _ :=
    (yields_afterHooks hgen).2 ⟨j₂, r', d, source, hmerge, hd, hsource, rfl, rfl⟩
  have hstages := yields_stages_append.2 ⟨j₁, r, _, hhooks, hafter, rfl⟩
  rw [← stages_all] at hstages
  rw [routines, hstages.state_eq]

/-- Stages that generate do nothing where no code is generated. -/
theorem eq_of_skipped {sts : List Stage} (hsts : ∀ st ∈ sts, st.generates = true)
    (hgen : r.chart.options.genCode = false) (h : (stages s read text sts).Yields r () j r') :
    r' = r := by
  induction sts generalizing j with
  | nil => exact (yields_stages_nil.1 h).2
  | cons st sts ih =>
    obtain ⟨hst, hsts⟩ := List.forall_mem_cons.1 hsts
    obtain ⟨_, r₁, _, hpass, hrest, -⟩ := yields_stages_cons.1 h
    obtain ⟨-, -, rfl⟩ | ⟨hno, -⟩ := hpass
    · exact ih hsts hrest
    · simp [isSkipped, hst, hgen] at hno

theorem not_fails_of_skipped {sts : List Stage} (hsts : ∀ st ∈ sts, st.generates = true)
    (hgen : r.chart.options.genCode = false) {stop : Stop} :
    ¬ (stages s read text sts).Fails r stop r' := by
  induction sts with
  | nil =>
    intro h
    cases h.1
  | cons st sts ih =>
    obtain ⟨hst, hsts⟩ := List.forall_mem_cons.1 hsts
    intro h
    obtain ⟨hno, -⟩ | ⟨_, r₁, ⟨-, -, rfl⟩ | ⟨hno, -⟩, hrest⟩ := fails_stages_cons.1 h
    · simp [isSkipped, hst, hgen] at hno
    · exact ih hsts hrest
    · simp [isSkipped, hst, hgen] at hno

theorem chart_of_passes (hst : st.generates = true) (h : Passes s read text st r j r') :
    r'.chart = r.chart := by
  obtain ⟨-, -, rfl⟩ | ⟨-, _, hyields, -⟩ := h
  · rfl
  · cases st with
    | parseDesign | allocateEvents | validateStart | validateTransitions => cases hst
    | generateStateHooks | generateTransitionHooks =>
      obtain ⟨_, -, rfl⟩ := yields_generate.1 hyields
      rfl
    | mergeOverrides => exact merge_chart hyields
    | emitDeclarations =>
      obtain ⟨_, -, -, rfl⟩ := yields_declare.1 hyields
      rfl
    | emitWrapper =>
      obtain ⟨_, -, -, rfl⟩ := yields_write.1 hyields
      rfl

theorem chart_of_generating {sts : List Stage} (hsts : ∀ st ∈ sts, st.generates = true)
    (h : (stages s read text sts).Yields r () j r') : r'.chart = r.chart := by
  induction sts generalizing r j with
  | nil =>
    obtain ⟨-, rfl⟩ := yields_stages_nil.1 h
    rfl
  | cons st sts ih =>
    obtain ⟨hst, hsts⟩ := List.forall_mem_cons.1 hsts
    obtain ⟨_, r₁, _, hpass, hrest, -⟩ := yields_stages_cons.1 h
    rw [ih hsts hrest, chart_of_passes hst hpass]

def generating : List Stage :=
  Stage.all.filter Stage.generates

/-- A run that gets through has read and validated a chart before anything is generated. -/
theorem yields_generating (h : (stages s read text Stage.all).Yields {} () j r) :
    ∃ design chart j', designText s read text = .ok design ∧
      (Chart.read s.label design s.directory read ()).result = .ok chart ∧
      (Validation.all chart).result = .ok () ∧
      (stages s read text generating).Yields { chart := (Validation.all chart).state } () j' r := by
  have hstage : ∀ {st : Stage} {a b : Run} {j : Journal}, st.generates = false →
      Passes s read text st a j b → ∃ j, (stage s read text st).Yields a () j b := by
    intro st a b j hst hpass
    obtain ⟨hskip, -⟩ | ⟨-, _, hyields, -⟩ := hpass
    · simp [isSkipped, hst] at hskip
    · exact ⟨_, hyields⟩
  obtain ⟨_, r₁, _, hp₁, h, -⟩ := yields_stages_cons.1 h
  obtain ⟨_, r₂, _, hp₂, h, -⟩ := yields_stages_cons.1 h
  obtain ⟨_, r₃, _, hp₃, h, -⟩ := yields_stages_cons.1 h
  obtain ⟨_, r₄, _, hp₄, h, -⟩ := yields_stages_cons.1 h
  obtain ⟨_, hy₁⟩ := hstage rfl hp₁
  obtain ⟨_, hy₂⟩ := hstage rfl hp₂
  obtain ⟨_, hy₃⟩ := hstage rfl hp₃
  obtain ⟨_, hy₄⟩ := hstage rfl hp₄
  obtain ⟨design, chart, hdesign, hread, rfl⟩ := yields_parse.1 hy₁
  obtain ⟨c₁, hevents, rfl⟩ := yields_onChart.1 hy₂
  obtain ⟨c₂, hstarts, rfl⟩ := yields_onChart.1 hy₃
  obtain ⟨v, hchecks, rfl⟩ := yields_onChart.1 hy₄
  have hall : Validation.all.Yields chart () _ v :=
    Work.yields_bind.2 ⟨(), _, c₁, _, hevents,
      Work.yields_bind.2 ⟨(), _, c₂, _, hstarts, hchecks, rfl⟩, rfl⟩
  exact ⟨design, chart, _, hdesign, hread.result_eq, hall.result_eq, hall.state_eq ▸ h⟩

end Run

open Run

variable {s : Settings} {read : Reading.FileReader} {text : Option String} {c : Compilation}

theorem yields_finish {r r' : Run} {j : Journal} :
    (finish s).Yields r c j r' ↔
      ∃ callbacksSource, Module.callbacksSource r.chart r.callbacks = .ok callbacksSource ∧
        c = r.compiled s callbacksSource ∧ j = [] ∧ r' = r := by
  simp only [finish, Work.yields_get_bind, Work.yields_ofExcept_bind, mapError_eq_ok,
    Work.yields_pure]
  rfl

theorem yields_stages_finish {r : Run} {j : Journal} :
    (stages s read text Stage.all >>= fun _ => finish s).Yields {} c j r ↔
      ∃ callbacksSource, (stages s read text Stage.all).Yields {} () j r ∧
        Module.callbacksSource r.chart r.callbacks = .ok callbacksSource ∧
        c = r.compiled s callbacksSource := by
  simp only [Work.yields_bind, yields_finish]
  constructor
  · intro h
    obtain ⟨_, _, _, _, hstages, ⟨cb, hcb, rfl, rfl, rfl⟩, rfl⟩ := h
    exact ⟨cb, by simpa using hstages, hcb, rfl⟩
  · intro h
    obtain ⟨cb, hstages, hcb, rfl⟩ := h
    exact ⟨(), j, r, [], hstages, ⟨cb, hcb, rfl, rfl, rfl⟩, by simp⟩

theorem Stop.outcome_ne_emitted (stop : Stop) : stop.outcome ≠ .emitted c := by
  unfold Stop.outcome
  cases stop.fault with
  | rejected e => simp
  | unprintable text => simp

theorem compileText_emitted_iff {j : Journal} :
    compileText s read text = ⟨.emitted c, j⟩ ↔
      ∃ j₁ r callbacksSource, (stages s read text Stage.all).Yields {} () j₁ r ∧
        Module.callbacksSource r.chart r.callbacks = .ok callbacksSource ∧
        c = r.compiled s callbacksSource ∧ j = j₁ ++ [finished c j₁.warnings.length] := by
  constructor
  · intro h
    unfold compileText at h
    dsimp only at h
    split at h
    · rename_i c' hc
      have hwhole := Work.yields_of_result hc
      obtain ⟨hc', rfl⟩ := Report.mk.inj h
      obtain rfl := Outcome.emitted.inj hc'
      obtain ⟨cb, hstages, hcb, hcompiled⟩ := yields_stages_finish.1 hwhole
      exact ⟨_, _, cb, hstages, hcb, hcompiled, rfl⟩
    · exact absurd (Report.mk.inj h).1 (Stop.outcome_ne_emitted _)
  · intro h
    obtain ⟨j₁, r, cb, hstages, hcb, hc, rfl⟩ := h
    have hwhole := yields_stages_finish.2 ⟨cb, hstages, hcb, hc⟩
    simp only [Work.Yields] at hwhole
    unfold compileText
    simp only [hwhole]

/-- A compilation that generates code: hooks, hand-written callbacks, declarations, the module and
the callbacks file, in this order. -/
theorem compileText_generated_iff {j : Journal} :
    (compileText s read text = ⟨.emitted c, j⟩ ∧ c.chart.options.genCode = true) ↔
      ∃ j₁ r j₂ r' declarations source callbacksSource,
        (stages s read text toHooks).Yields {} () j₁ r ∧ r.chart.options.genCode = true ∧
        (merge s read).Yields r () j₂ r' ∧
        Module.declarations r'.chart r'.callbacks = .ok declarations ∧
        Module.source r'.chart declarations = .ok source ∧
        Module.callbacksSource r'.chart r'.callbacks = .ok callbacksSource ∧
        c = { r' with source := some source }.compiled s callbacksSource ∧
        j = j₁ ++ (entered .mergeOverrides :: j₂ ++
          [entered .emitDeclarations, entered .emitWrapper]) ++
          [finished c (j₁.warnings.length + j₂.warnings.length)] := by
  have hcount : ∀ j₁ j₂ : Journal, (j₁ ++ (entered .mergeOverrides :: j₂ ++
      [entered .emitDeclarations, entered .emitWrapper])).warnings.length =
        j₁.warnings.length + j₂.warnings.length := by
    intro j₁ j₂
    simp [Journal.warnings, entered]
  rw [compileText_emitted_iff, stages_all]
  constructor
  · intro h
    obtain ⟨⟨_, r'', cb, hstages, hcb, rfl, rfl⟩, hgen⟩ := h
    obtain ⟨j₁, r, _, hhooks, hafter, rfl⟩ := yields_stages_append.1 hstages
    by_cases hon : r.chart.options.genCode = true
    · obtain ⟨j₂, r', d, source, hmerge, hd, hsource, rfl, rfl⟩ := (yields_afterHooks hon).1 hafter
      exact ⟨j₁, r, j₂, r', d, source, cb, hhooks, hon, hmerge, hd, hsource, hcb, rfl,
        by rw [hcount]⟩
    · obtain rfl := eq_of_skipped (by decide) (by simpa using hon) hafter
      exact absurd hgen hon
  · intro h
    obtain ⟨j₁, r, j₂, r', d, source, cb, hhooks, hon, hmerge, hd, hsource, hcb, rfl, rfl⟩ := h
    have hafter : (stages s read text afterHooks).Yields r () _ _ :=
      (yields_afterHooks hon).2 ⟨j₂, r', d, source, hmerge, hd, hsource, rfl, rfl⟩
    have hstages := yields_stages_append.2 ⟨j₁, r, _, hhooks, hafter, rfl⟩
    refine ⟨⟨_, _, cb, hstages, hcb, rfl, by rw [hcount]⟩, ?_⟩
    exact (congrArg (·.options.genCode) (merge_chart hmerge)).trans hon

theorem Run.Generates.emitted {design : String} {chart : Chart}
    (h : Generates (Validation.all chart).state) (hdesign : designText s read text = .ok design)
    (hread : (Chart.read s.label design s.directory read ()).result = .ok chart)
    (hall : (Validation.all chart).result = .ok ()) (hgiven : s.callbacks = none)
    (hnamed : (Validation.all chart).state.options.overrides = none) :
    ∃ c j source callbacks, compileText s read text = ⟨.emitted c, j⟩ ∧
      c.chart = (Validation.all chart).state ∧ c.source = some source ∧
      c.callbacksSource = some callbacks ∧
      Module.callbacksSource c.chart (hooksOf c.chart) = .ok (some callbacks) ∧
      c.outputPath = s.outputPath c.chart.name ∧
      routines s read text = (hooksOf c.chart).routines := by
  obtain ⟨j, hhooks⟩ := h.yields_toHooks hdesign hread hall
  obtain ⟨declarations, source, hd, hsource⟩ := h.module
  obtain ⟨callbacks, hcallbacks⟩ := h.callbacks
  have hmerge : (merge s read).Yields
      { chart := (Validation.all chart).state, callbacks := hooksOf (Validation.all chart).state }
      () [] _ :=
    (yields_merge_none hnamed hgiven).2 ⟨rfl, rfl⟩
  have hgenerated := compileText_generated_iff.2 ⟨j, _, [], _, declarations, source, _, hhooks,
    h.genCode, hmerge, hd, hsource, hcallbacks, rfl, rfl⟩
  exact ⟨_, _, source, callbacks, hgenerated.1, rfl, rfl, rfl, hcallbacks, rfl,
    routines_eq hhooks h.genCode hmerge hd hsource⟩

theorem outcome_of_fails {stop : Stop} {r : Run}
    (h : (stages s read text Stage.all).Fails {} stop r) :
    (compileText s read text).outcome = stop.outcome := by
  have hall : (stages s read text Stage.all >>= fun _ => finish s).Fails {} stop r :=
    Work.fails_bind.2 (.inl h)
  unfold compileText
  simp only [hall.1]

theorem Module.callbacksSource_of_off {v : Chart} (hgen : v.options.genCode = false)
    (k : Callbacks) : callbacksSource v k = .ok none := by
  simp only [callbacksSource, hgen, Bool.not_false, Bool.true_or, if_true]
  rfl

theorem isSome_source_of_callbacksSource
    (h : (compileText s read text).outcome = .emitted c) (hcb : c.callbacksSource.isSome) :
    c.source.isSome := by
  obtain ⟨j, r, cb, hstages, hsource, rfl, -⟩ :=
    compileText_emitted_iff.1 (show compileText s read text = ⟨.emitted c, _⟩ by rw [← h])
  have hall : Stage.all = Stage.all.dropLast ++ [.emitWrapper] := rfl
  rw [hall, yields_stages_append] at hstages
  obtain ⟨_, r', _, -, hlast, -⟩ := hstages
  obtain ⟨_, _, _, hpass, hnil, -⟩ := yields_stages_cons.1 hlast
  obtain ⟨-, rfl⟩ := yields_stages_nil.1 hnil
  obtain ⟨hskip, -, rfl⟩ | ⟨-, _, hwrite, -⟩ := hpass
  · -- without code generation there is no callbacks file either
    have hoff : r.chart.options.genCode = false := by
      simpa [isSkipped, Stage.generates] using hskip
    rw [Module.callbacksSource_of_off hoff] at hsource
    cases hsource
    simp [compiled] at hcb
  · obtain ⟨_, -, -, rfl⟩ := yields_write.1 hwrite
    rfl

theorem exists_chart_of_emitted (h : (compileText s read text).outcome = .emitted c) :
    ∃ design chart, designText s read text = .ok design ∧
      (Chart.read s.label design s.directory read ()).result = .ok chart ∧
      (Validation.all chart).result = .ok () ∧ c.chart = (Validation.all chart).state ∧
      (c.chart.options.genCode = false → c.source = none) := by
  obtain ⟨j, r, cb, hstages, -, rfl, -⟩ :=
    compileText_emitted_iff.1 (show compileText s read text = ⟨.emitted c, _⟩ by rw [← h])
  obtain ⟨design, chart, _, hdesign, hread, hall, hgenerating⟩ := yields_generating hstages
  have hchart : r.chart = (Validation.all chart).state := chart_of_generating (by decide) hgenerating
  refine ⟨design, chart, hdesign, hread, hall, hchart, ?_⟩
  intro hoff
  obtain rfl := eq_of_skipped (by decide) (hchart ▸ hoff) hgenerating
  rfl

/-- To emit the module of a given chart, its longer templates are written out as characters. -/
def spelled : { text : Chart → Callbacks → Option String // ∀ c callbacks,
    ((Module.declarations c callbacks).toOption.bind fun d => (Module.source c d).toOption) =
      text c callbacks } :=
  ⟨_, fun c callbacks => by
    simp only [Module.declarations, Module.eventTables, Module.buildStatechart, Module.source,
      Module.allowAttribute, Module.wrapper, Module.localWrapper, Module.nameConst,
      Module.statechartFn, Module.defaultImpl]
    -- the text is not yet known, so that nothing here may close the goal but the last step
    repeat rewrite [Target.code_ofList_append]
    repeat rewrite [Target.code_ofList]
    rfl⟩

theorem exists_module_of_isSome {v : Chart} (h : (spelled.1 v (hooksOf v)).isSome = true) :
    ∃ declarations source, Module.declarations v (hooksOf v) = .ok declarations ∧
      Module.source v declarations = .ok source := by
  rw [← spelled.2] at h
  obtain ⟨source, h⟩ := Option.isSome_iff_exists.1 h
  obtain ⟨declarations, hd, hsource⟩ := Option.bind_eq_some_iff.1 h
  exact ⟨declarations, source, ok_of_toOption hd, ok_of_toOption hsource⟩

theorem exists_callbacks_of_isSome {v : Chart}
    (h : (Module.callbacksSource v (hooksOf v)).toOption.join.isSome = true) :
    ∃ text, Module.callbacksSource v (hooksOf v) = .ok (some text) := by
  obtain ⟨text, h⟩ := Option.isSome_iff_exists.1 h
  exact ⟨text, ok_of_toOption (Option.join_eq_some_iff.1 h)⟩

/-- A bulb: one state, and a callbacks file of its own. -/
def bulbLines : List String :=
  ["[STATECHART]", "name = Bulb", "[OPTIONS]", "gencallbacks = true",
    "[EVENTS_1]", "name = Key", "base = 1", "event_1 = press",
    "[STATE_1]", "name = Idle", "parent = None", "type = State",
    "entry = None", "do = None", "exit = None",
    "[TRANSITION_1]", "start = Start", "end = Idle", "event = None", "guard = None",
    "action = None"]

def bulb : Chart where
  name := "Bulb"
  options := { genCallbacks := true }
  states := [⟨"STATE_1", "Idle", none, .simple, .absent, .absent, .absent, false⟩]
  groups := [⟨"EVENTS_1", "Key", some 1, ["press"], []⟩]
  transitions := [⟨"TRANSITION_1", .start, .state "Idle", none, .absent, .absent, false⟩]

def bulbSettings : Settings where
  design := ⟨"bulb.ini"⟩

theorem bulb_read (read : Reading.FileReader) :
    (Chart.read "bulb.ini" (Text.unlines bulbLines) ⟨""⟩ read ()).result = .ok bulb := by
  have hread : (Chart.read "bulb.ini" (Text.unlines bulbLines) ⟨""⟩
      (fun _ => .error .notFound) ()).result = .ok bulb :=
    Chart.read_unlines (by repeat constructor) (by decide +kernel) (by decide +kernel)
  rw [Chart.read_of_no_files hread, hread]

theorem bulb_passes : (Validation.all bulb).result = .ok () :=
  ok_of_toOption (by decide +kernel)

theorem bulb_generates : Generates (Validation.all bulb).state where
  genCode := by decide +kernel
  states := ok_of_toOption (by decide +kernel)
  transitions := ok_of_toOption (by decide +kernel)
  module := exists_module_of_isSome (by decide +kernel)
  callbacks := exists_callbacks_of_isSome (by decide +kernel)

theorem bulb_emitted {s : Settings} {read : Reading.FileReader} {text : Option String}
    (hlabel : s.label = "bulb.ini") (hdirectory : s.directory = ⟨""⟩) (hgiven : s.callbacks = none)
    (hdesign : designText s read text = .ok (Text.unlines bulbLines)) :
    ∃ c j source callbacks, compileText s read text = ⟨.emitted c, j⟩ ∧
      c.chart = (Validation.all bulb).state ∧ c.source = some source ∧
      c.callbacksSource = some callbacks ∧
      Module.callbacksSource c.chart (hooksOf c.chart) = .ok (some callbacks) ∧
      c.outputPath = s.outputPath c.chart.name ∧
      routines s read text = (hooksOf c.chart).routines := by
  have hoptions : (Validation.all bulb).state.options = bulb.options := by decide +kernel
  refine bulb_generates.emitted hdesign ?_ bulb_passes hgiven (congrArg Options.overrides hoptions)
  rw [hlabel, hdirectory, bulb_read]

end Statechart
