import Statechart.Proofs.Callbacks.Marked
import Statechart.Proofs.Compile.Hooks

/-!
Compiling a design again with its own callbacks file.

The file has a function for every routine, and the compilation with it is the one without it: the
same module, no orphan and no further warning. The heading of the file has to be a comment. It
repeats the name of the chart, and a name may go on in a second line.
-/
set_option autoImplicit false

namespace Statechart

namespace Run

variable {s s' : Settings} {read read' : Reading.FileReader} {text : Option String} {st : Stage}
  {r r' : Run} {j : Journal}

theorem stages_congr {sts : List Stage}
    (h : ∀ st ∈ sts, stage s read text st = stage s' read' text st) :
    stages s read text sts = stages s' read' text sts := by
  induction sts with
  | nil => rfl
  | cons st sts ih =>
    obtain ⟨hst, hsts⟩ := List.forall_mem_cons.1 h
    rw [stages, stages, hst, ih hsts]

theorem stages_toHooks_congr {design : String} {path : Path}
    (hdesign : designText s read text = .ok design)
    (hdesign' : designText s read' text = .ok design)
    (hinputs : ∀ p ∈ s.inputs design, read' p = read p) :
    stages { s with callbacks := some path } read' text toHooks = stages s read text toHooks := by
  have hchart : Chart.read s.label design s.directory read' =
      Chart.read s.label design s.directory read := by
    apply Chart.read_congr
    intro f i p hf hi hp
    apply hinputs
    simp [Settings.inputs, hf, hi, hp]
  have hsame : designText { s with callbacks := some path } read' text = .ok design := by
    cases text with
    | none => exact hdesign'
    | some t => exact hdesign'
  have hparse : parse { s with callbacks := some path } read' text = parse s read text := by
    unfold parse
    rw [hsame, hdesign]
    apply Work.ofExcept_bind_congr
    intro d hd
    obtain rfl : design = d := Except.ok.inj hd
    exact congrArg (fun w : Reading.Read Chart => w.within _ _ _ >>= _) hchart
  apply stages_congr
  intro st hst
  simp only [toHooks, List.mem_cons, List.not_mem_nil, or_false] at hst
  rcases hst with rfl | rfl | rfl | rfl | rfl | rfl
  · exact hparse
  all_goals rfl

theorem orphans_of_passes (hst : st ∈ toHooks) (h : Passes s read text st r j r') :
    r'.orphans = r.orphans := by
  obtain ⟨-, -, rfl⟩ | ⟨-, _, hyields, -⟩ := h
  · rfl
  · simp only [toHooks, List.mem_cons, List.not_mem_nil, or_false] at hst
    rcases hst with rfl | rfl | rfl | rfl | rfl | rfl
    · obtain ⟨_, _, -, -, rfl⟩ := yields_parse.1 hyields
      rfl
    · obtain ⟨_, -, rfl⟩ := yields_onChart.1 hyields
      rfl
    · obtain ⟨_, -, rfl⟩ := yields_onChart.1 hyields
      rfl
    · obtain ⟨_, -, rfl⟩ := yields_onChart.1 hyields
      rfl
    · obtain ⟨_, -, rfl⟩ := yields_generate.1 hyields
      rfl
    · obtain ⟨_, -, rfl⟩ := yields_generate.1 hyields
      rfl

theorem orphans_of_toHooks {sts : List Stage} (hsts : ∀ st ∈ sts, st ∈ toHooks)
    (h : (stages s read text sts).Yields r () j r') : r'.orphans = r.orphans := by
  induction sts generalizing r j with
  | nil =>
    obtain ⟨-, rfl⟩ := yields_stages_nil.1 h
    rfl
  | cons st sts ih =>
    obtain ⟨hst, hrest⟩ := List.forall_mem_cons.1 hsts
    obtain ⟨_, r₁, _, hpass, h, -⟩ := yields_stages_cons.1 h
    rw [ih hrest h, orphans_of_passes hst hpass]

theorem yields_merge_mirrors {chart : Target.Ident} {fs : List Override} {path : Path}
    {callbacks : String} (hoverrides : r.chart.options.overrides = none)
    (hread : read path = .ok callbacks)
    (hparse : OverrideFile.parse path callbacks = .ok ⟨path, fs⟩)
    (hmirrors : List.Forall₂ (Mirrors chart) r.callbacks.routines fs)
    (hnames : (r.callbacks.routines.map Routine.name).Nodup) :
    (merge { s with callbacks := some path } read).Yields r ()
      [.note (OverrideFile.mergedNote fs.length)]
      { r with callbacks := { r.callbacks with
          routines := OverrideFile.overridden r.callbacks.routines fs }, orphans := [] } := by
  rw [Work.Yields, merge_of_no_overrides hoverrides]
  refine yields_mergeFile.2 ⟨⟨path, fs⟩, [], _, ?_, OverrideFile.yields_merge hmirrors hnames, rfl⟩
  rw [OverrideFile.load, hread]
  exact hparse

/-- With a file that mirrors the routines, the rest of the run is as without it. -/
theorem compileText_of_mirrors {chart : Target.Ident} {fs : List Override} {path : Path}
    {callbacks source : String} {d : List Target.Token} {cb : Option String}
    (hhooks : (stages { s with callbacks := some path } read text toHooks).Yields {} () j r)
    (hgen : r.chart.options.genCode = true) (hoverrides : r.chart.options.overrides = none)
    (hchart : Module.chartIdent r.chart = .ok chart)
    (hprint : ∀ x ∈ r.callbacks.routines, isPrintable x.name = true)
    (hnames : (r.callbacks.routines.map Routine.name).Nodup)
    (hgenerated : ∀ x ∈ r.callbacks.routines, x.override = none)
    (hd : Module.declarations r.chart r.callbacks = .ok d)
    (hsource : Module.source r.chart d = .ok source)
    (hcb : Module.callbacksSource r.chart r.callbacks = .ok cb)
    (hread : read path = .ok callbacks)
    (hparse : OverrideFile.parse path callbacks = .ok ⟨path, fs⟩)
    (hmirrors : List.Forall₂ (Mirrors chart) r.callbacks.routines fs) :
    ∃ j', compileText { s with callbacks := some path } read text =
        ⟨.emitted ({ r with source := some source, orphans := [] }.compiled s cb), j'⟩ ∧
      j'.warnings = j.warnings := by
  have hmerge := yields_merge_mirrors (s := s) hoverrides hread hparse hmirrors hnames
  have hd' := (Module.declarations_overridden hchart hprint hgenerated hmirrors).trans hd
  have hcb' := (Module.callbacksSource_overridden r.chart r.callbacks hmirrors).trans hcb
  have hcompiled := (compileText_generated_iff.2
    ⟨j, r, _, _, d, source, cb, hhooks, hgen, hmerge, hd', hsource, hcb', rfl, rfl⟩).1
  refine ⟨_, hcompiled, ?_⟩
  simp [Journal.warnings, entered, finished]

end Run

open Run

/-- The callbacks file of a design is a file of hand-written callbacks with a function for every
routine, and with it the design compiles as it does without. -/
theorem own_callbacks_compile_alike {s : Settings} {read : Reading.FileReader}
    {text : Option String} {design : String} {c : Compilation} {j : Journal}
    (hdesign : designText s read text = .ok design)
    (hcompiled : compileText s read text = ⟨.emitted c, j⟩)
    (hgen : c.chart.options.genCode = true) (hcallbacks : c.chart.options.genCallbacks = true)
    (hgiven : s.callbacks = none) (hnamed : c.chart.options.overrides = none)
    (hheading : Target.Lexer.IsComment (Module.callbacksHeading c.chart.name).toList)
    (hlanguage : ∀ ts, Module.markedFns c.chart (routines s read text) = .ok ts →
      Target.Reproduced ts) :
    ∃ source callbacks, c.source = some source ∧ c.callbacksSource = some callbacks ∧
      c.orphans = [] ∧
      (∀ path, ∃ file, OverrideFile.parse path callbacks = .ok file ∧
        file.functions.map (fun f => (f.name, f.role)) =
          (routines s read text).map fun r => (r.name, r.role)) ∧
      ∀ path read', read' path = .ok callbacks → designText s read' text = .ok design →
        (∀ p ∈ s.inputs design, read' p = read p) →
        ∃ j', compileText { s with callbacks := some path } read' text = ⟨.emitted c, j'⟩ ∧
          j'.warnings = j.warnings := by
  obtain ⟨j₁, r, j₂, r', d, source, cb, hhooks, hon, hmerge, hd, hsource, hcb, hc, hj⟩ :=
    compileText_generated_iff.1 ⟨hcompiled, hgen⟩
  have hchart : c.chart = r'.chart := by
    rw [hc]
    rfl
  rw [hchart] at hgen hcallbacks hnamed hheading hlanguage
  have hoverrides : r.chart.options.overrides = none := by
    rw [← merge_chart hmerge]
    exact hnamed
  have hroutines := routines_eq hhooks hon hmerge hd hsource
  obtain ⟨rfl, rfl⟩ := (yields_merge_none hoverrides hgiven).1 hmerge
  obtain ⟨hnames, hgenerated⟩ := routines_of_toHooks hhooks hon
  have horphans : r'.orphans = [] := orphans_of_toHooks (fun _ hst => hst) hhooks
  obtain ⟨ts, laid, hts, hlaid, rfl⟩ := (Module.callbacksSource_eq_ok hgen hcallbacks).1 hcb
  obtain ⟨chart, fs, hident, hprint, hmirrors, hparse⟩ := Module.callbacksFile_mirrors hts hlaid
    (hlanguage ts (by rw [hroutines]; exact hts)) hnames hheading
  refine ⟨source, _, by rw [hc]; rfl, by rw [hc]; rfl, by rw [hc]; exact horphans, ?_, ?_⟩
  · intro path
    refine ⟨_, hparse path, ?_⟩
    rw [hroutines]
    exact forall₂_map_eq hmirrors fun hf => by rw [hf.name, hf.role]
  · intro path read' hread hdesign' hinputs
    have hhooks' := hhooks
    rw [← stages_toHooks_congr hdesign hdesign' hinputs] at hhooks'
    obtain ⟨j', hcompiled', hwarnings⟩ := compileText_of_mirrors hhooks' hon hoverrides hident
      hprint hnames hgenerated hd hsource hcb hread (hparse path) hmirrors
    refine ⟨j', ?_, ?_⟩
    · rw [hcompiled', ← horphans, hc]
    · rw [hwarnings, hj]
      simp [Journal.warnings, entered, finished]

/-- The functions of the bulb, as tokens and as text. -/
def bulbFns : List Target.Token :=
  [.punct '#' false, .group .bracket [.ident "action"], .ident "pub", .ident "fn",
    .ident "do_nothing",
    .group .paren [.ident "param", .punct ':' false, .punct '&' false, .ident "mut", .ident "Bulb"],
    .group .brace [],
    .punct '#' false, .group .bracket [.ident "guard"], .ident "pub", .ident "fn",
    .ident "always_true",
    .group .paren [.ident "param", .punct ':' false, .punct '&' false, .ident "Bulb"],
    .punct '-' true, .punct '>' false, .ident "bool", .group .brace [.ident "true"]]

def bulbText : String :=
  Text.unlines ["#[action]", "pub fn do_nothing(param: &mut Bulb) \x7b\x7d", "#[guard]",
    "pub fn always_true(param: &Bulb) -> bool \x7b", "    true", "\x7d", ""]

theorem bulb_layout : (Target.Fragment.fileOf? bulbFns).bind Target.layout? = some bulbText := by
  decide +kernel

theorem bulb_reproduced : Target.Reproduced bulbFns := by
  refine .of_tokens (by decide +kernel) bulb_layout ⟨?_, by decide +kernel⟩ (by decide +kernel)
  have hhead : bulbText.toList.head? = some '#' := by decide +kernel
  simp [hhead]

def bulbFile (name : String) : String :=
  Module.callbacksHeading name ++ "\n\n" ++ bulbText

/-- A chart of this name that has the functions of the bulb once it is validated. -/
structure LikeBulb (c : Chart) (name : String) : Prop where
  passes : (Validation.all c).result = .ok ()
  name : (Validation.all c).state.name = name
  options : (Validation.all c).state.options = bulb.options
  roles : (hooksOf (Validation.all c).state).routines.map (fun r => (r.name, r.role)) =
    [("do_nothing", .action), ("always_true", .guard)]
  fns : Module.markedFns (Validation.all c).state (hooksOf (Validation.all c).state).routines =
    .ok bulbFns

theorem LikeBulb.callbacksSource {c : Chart} {name callbacks : String} (h : LikeBulb c name)
    (hcb : Module.callbacksSource (Validation.all c).state (hooksOf (Validation.all c).state) =
      .ok (some callbacks)) : callbacks = bulbFile name := by
  obtain ⟨ts, text, hts, htext, hcallbacks⟩ := (Module.callbacksSource_eq_ok
    (congrArg Options.genCode h.options) (congrArg Options.genCallbacks h.options)).1 hcb
  obtain rfl : bulbFns = ts := Except.ok.inj (h.fns.symm.trans hts)
  obtain ⟨tree, htree, hlayout⟩ := Module.laidOut_eq_ok htext
  have hbulb := bulb_layout
  rw [htree] at hbulb
  obtain rfl : text = bulbText := Option.some.inj (hlayout.symm.trans hbulb)
  rw [h.name] at hcallbacks
  exact Option.some.inj hcallbacks

theorem bulb_likeBulb : LikeBulb bulb "Bulb" where
  passes := bulb_passes
  name := by decide +kernel
  options := by decide +kernel
  roles := by decide +kernel
  fns := ok_of_toOption (by decide +kernel)

def bulbReader (name : String) : Reading.FileReader :=
  fun _ => .ok (bulbFile name)

theorem bulb_own_callbacks : ∃ c j source file j',
    compileText bulbSettings (bulbReader "Bulb") (some (Text.unlines bulbLines)) =
      ⟨.emitted c, j⟩ ∧
    c.source = some source ∧ c.callbacksSource = some (bulbFile "Bulb") ∧ c.orphans = [] ∧
    OverrideFile.parse ⟨"hand.rs"⟩ (bulbFile "Bulb") = .ok file ∧
    file.functions.map (fun f => (f.name, f.role)) =
      [("do_nothing", .action), ("always_true", .guard)] ∧
    compileText { bulbSettings with callbacks := some ⟨"hand.rs"⟩ } (bulbReader "Bulb")
      (some (Text.unlines bulbLines)) = ⟨.emitted c, j'⟩ ∧ j'.warnings = j.warnings := by
  have hdesign : designText bulbSettings (bulbReader "Bulb") (some (Text.unlines bulbLines)) =
      .ok (Text.unlines bulbLines) := rfl
  obtain ⟨c, j, source, callbacks, hcompiled, hchart, hsource, hcb, hfile, -, hroutines⟩ :=
    bulb_emitted (by decide) (by decide) rfl hdesign
  have hoptions : c.chart.options = bulb.options := by rw [hchart, bulb_likeBulb.options]
  have hname : c.chart.name = "Bulb" := by rw [hchart, bulb_likeBulb.name]
  rw [hchart] at hfile
  obtain rfl := bulb_likeBulb.callbacksSource hfile
  have hheading : Target.Lexer.IsComment (Module.callbacksHeading c.chart.name).toList := by
    rw [hname]
    exact Module.isComment_callbacksHeading (by decide)
  have hlanguage : ∀ ts, Module.markedFns c.chart (routines bulbSettings (bulbReader "Bulb")
      (some (Text.unlines bulbLines))) = .ok ts → Target.Reproduced ts := by
    intro ts hts
    rw [hroutines, hchart, bulb_likeBulb.fns] at hts
    exact Except.ok.inj hts ▸ bulb_reproduced
  obtain ⟨_, _, -, hcb', horphans, hparse, hagain⟩ := own_callbacks_compile_alike hdesign hcompiled
    (congrArg Options.genCode hoptions) (congrArg Options.genCallbacks hoptions) rfl
    (congrArg Options.overrides hoptions) hheading hlanguage
  obtain rfl := Option.some.inj (hcb.symm.trans hcb')
  obtain ⟨file, hparse, hfunctions⟩ := hparse ⟨"hand.rs"⟩
  obtain ⟨j', hagain, hwarnings⟩ := hagain ⟨"hand.rs"⟩ (bulbReader "Bulb") rfl hdesign
    fun _ _ => rfl
  refine ⟨c, j, source, file, j', hcompiled, hsource, hcb, horphans, hparse, ?_, hagain, hwarnings⟩
  rw [hfunctions, hroutines, hchart, bulb_likeBulb.roles]

theorem outcome_of_refused {s : Settings} {read : Reading.FileReader} {text : Option String}
    {r : Run} {j : Journal} {path : Path} {callbacks : String}
    (hhooks : (stages s read text toHooks).Yields {} () j r)
    (hgen : r.chart.options.genCode = true) (hnamed : r.chart.options.overrides = none)
    (hgiven : s.callbacks = some path) (hread : read path = .ok callbacks)
    (hrefused : Target.Fragment.file? callbacks = none) :
    (compileText s read text).outcome = .aborted .mergeOverrides (.refusedOverrides path) := by
  have hload : OverrideFile.load read path = .error (.refusedOverrides path) := by
    unfold OverrideFile.load OverrideFile.parse
    simp only [hread, hrefused]
  have hmerge : (merge s read).Fails r (.rejected (.refusedOverrides path)) r := by
    rw [Work.Fails, merge_of_no_overrides hnamed, hgiven]
    exact fails_mergeFile hload
  have hon : isSkipped .mergeOverrides r = false := by simp [isSkipped, hgen]
  exact outcome_of_fails (fails_stages_append hhooks
    (fails_stages_cons.2 (.inl ⟨hon, _, hmerge, rfl⟩)))

/-- The same bulb with a name of two lines, where the second line closes a comment that the first
one seems to open. -/
def remarkedLines : List String :=
  "[STATECHART]" :: "name = Bulb /*" :: "  */" :: bulbLines.drop 2

def remarked : Chart :=
  { bulb with name := "Bulb /*\n*/" }

theorem remarked_read (read : Reading.FileReader) :
    (Chart.read "bulb.ini" (Text.unlines remarkedLines) ⟨""⟩ read ()).result = .ok remarked := by
  have hread : (Chart.read "bulb.ini" (Text.unlines remarkedLines) ⟨""⟩
      (fun _ => .error .notFound) ()).result = .ok remarked :=
    Chart.read_unlines (by repeat constructor) (by decide +kernel) (by decide +kernel)
  rw [Chart.read_of_no_files hread, hread]

theorem remarked_likeBulb : LikeBulb remarked "Bulb /*\n*/" where
  passes := ok_of_toOption (by decide +kernel)
  name := by decide +kernel
  options := by decide +kernel
  roles := by decide +kernel
  fns := ok_of_toOption (by decide +kernel)

theorem remarked_generates : Generates (Validation.all remarked).state where
  genCode := by decide +kernel
  states := ok_of_toOption (by decide +kernel)
  transitions := ok_of_toOption (by decide +kernel)
  module := exists_module_of_isSome (by decide +kernel)
  callbacks := exists_callbacks_of_isSome (by decide +kernel)

theorem remarked_refused : Target.Fragment.file? (bulbFile "Bulb /*\n*/") = none := by
  rw [Target.Fragment.file?, Target.Fragment.read?, Target.Lexer.tokens?, String.toList_ofList,
    bulbFile, String.toList_append, String.toList_append, Module.toList_callbacksHeading, bulbText,
    Text.unlines, String.toList_intercalate, List.map_cons]
  -- the characters of the literals, which would otherwise be decoded one by one
  repeat rewrite [String.toList_ofList]
  rw [← Option.isNone_iff_eq_none]
  decide +kernel

/-- Its callbacks file is refused. -/
theorem remarked_callbacks_refused : ∃ c j,
    compileText bulbSettings (bulbReader "Bulb /*\n*/") (some (Text.unlines remarkedLines)) =
      ⟨.emitted c, j⟩ ∧
    c.chart.options = { genCallbacks := true } ∧
    Module.markedFns c.chart (routines bulbSettings (bulbReader "Bulb /*\n*/")
      (some (Text.unlines remarkedLines))) = .ok bulbFns ∧ Target.Reproduced bulbFns ∧
    c.callbacksSource = some (bulbFile "Bulb /*\n*/") ∧
    (compileText { bulbSettings with callbacks := some ⟨"hand.rs"⟩ } (bulbReader "Bulb /*\n*/")
      (some (Text.unlines remarkedLines))).outcome =
        .aborted .mergeOverrides (.refusedOverrides ⟨"hand.rs"⟩) := by
  obtain ⟨hpasses, -, hoptions, -, hfns⟩ := remarked_likeBulb
  have hread : (Chart.read bulbSettings.label (Text.unlines remarkedLines) bulbSettings.directory
      (bulbReader "Bulb /*\n*/") ()).result = .ok remarked := by
    rw [show bulbSettings.label = "bulb.ini" by decide,
      show bulbSettings.directory = ⟨""⟩ by decide, remarked_read]
  have hdesign : designText bulbSettings (bulbReader "Bulb /*\n*/")
      (some (Text.unlines remarkedLines)) = .ok (Text.unlines remarkedLines) := rfl
  obtain ⟨c, j, _, callbacks, hcompiled, hchart, -, hcb, hfile, -, hroutines⟩ :=
    remarked_generates.emitted hdesign hread hpasses rfl (congrArg Options.overrides hoptions)
  rw [hchart] at hfile hroutines
  obtain rfl := remarked_likeBulb.callbacksSource hfile
  have hdesign' : designText { bulbSettings with callbacks := some ⟨"hand.rs"⟩ }
      (bulbReader "Bulb /*\n*/") (some (Text.unlines remarkedLines)) =
        .ok (Text.unlines remarkedLines) := rfl
  obtain ⟨_, hhooks⟩ := remarked_generates.yields_toHooks hdesign' hread hpasses
  refine ⟨c, j, hcompiled, by rw [hchart, hoptions]; rfl, by rw [hchart, hroutines, hfns],
    bulb_reproduced, hcb, ?_⟩
  exact outcome_of_refused hhooks remarked_generates.genCode
    (congrArg Options.overrides hoptions) rfl rfl remarked_refused

end Statechart
