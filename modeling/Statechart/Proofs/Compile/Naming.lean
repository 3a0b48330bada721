import Statechart.Proofs.Compile.Hooks
import Statechart.Proofs.Module.Names
import Statechart.Proofs.Validation.Frame

/-!
Names of an emitted module.

What a module defines besides the items of an initializer and hand-written callbacks is told by its
chart and its routines, and so is whether something is defined twice.
-/
set_option autoImplicit false

namespace Statechart

open Target Run

namespace Module

def preamble (runtime : Tree) : List Token :=
  allowAttribute ++ code "use" ++ runtime.tokens ++ code ":: prelude :: * ;"

theorem initialItems_of_blank {c : Chart}
    (h : Text.isBlankText (Text.unlines c.initial) = true) : initialItems c = .ok [] := by
  unfold initialItems
  exact if_pos h

theorem exists_of_moduleTokens {c : Chart} {d ts : List Token}
    (hinitial : Text.isBlankText (Text.unlines c.initial) = true)
    (h : moduleTokens c d = .ok ts) :
    ∃ chart path, chartIdent c = .ok chart ∧ Fragment.path? c.options.runtime = some path ∧
      ts = preamble path ++ (d ++ wrapper c chart) := by
  unfold moduleTokens at h
  rw [initialItems_of_blank hinitial] at h
  obtain ⟨chart, hchart, h⟩ := bind_eq_ok.1 h
  -- Without this the cases below would look into the parser.
  generalize Fragment.path? c.options.runtime = path? at h ⊢
  cases path? with
  | none => cases h
  | some path =>
    refine ⟨chart, path, hchart, rfl, ?_⟩
    obtain rfl := Except.ok.inj h
    simp [preamble]

end Module

open Module

variable {s : Settings} {read : Reading.FileReader} {text : Option String} {c : Compilation}
  {module : String}

structure Itemized (c : Compilation) (routines : List String) (module : String)
    (items : List Token) : Prop where
  laid : ∃ runtime text, Fragment.path? c.chart.options.runtime = some runtime ∧
    laidOut (preamble runtime ++ items) = .ok text ∧ module = moduleHeading c.chart.name ++ text
  defines : ∀ space, definitions space items = itemNames c.chart routines space

theorem exists_itemized (h : (compileText s read text).outcome = .emitted c)
    (hsource : c.source = some module)
    (hinitial : Text.isBlankText (Text.unlines c.chart.initial) = true)
    (hgiven : s.callbacks = none) (hnamed : c.chart.options.overrides = none) :
    (∃ items, Itemized c ((routines s read text).map Routine.name) module items) ∧
      ((routines s read text).map Routine.name).Nodup ∧ c.chart.group? c.chart.name = none := by
  obtain ⟨_, _, -, -, -, -, hoff⟩ := exists_chart_of_emitted h
  have hgen : c.chart.options.genCode = true := by
    by_contra hno
    rw [hoff (by simpa using hno)] at hsource
    cases hsource
  obtain ⟨_, r, _, r', d, source, cb, hhooks, hgen, hmerge, hd, hlaid, -, rfl, -⟩ :=
    compileText_generated_iff.1
      ⟨(show compileText s read text = ⟨.emitted c, _⟩ by rw [← h]), hgen⟩
  have hchart := merge_chart hmerge
  obtain ⟨-, rfl⟩ := (yields_merge_none (by rw [← hchart]; exact hnamed) hgiven).1 hmerge
  obtain ⟨hnodup, hgenerated⟩ := routines_of_toHooks hhooks hgen
  obtain ⟨_, _, _, _, _, -, hfree, -⟩ := declarations_eq_ok hd
  obtain ⟨ts, laid, hts, hlaid', htext⟩ := source_eq_ok.1 hlaid
  obtain ⟨chart, path, hchart, hpath, rfl⟩ := exists_of_moduleTokens hinitial hts
  rw [routines_eq hhooks hgen hmerge hd hlaid]
  refine ⟨⟨d ++ wrapper _ chart, ⟨path, laid, hpath, hlaid', ?_⟩, ?_⟩, hnodup, hfree⟩
  · exact (Option.some.inj hsource).symm.trans htext
  · intro space
    exact definitions_items hgenerated hd hchart

theorem groups_nodup_of_emitted (h : (compileText s read text).outcome = .emitted c) :
    (c.chart.groups.map EventGroup.name).Nodup := by
  obtain ⟨_, chart, -, hread, hall, hchart, -⟩ := exists_chart_of_emitted h
  rw [hchart, Validation.all_group_names (Work.yields_of_result hall)]
  exact Chart.read_groups_nodup hread

/-- The items of a module define every name once, unless names clash. -/
theorem module_defines_once_iff (h : (compileText s read text).outcome = .emitted c)
    (hsource : c.source = some module)
    (hinitial : Text.isBlankText (Text.unlines c.chart.initial) = true)
    (hgiven : s.callbacks = none) (hnamed : c.chart.options.overrides = none) :
    ∃ items, Itemized c ((routines s read text).map Routine.name) module items ∧
      ((∀ space, (definitions space items).Nodup) ↔
        ∀ name, ¬ Clash c.chart ((routines s read text).map Routine.name) name) := by
  obtain ⟨⟨items, hitems⟩, hnodup, hfree⟩ := exists_itemized h hsource hinitial hgiven hnamed
  refine ⟨items, hitems, ?_⟩
  simp only [hitems.defines]
  exact itemNames_nodup_iff (groups_nodup_of_emitted h) hfree hnodup

def bulbDesign : Settings where
  design := ⟨"bulb.ini"⟩

def noFiles : Reading.FileReader := fun _ => .error .notFound

theorem bulb_defines_once : ∃ c module items,
    (compileText bulbDesign noFiles (some (Text.unlines bulbLines))).outcome = .emitted c ∧
      c.source = some module ∧ Text.isBlankText (Text.unlines c.chart.initial) = true ∧
      bulbDesign.callbacks = none ∧ c.chart.options.overrides = none ∧
      Itemized c ["do_nothing", "always_true"] module items ∧
      ∀ space, (definitions space items).Nodup := by
  obtain ⟨c, j, module, _, hemitted, hchart, hsource, -, -, -, hroutines⟩ :=
    @bulb_emitted bulbDesign noFiles (some (Text.unlines bulbLines)) (by decide) (by decide) rfl rfl
  have hc := congrArg Report.outcome hemitted
  have hinitial : Text.isBlankText (Text.unlines c.chart.initial) = true := by
    rw [hchart]
    decide +kernel
  have hnamed : c.chart.options.overrides = none := by
    rw [hchart]
    decide +kernel
  have hnames : (routines bulbDesign noFiles (some (Text.unlines bulbLines))).map Routine.name =
      ["do_nothing", "always_true"] := by
    rw [hroutines, hchart]
    decide +kernel
  obtain ⟨items, hitems, honce⟩ := module_defines_once_iff hc hsource hinitial rfl hnamed
  rw [hnames] at hitems honce
  refine ⟨c, module, items, hc, hsource, hinitial, rfl, hnamed, hitems, ?_⟩
  intro space
  rw [hitems.defines, hchart]
  cases space with
  | type => decide +kernel
  | value => decide +kernel

/-- The bulb, with its group named after it. The group is marked as a raw identifier, so that it is
spelled otherwise. -/
def twinLines : List String :=
  (bulbLines.erase "gencallbacks = true").map fun l =>
    if l = "name = Key" then "name = r#Bulb" else l

def twin : Chart :=
  { bulb with options := {}, groups := [⟨"EVENTS_1", "r#Bulb", some 1, ["press"], []⟩] }

theorem twin_read :
    (Chart.read "bulb.ini" (Text.unlines twinLines) ⟨""⟩ noFiles ()).result = .ok twin :=
  Chart.read_unlines (by repeat constructor) (by decide +kernel) (by decide +kernel)

theorem twin_emitted : ∃ c module,
    (compileText bulbDesign noFiles (some (Text.unlines twinLines))).outcome = .emitted c ∧
      c.source = some module ∧ c.chart = (Validation.all twin).state := by
  have hgen : (Validation.all twin).state.options.genCode = true := by decide +kernel
  have hnamed : (Validation.all twin).state.options.overrides = none := by decide +kernel
  have hcallbacks : (Validation.all twin).state.options.genCallbacks = false := by decide +kernel
  have hread : (Chart.read bulbDesign.label (Text.unlines twinLines) bulbDesign.directory
      noFiles ()).result = .ok twin := by
    rw [show bulbDesign.label = "bulb.ini" by decide, show bulbDesign.directory = ⟨""⟩ by decide,
      twin_read]
  obtain ⟨j, hhooks⟩ := yields_toHooks hgen (ok_of_toOption (by decide +kernel))
    (ok_of_toOption (by decide +kernel))
    (show designText bulbDesign noFiles (some (Text.unlines twinLines)) =
      .ok (Text.unlines twinLines) from rfl) hread (ok_of_toOption (by decide +kernel))
  obtain ⟨d, module, hd, hmodule⟩ := exists_module_of_isSome
    (show (spelled.1 (Validation.all twin).state
      (hooksOf (Validation.all twin).state)).isSome = true by decide +kernel)
  have hoff : callbacksSource (Validation.all twin).state (hooksOf (Validation.all twin).state) =
      .ok none := by
    unfold callbacksSource
    rw [hcallbacks, Bool.not_false, Bool.or_true, if_pos rfl]
    rfl
  have hgenerated := compileText_generated_iff.2 ⟨j, _, [], _, d, module, none, hhooks, hgen,
    (yields_merge_none hnamed rfl).2 ⟨rfl, rfl⟩, hd, hmodule, hoff, rfl, rfl⟩
  exact ⟨_, module, congrArg Report.outcome hgenerated.1, rfl, rfl⟩

/-- The module of the bulb has two types of one name. -/
theorem twin_defined_twice : ∃ c module items routines,
    (compileText bulbDesign noFiles (some (Text.unlines twinLines))).outcome = .emitted c ∧
      c.source = some module ∧ Text.isBlankText (Text.unlines c.chart.initial) = true ∧
      bulbDesign.callbacks = none ∧ c.chart.options.overrides = none ∧
      Itemized c routines module items ∧ definitions .type items = ["Bulb", "Bulb"] := by
  obtain ⟨c, module, hc, hsource, hchart⟩ := twin_emitted
  have hinitial : Text.isBlankText (Text.unlines c.chart.initial) = true := by
    rw [hchart]
    decide +kernel
  have hnamed : c.chart.options.overrides = none := by
    rw [hchart]
    decide +kernel
  obtain ⟨⟨items, hitems⟩, -, -⟩ := exists_itemized hc hsource hinitial rfl hnamed
  refine ⟨c, module, items, _, hc, hsource, hinitial, rfl, hnamed, hitems, ?_⟩
  rw [hitems.defines, hchart, itemNames]
  decide +kernel

end Statechart
