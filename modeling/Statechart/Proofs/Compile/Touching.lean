import Statechart.Proofs.Compile.Writing
import Statechart.Proofs.Files.Tree
import Statechart.Proofs.Validation.Frame

/-!
What a compilation may touch.

Files change at two places at most: where the path of the module leads and where that of the
callbacks file does. Where something is at the second place, only the first changes. The two are
apart unless one of the paths is a link, which may make them one.
-/
set_option autoImplicit false

namespace Statechart

/-- How the files of a disk are laid out. Paths lead to places, and a write changes the place that
its path leads to. -/
structure Layout {σ : Type} (disk : Disk σ) where
  Place : Type
  Content : Type
  /-- The place that a path leads to, links followed, whether something is there or not. -/
  lead : σ → Path → Option Place
  content : σ → Place → Option Content
  file : String → Content
  /-- The second place is the first or somewhere below it. -/
  Within : Place → Place → Prop
  /-- The last name of a path is a link, symbolic or hard. -/
  IsLink : σ → Path → Prop
  within_refl : ∀ l, Within l l
  written : ∀ {files p text files'}, disk.write files p text = .ok files' →
    ∃ l, lead files p = some l ∧ content files' l = some (file text)
  elsewhere : ∀ {files p text files'}, disk.write files p text = .ok files' →
    ∀ l, lead files p ≠ some l → content files' l = content files l
  leads : ∀ {files p text files'}, disk.write files p text = .ok files' →
    ∀ q, lead files' q = lead files q ∧ (IsLink files' q ↔ IsLink files q)
  has_found : ∀ {files p}, disk.has files p = true →
    ∃ l, lead files p = some l ∧ content files l ≠ none
  has_of_found : ∀ {files p text files'}, disk.write files p text = .ok files' →
    ∀ l, lead files p = some l → content files l ≠ none → disk.has files p = true
  apart : ∀ {files p text files' chart k l}, disk.write files p text = .ok files' →
    ¬ IsLink files p → ¬ IsLink files (callbacksPath p chart) →
    lead files p = some k → lead files (callbacksPath p chart) = some l → ¬ Within l k

theorem Output.state_write {σ : Type} (disk : Disk σ) (files : σ) (o : Output) :
    (write disk o files).state = files ∨
      isKept disk files o = false ∧
        disk.write files o.path o.text = .ok (write disk o files).state := by
  rw [write_apply]
  by_cases hkept : isKept disk files o = true
  · exact .inl (by simp [hkept, Work.enter])
  · cases hwrite : disk.write files o.path o.text with
    | ok written =>
      exact .inr ⟨by simpa using hkept, by simp [hkept, Work.bind_apply, Work.modify, Work.enter]⟩
    | error fault => exact .inl (by simp [hkept, Work.fail])

theorem Compilation.mem_outputs {c : Compilation} {o : Output} (h : o ∈ c.outputs) :
    o.path = c.outputPath ∧ o.keep = false ∨ o.path = c.callbacksPath ∧ o.keep = true := by
  simp only [Compilation.outputs, List.mem_append, Option.mem_toList, Option.map_eq_some_iff] at h
  obtain ⟨_, -, rfl⟩ | ⟨_, -, rfl⟩ := h
  · exact .inl ⟨rfl, rfl⟩
  · exact .inr ⟨rfl, rfl⟩

namespace Layout

variable {σ : Type} {disk : Disk σ} (y : Layout disk)

/-- Files that differ only where some paths lead. -/
structure Confined (paths : List Path) (before after : σ) : Prop where
  leads : ∀ q, y.lead after q = y.lead before q ∧ (y.IsLink after q ↔ y.IsLink before q)
  places : ∀ l, y.content after l ≠ y.content before l → ∃ p ∈ paths, y.lead before p = some l

structure Written (c : Compilation) (before after : σ) : Prop where
  module : ∀ text, c.source = some text →
    ∃ l, y.lead before c.outputPath = some l ∧ y.content after l = some (y.file text)
  callbacks : ∀ text, c.callbacksSource = some text →
    (∀ l, y.lead before c.callbacksPath = some l →
      y.content before l = none ∧ y.lead before c.outputPath ≠ some l) →
    ∃ l, y.lead before c.callbacksPath = some l ∧ y.content after l = some (y.file text)

variable {y} {paths : List Path} {before files t t' after : σ} {p : Path} {text : String}
  {c : Compilation} {l : y.Place}

theorem Confined.refl : y.Confined paths files files :=
  ⟨fun _ => ⟨rfl, Iff.rfl⟩, fun _ h => absurd rfl h⟩

theorem Confined.mono {more : List Path} (h : y.Confined paths before after) (hsub : paths ⊆ more) :
    y.Confined more before after := by
  refine ⟨h.leads, fun l hl => ?_⟩
  obtain ⟨p, hp, hlead⟩ := h.places l hl
  exact ⟨p, hsub hp, hlead⟩

theorem Confined.write (h : y.Confined paths before t) (hp : p ∈ paths)
    (hwrite : disk.write t p text = .ok t') : y.Confined paths before t' := by
  have hleads := y.leads hwrite
  refine ⟨fun q => ?_, fun l hl => ?_⟩
  · exact ⟨(hleads q).1.trans (h.leads q).1, (hleads q).2.trans (h.leads q).2⟩
  · by_cases hthere : y.lead t p = some l
    · exact ⟨p, hp, (h.leads p).1 ▸ hthere⟩
    · rw [y.elsewhere hwrite l hthere] at hl
      exact h.places l hl

theorem confined_outputs (os : List Output) (files : σ) :
    y.Confined (os.map Output.path) files (Work.each (Output.write disk) os files).state := by
  refine Work.each_preserves .refl ?_
  intro o ho t ht
  obtain hsame | ⟨-, hwrite⟩ := Output.state_write disk t o
  · rw [hsame]
    exact ht
  · exact ht.write (List.mem_map_of_mem ho) hwrite

/-- Only the path of the module has been written, and there is still something at a place. -/
structure ModuleOnly (y : Layout disk) (c : Compilation) (l : y.Place) (before after : σ) : Prop where
  confined : y.Confined [c.outputPath] before after
  there : y.content after l ≠ none

/-- Where something is at the place of the callbacks file, only the module is written. -/
theorem ModuleOnly.eq_of_write {o : Output} (h : y.ModuleOnly c l files t) (ho : o ∈ c.outputs)
    (hl : y.lead files c.callbacksPath = some l) (hfree : Output.isKept disk t o = false)
    (hwrite : disk.write t o.path o.text = .ok t') : o.path = c.outputPath := by
  obtain ⟨hpath, -⟩ | ⟨hpath, hkeep⟩ := c.mem_outputs ho
  · exact hpath
  · have hlead : y.lead t o.path = some l := by rw [hpath, (h.confined.leads _).1, hl]
    have hhas := y.has_of_found hwrite l hlead h.there
    simp [Output.isKept, hkeep, hhas] at hfree

theorem ModuleOnly.write {o : Output} (h : y.ModuleOnly c l files t) (ho : o ∈ c.outputs)
    (hl : y.lead files c.callbacksPath = some l) :
    y.ModuleOnly c l files (Output.write disk o t).state := by
  obtain hstate | ⟨hfree, hwrite⟩ := Output.state_write disk t o
  · rw [hstate]
    exact h
  · have hpath := h.eq_of_write ho hl hfree hwrite
    refine ⟨h.confined.write (by simp [hpath]) hwrite, ?_⟩
    by_cases hthere : y.lead t o.path = some l
    · obtain ⟨k, hk, hcontent⟩ := y.written hwrite
      obtain rfl := Option.some.inj (hk.symm.trans hthere)
      simp [hcontent]
    · rw [y.elsewhere hwrite l hthere]
      exact h.there

theorem moduleOnly_outputs (hl : y.lead files c.callbacksPath = some l)
    (hthere : y.content files l ≠ none) :
    y.ModuleOnly c l files (Work.each (Output.write disk) c.outputs files).state :=
  Work.each_preserves ⟨.refl, hthere⟩ fun _ ho _ ht => ht.write ho hl

structure Undisturbed (y : Layout disk) (c : Compilation) (l : y.Place) (before after : σ) :
    Prop where
  moduleOnly : y.ModuleOnly c l before after
  contents : ∀ m, y.Within l m → y.content after m = y.content before m

theorem Undisturbed.write {o : Output} (h : y.Undisturbed c l files t) (ho : o ∈ c.outputs)
    (hl : y.lead files c.callbacksPath = some l) (hout : ¬ y.IsLink files c.outputPath)
    (hcallbacks : ¬ y.IsLink files c.callbacksPath) :
    y.Undisturbed c l files (Output.write disk o t).state := by
  refine ⟨h.moduleOnly.write ho hl, fun m hm => ?_⟩
  have hleads := h.moduleOnly.confined.leads
  obtain hstate | ⟨hfree, hwrite⟩ := Output.state_write disk t o
  · rw [hstate, h.contents m hm]
  · have hpath := h.moduleOnly.eq_of_write ho hl hfree hwrite
    rw [hpath] at hwrite
    rw [y.elsewhere hwrite, h.contents m hm]
    intro hthere
    exact y.apart hwrite (mt (hleads _).2.1 hout) (mt (hleads _).2.1 hcallbacks) hthere
      ((hleads _).1.trans hl) hm

theorem undisturbed_outputs (hl : y.lead files c.callbacksPath = some l)
    (hthere : y.content files l ≠ none) (hout : ¬ y.IsLink files c.outputPath)
    (hcallbacks : ¬ y.IsLink files c.callbacksPath) :
    y.Undisturbed c l files (Work.each (Output.write disk) c.outputs files).state :=
  Work.each_preserves ⟨⟨.refl, hthere⟩, fun _ _ => rfl⟩
    fun _ ho _ ht => ht.write ho hl hout hcallbacks

theorem written_outputs {j : Journal} (hsome : c.callbacksSource.isSome → c.source.isSome)
    (h : (Work.each (Output.write disk) c.outputs).Yields files () j after) :
    y.Written c files after := by
  cases hsource : c.source with
  | none =>
    have hcallbacks : c.callbacksSource = none := by simpa [hsource] using hsome
    exact ⟨by simp [hsource], by simp [hcallbacks]⟩
  | some text =>
    have houtputs : c.outputs = ⟨c.outputPath, text, false⟩ ::
        (c.callbacksSource.map fun text => (⟨c.callbacksPath, text, true⟩ : Output)).toList := by
      simp [Compilation.outputs, hsource]
    rw [houtputs, Work.yields_each_cons] at h
    obtain ⟨_, t, _, hmodule, hrest, -⟩ := h
    obtain ⟨hmodule, -⟩ := (Output.yields_write_of_not_keep rfl).1 hmodule
    obtain ⟨k, hk, hwritten⟩ := y.written hmodule
    have hleads := y.leads hmodule
    cases hcallbacks : c.callbacksSource with
    | none =>
      rw [hcallbacks] at hrest
      obtain ⟨-, rfl⟩ := Work.yields_each_nil.1 hrest
      exact ⟨by simp [hsource, hk, hwritten], by simp [hcallbacks]⟩
    | some callbacks =>
      rw [hcallbacks, Option.map_some, Option.toList_some, Work.yields_each_cons] at hrest
      obtain ⟨_, t', _, hlast, hnil, -⟩ := hrest
      obtain ⟨-, rfl⟩ := Work.yields_each_nil.1 hnil
      obtain ⟨hkept, rfl, -⟩ | ⟨hfree, hwrite, -⟩ := Output.yields_write.1 hlast
      · refine ⟨by simp [hsource, hk, hwritten], fun _ _ hvacant => ?_⟩
        -- what was found there was there before, or is the module
        obtain ⟨l, hl, hthere⟩ := y.has_found (by simpa [Output.isKept] using hkept)
        rw [(hleads _).1] at hl
        obtain ⟨hnone, hapart⟩ := hvacant l hl
        exact absurd (hnone ▸ y.elsewhere hmodule l hapart) hthere
      · obtain ⟨l, hl, hlwritten⟩ := y.written hwrite
        have hne : l ≠ k := by
          rintro rfl
          have hhas := y.has_of_found hwrite l hl (by simp [hwritten])
          simp [Output.isKept, hhas] at hfree
        have hkeeps := y.elsewhere hwrite k (by simpa [hl] using hne)
        refine ⟨by simp [hsource, hk, hkeeps, hwritten], ?_⟩
        rw [(hleads _).1] at hl
        simp [hcallbacks, hl, hlwritten]

end Layout

namespace Store

variable {s t : Store} {l k : Location} {p : Path} {text : String}

theorem read_eq_ok :
    s.read p = .ok text ↔ ∃ l, s.locate p = .ok l ∧ s.node? l = some (.file (.text text)) := by
  rw [read, bind_eq_ok]
  constructor
  · intro h
    obtain ⟨l, hl, h⟩ := h
    split at h
    · rename_i hnode
      obtain rfl := Except.ok.inj h
      exact ⟨l, hl, hnode⟩
    all_goals cases h
  · intro h
    obtain ⟨l, hl, hnode⟩ := h
    exact ⟨l, hl, by simp only [hnode]⟩

/-- Accesses that are refused, whatever is there. -/
structure Guard where
  /-- The path cannot even be followed. -/
  follow : Store → Path → Option FileFault
  reading : Store → Path → Option FileFault
  writing : Store → Path → Option FileFault

def Guard.none : Guard := ⟨fun _ _ => .none, fun _ _ => .none, fun _ _ => .none⟩

def guarded (g : Guard) : Disk Store where
  read s p :=
    match (g.follow s p).or (g.reading s p) with
    | some fault => .error fault
    | none => s.read p
  has s p := (g.follow s p).isNone && s.has p
  write s p text :=
    match (g.follow s p).or (g.writing s p) with
    | some fault => .error fault
    | none => s.write p text

example : guarded .none = disk := rfl

variable {g : Guard}

theorem guarded_write (h : (guarded g).write s p text = .ok t) :
    g.follow s p = none ∧ s.write p text = .ok t := by
  simp only [guarded] at h
  split at h
  · cases h
  · rename_i hnone
    exact ⟨(Option.or_eq_none_iff.1 hnone).1, h⟩

theorem exists_put_of_guarded_write (h : (guarded g).write s p text = .ok t) :
    ∃ l, s.locate p = .ok l ∧ s.node? l ≠ some .directory ∧ t = s.put l (.file (.text text)) :=
  exists_put_of_write (guarded_write h).2

theorem toOption_locate : (s.locate p).toOption = some l ↔ s.locate p = .ok l := by
  cases s.locate p <;> simp [Except.toOption]

def layout (g : Guard) : Layout (guarded g) where
  Place := Location
  Content := Node
  lead s p := (s.locate p).toOption
  content := node?
  file text := .file (.text text)
  Within := Location.Within
  IsLink := IsLink
  within_refl := .refl
  written h := by
    obtain ⟨l, hl, hnode, rfl⟩ := exists_put_of_guarded_write h
    exact ⟨l, toOption_locate.2 hl, by rw [node?_put (names_ne_nil hnode), if_pos rfl]⟩
  elsewhere h k hk := by
    obtain ⟨l, hl, hnode, rfl⟩ := exists_put_of_guarded_write h
    rw [node?_put (names_ne_nil hnode), if_neg]
    rintro rfl
    exact hk (toOption_locate.2 hl)
  leads h q := by
    have hsame := sameDirectories_of_write (guarded_write h).2
    refine ⟨Option.ext fun k => ?_, hsame.symm.isLink⟩
    rw [toOption_locate, toOption_locate, hsame.locate]
  has_found h := by
    simp only [guarded, Bool.and_eq_true] at h
    obtain ⟨l, hl, hthere⟩ := has_eq_true.1 h.2
    exact ⟨l, toOption_locate.2 hl, hthere⟩
  has_of_found h l hl hthere := by
    have hhas := has_eq_true.2 ⟨l, toOption_locate.1 hl, hthere⟩
    simp [guarded, (guarded_write h).1, hhas]
  apart h hp hc hk hl := by
    obtain ⟨k, hk', hnode, -⟩ := exists_put_of_guarded_write h
    obtain rfl := Except.ok.inj (hk'.symm.trans (toOption_locate.1 hk))
    exact apart hk' hnode hp hc (toOption_locate.1 hl)

theorem layout_content : (layout g).content s l = s.node? l := rfl

end Store

variable {s : Settings} {c : Compilation}

def CodeOff (read : Reading.FileReader) (s : Settings) : Prop :=
  ∃ text chart, Run.designText s read none = .ok text ∧
    (Chart.read s.label text s.directory read ()).result = .ok chart ∧
    chart.options.genCode = false

theorem outputs_of_codeOff {read : Reading.FileReader} (hoff : CodeOff read s)
    (h : (compileText s read none).outcome = .emitted c) : c.outputs = [] := by
  obtain ⟨text, chart, hdesign, hread, hall, hchart, hnone⟩ := exists_chart_of_emitted h
  obtain ⟨text', chart', hdesign', hread', hgen⟩ := hoff
  obtain rfl := Except.ok.inj (hdesign.symm.trans hdesign')
  obtain rfl := Except.ok.inj (hread.symm.trans hread')
  obtain ⟨_, _, _, _, _, _, -, -, -, -, hv⟩ :=
    Validation.all_parts (Work.yields_of_result hall)
  have hsource : c.source = none := hnone (by rw [hchart, hv, hgen])
  have hcallbacks : c.callbacksSource = none := by
    simpa [hsource] using isSome_source_of_callbacksSource h
  simp [Compilation.outputs, hsource, hcallbacks]

theorem compile_state_of_emitted {σ : Type} {disk : Disk σ} {files : σ}
    (h : (compileText s (disk.read files) none).outcome = .emitted c) :
    (compile disk s files).2 =
      if s.checkOnly then files else (Work.each (Output.write disk) c.outputs files).state := by
  unfold compile
  simp only [h]
  by_cases hcheck : s.checkOnly = true
  · simp [hcheck]
  · simp only [hcheck, Bool.false_eq_true, if_false]
    split
    · rfl
    · rfl

theorem yields_of_compile_emitted {σ : Type} {disk : Disk σ} {files : σ} {c' : Compilation}
    (h : (compileText s (disk.read files) none).outcome = .emitted c)
    (hwrites : s.checkOnly = false)
    (hfinal : (compile disk s files).1.outcome = .emitted c') :
    ∃ j, (Work.each (Output.write disk) c.outputs).Yields files () j (compile disk s files).2 := by
  rw [compile_state_of_emitted h, hwrites, if_neg (by decide)]
  unfold compile at hfinal
  simp only [h, hwrites, Bool.false_eq_true, if_false] at hfinal
  refine ⟨_, Work.yields_of_result ?_⟩
  split at hfinal
  · assumption
  · cases hfinal

theorem bulb_compiled {σ : Type} {disk : Disk σ} {files : σ}
    (hread : disk.read files ⟨"bulb.ini"⟩ = .ok (Text.unlines bulbLines)) :
    ∃ c source callbacks,
      (compileText bulbSettings (disk.read files) none).outcome = .emitted c ∧
      c.callbacksPath = ⟨"Bulb_cb.rs"⟩ ∧
      c.outputs = [⟨⟨"Bulb.rs"⟩, source, false⟩, ⟨⟨"Bulb_cb.rs"⟩, callbacks, true⟩] := by
  have hdesign : Run.designText bulbSettings (disk.read files) none =
      .ok (Text.unlines bulbLines) := by
    rw [Run.designText, bulbSettings, hread]
    rfl
  obtain ⟨c, j, source, callbacks, hemitted, hchart, hsource, hcallbacks, -, houtput, -⟩ :=
    bulb_emitted (by decide) (by decide) rfl hdesign
  have hname : c.chart.name = "Bulb" := by
    rw [hchart]
    decide +kernel
  have hpath : c.outputPath = ⟨"Bulb.rs"⟩ := by
    rw [houtput, hname]
    decide +kernel
  have hcallbacksPath : c.callbacksPath = ⟨"Bulb_cb.rs"⟩ := by
    rw [Compilation.callbacksPath, hpath, hname]
    decide +kernel
  refine ⟨c, source, callbacks, congrArg Report.outcome hemitted, hcallbacksPath, ?_⟩
  simp [Compilation.outputs, hsource, hcallbacks, hpath, hcallbacksPath]

/-- The design and a callbacks file of its own. -/
def ownStore : Store where
  nodes := [(⟨.above 0, ["bulb.ini"]⟩, .file (.text (Text.unlines bulbLines))),
    (⟨.above 0, ["Bulb_cb.rs"]⟩, .file .bytes)]
  links := []

/-- The callbacks file is a link to the module. -/
def tiedStore : Store where
  nodes := [(⟨.above 0, ["bulb.ini"]⟩, .file (.text (Text.unlines bulbLines))),
    (⟨.above 0, ["Bulb.rs"]⟩, .file .bytes)]
  links := [(⟨.above 0, ["Bulb_cb.rs"]⟩, ⟨.above 0, ["Bulb.rs"]⟩)]

/-- What a compilation may touch. -/
theorem compile_touches {σ : Type} {disk : Disk σ} (y : Layout disk) (s : Settings) (files : σ) :
    (∀ c, (compileText s (disk.read files) none).outcome = .emitted c →
      c.outputPath = s.outputPath c.chart.name ∧ c.callbacksPath.same c.outputPath = false ∧
      y.Confined [c.outputPath, c.callbacksPath] files (compile disk s files).2 ∧
      (∀ l, y.lead files c.callbacksPath = some l → y.content files l ≠ none →
        y.Confined [c.outputPath] files (compile disk s files).2 ∧
        (¬ y.IsLink files c.outputPath → ¬ y.IsLink files c.callbacksPath →
          ∀ m, y.Within l m → y.content (compile disk s files).2 m = y.content files m)) ∧
      (s.checkOnly = false → (compile disk s files).1.outcome = .emitted c →
        y.Written c files (compile disk s files).2)) ∧
    (s.checkOnly = true ∨ CodeOff (disk.read files) s ∨
        (∀ c, (compileText s (disk.read files) none).outcome ≠ .emitted c) →
      (compile disk s files).2 = files) := by
  constructor
  · intro c hc
    have hpath : c.outputPath = s.outputPath c.chart.name := by
      obtain ⟨_, _, _, -, -, rfl, -⟩ :=
        compileText_emitted_iff.1 (show compileText s _ none = ⟨.emitted c, _⟩ by rw [← hc])
      rfl
    refine ⟨hpath, same_callbacksPath _ _, ?_, ?_, ?_⟩
    · rw [compile_state_of_emitted hc]
      split
      · exact .refl
      · refine (Layout.confined_outputs c.outputs files).mono ?_
        intro p hp
        obtain ⟨o, ho, rfl⟩ := List.mem_map.1 hp
        obtain ⟨hout, -⟩ | ⟨hcallbacks, -⟩ := c.mem_outputs ho
        · simp [hout]
        · simp [hcallbacks]
    · intro l hl hthere
      rw [compile_state_of_emitted hc]
      split
      · exact ⟨.refl, fun _ _ _ _ => rfl⟩
      · refine ⟨(Layout.moduleOnly_outputs hl hthere).confined, fun hout hcallbacks => ?_⟩
        exact (Layout.undisturbed_outputs hl hthere hout hcallbacks).contents
    · intro hwrites hfinal
      obtain ⟨_, hyields⟩ := yields_of_compile_emitted hc hwrites hfinal
      exact Layout.written_outputs (isSome_source_of_callbacksSource hc) hyields
  · intro h
    by_cases hemitted : ∃ c, (compileText s (disk.read files) none).outcome = .emitted c
    · obtain ⟨c, hc⟩ := hemitted
      rw [compile_state_of_emitted hc]
      obtain hcheck | hoff | hnone := h
      · rw [if_pos hcheck]
      · rw [outputs_of_codeOff hoff hc]
        split
        · rfl
        · rfl
      · exact absurd hc (hnone c)
    · rw [compile_eq_of_not_emitted fun c hc => hemitted ⟨c, hc⟩]

theorem own_callbacks_kept : ∃ c,
    (compileText bulbSettings ((Store.guarded .none).read ownStore) none).outcome = .emitted c ∧
      ownStore.locate c.callbacksPath = .ok ⟨.above 0, ["Bulb_cb.rs"]⟩ ∧
      (compile (Store.guarded .none) bulbSettings ownStore).2.node? ⟨.above 0, ["Bulb_cb.rs"]⟩ =
        some (.file .bytes) := by
  have hread : (Store.guarded .none).read ownStore ⟨"bulb.ini"⟩ = .ok (Text.unlines bulbLines) :=
    Store.read_eq_ok.2 ⟨⟨.above 0, ["bulb.ini"]⟩, by decide +kernel, rfl⟩
  obtain ⟨c, _, _, hc, hcallbacks, -⟩ := bulb_compiled hread
  have hlocate : ownStore.locate c.callbacksPath = .ok ⟨.above 0, ["Bulb_cb.rs"]⟩ := by
    rw [hcallbacks]
    decide +kernel
  have hnode : ownStore.node? ⟨.above 0, ["Bulb_cb.rs"]⟩ = some (.file .bytes) := by
    decide +kernel
  obtain ⟨-, -, -, hkept, -⟩ :=
    (compile_touches (Store.layout .none) bulbSettings ownStore).1 c hc
  obtain ⟨-, hkept⟩ := hkept ⟨.above 0, ["Bulb_cb.rs"]⟩ (Store.toOption_locate.2 hlocate)
    (by rw [Store.layout_content, hnode]; exact Option.some_ne_none _)
  have hsame := hkept (Store.not_isLink rfl) (Store.not_isLink rfl) _ (Layout.within_refl _ _)
  rw [Store.layout_content, Store.layout_content, hnode] at hsame
  exact ⟨c, hc, hlocate, hsame⟩

/-- The module is written through the link, though the callbacks file is there. -/
theorem tied_callbacks_overwritten : ∃ c source,
    (compileText bulbSettings (Store.disk.read tiedStore) none).outcome = .emitted c ∧
      tiedStore.read c.callbacksPath = .error .notText ∧
      (compile Store.disk bulbSettings tiedStore).2.read c.callbacksPath = .ok source := by
  have hread : Store.disk.read tiedStore ⟨"bulb.ini"⟩ = .ok (Text.unlines bulbLines) :=
    Store.read_eq_ok.2 ⟨⟨.above 0, ["bulb.ini"]⟩, by decide +kernel, rfl⟩
  obtain ⟨c, source, callbacks, hc, hcallbacks, houtputs⟩ := bulb_compiled hread
  have hlocate : tiedStore.locate ⟨"Bulb_cb.rs"⟩ = .ok ⟨.above 0, ["Bulb.rs"]⟩ := by
    decide +kernel
  have hbytes : tiedStore.node? ⟨.above 0, ["Bulb.rs"]⟩ = some (.file .bytes) := by
    decide +kernel
  have hwrite : tiedStore.write ⟨"Bulb.rs"⟩ source =
      .ok (tiedStore.put ⟨.above 0, ["Bulb.rs"]⟩ (.file (.text source))) :=
    Store.write_of_locate (by decide +kernel) (by decide +kernel) (by simp [hbytes])
  generalize htied : tiedStore.put _ _ = written at hwrite
  have hafter := (Store.sameDirectories_of_write hwrite).locate.1 hlocate
  have hnode : written.node? ⟨.above 0, ["Bulb.rs"]⟩ = some (.file (.text source)) := by
    rw [← htied, Store.node?_put (by decide), if_pos rfl]
  rw [← Store.disk_write] at hwrite
  have hhas : written.has ⟨"Bulb_cb.rs"⟩ = true :=
    Store.has_eq_true.2 ⟨_, hafter, by simp [hnode]⟩
  refine ⟨c, source, hc, ?_, ?_⟩
  · rw [hcallbacks, Store.read, hlocate]
    simp [bind, Except.bind, hbytes]
  · have hmodule := (Output.yields_write_of_not_keep
      (o := ⟨⟨"Bulb.rs"⟩, source, false⟩) rfl).2 ⟨hwrite, rfl⟩
    have hkept : Output.isKept Store.disk written ⟨⟨"Bulb_cb.rs"⟩, callbacks, true⟩ = true := by
      simp [Output.isKept, Store.disk_has, hhas]
    have hrest := Output.yields_write.2 (.inl ⟨hkept, rfl, rfl⟩)
    have hyields := (Work.yields_each_cons (u := ())).2 ⟨_, _, _, hmodule,
      Work.yields_each_cons.2 ⟨_, _, _, hrest, Work.yields_each_nil.2 ⟨rfl, rfl⟩, rfl⟩, rfl⟩
    rw [compile_state_of_emitted hc, if_neg (by decide), houtputs, hyields.state_eq, hcallbacks]
    exact Store.read_eq_ok.2 ⟨_, hafter, hnode⟩

end Statechart
