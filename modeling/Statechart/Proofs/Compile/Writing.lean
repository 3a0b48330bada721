import Mathlib.Data.Bool.AllAny
import Statechart.Compile
import Statechart.Proofs.Compile.Stages
import Statechart.Proofs.Files.Names

/-!
The files that a compilation leaves when it stops short.

Nothing is undone: a compilation that cannot write its callbacks file leaves the module that it
wrote just before. There is no other way to stop with files changed.
-/
set_option autoImplicit false

namespace Statechart

variable {σ : Type} {disk : Disk σ} {s : Settings} {files files' : σ} {stage : Stage} {e : Error}
  {c : Compilation}

namespace Output

variable {o : Output}

def isKept (disk : Disk σ) (files : σ) (o : Output) : Bool :=
  o.keep && disk.has files o.path

theorem write_apply :
    (write disk o) files =
      (if isKept disk files o = true then Work.enter o.kept
        else
          match disk.write files o.path o.text with
          | .ok files => Work.modify (fun _ => files) >>= fun _ => Work.enter o.written
          | .error fault => Work.fail (.inaccessible o.path fault)) files := rfl

theorem yields_write {j : Journal} :
    (write disk o).Yields files () j files' ↔
      isKept disk files o = true ∧ files' = files ∧ j = [o.kept] ∨
        isKept disk files o = false ∧ disk.write files o.path o.text = .ok files' ∧
          j = [o.written] := by
  unfold Work.Yields
  rw [write_apply]
  by_cases hkept : isKept disk files o = true
  · simp only [hkept, if_true, Work.enter, Step.mk.injEq, true_and, and_true, Bool.true_eq_false,
      false_and, or_false]
    exact and_congr eq_comm eq_comm
  · have hkept : isKept disk files o = false := by simpa using hkept
    cases hwrite : disk.write files o.path o.text with
    | ok written =>
      simp only [hkept, Bool.false_eq_true, if_false, Work.bind_apply, Work.modify, Work.enter,
        List.nil_append, Step.mk.injEq, and_true, false_and, true_and, false_or, Except.ok.injEq]
      exact and_congr Iff.rfl eq_comm
    | error fault => simp [hkept, Work.fail]

theorem yields_write_of_not_keep {j : Journal} (hkeep : o.keep = false) :
    (write disk o).Yields files () j files' ↔
      disk.write files o.path o.text = .ok files' ∧ j = [o.written] := by
  simp [yields_write, isKept, hkeep]

theorem fails_write :
    (write disk o).Fails files e files' ↔
      isKept disk files o = false ∧ files' = files ∧
        ∃ fault, disk.write files o.path o.text = .error fault ∧ e = .inaccessible o.path fault := by
  unfold Work.Fails
  rw [write_apply]
  by_cases hkept : isKept disk files o = true
  · simp [hkept, Work.enter]
  · have hkept : isKept disk files o = false := by simpa using hkept
    cases hwrite : disk.write files o.path o.text with
    | ok written => simp [hkept, Work.bind_apply, Work.modify, Work.enter]
    | error fault =>
      simp only [hkept, Bool.false_eq_true, if_false, Work.fail, Except.error.injEq,
        exists_eq_left', true_and]
      constructor
      · intro h
        exact ⟨h.2.symm, h.1.symm⟩
      · intro h
        exact ⟨h.2.symm, h.1.symm⟩

end Output

/-- A compilation that stops before any file is written: in one of its stages, or because the module
cannot be written. -/
inductive Refused (disk : Disk σ) (s : Settings) (files : σ) : Stage → Error → Prop where
  | stage {stage : Stage} {e : Error}
      (stopped : (compileText s (disk.read files) none).outcome = .aborted stage e) :
      Refused disk s files stage e
  | module {c : Compilation} {text : String} {fault : FileFault}
      (emitted : (compileText s (disk.read files) none).outcome = .emitted c)
      (writes : s.checkOnly = false)
      (source : c.source = some text)
      (refused : disk.write files c.outputPath text = .error fault) :
      Refused disk s files .emitWrapper (.inaccessible c.outputPath fault)

/-- A compilation that stops between its two files: the module is written, and the callbacks file,
which was not there, cannot be. -/
inductive Torn (disk : Disk σ) (s : Settings) (files : σ) : Stage → Error → σ → Prop where
  | callbacks {c : Compilation} {text callbacks : String} {written : σ} {fault : FileFault}
      (emitted : (compileText s (disk.read files) none).outcome = .emitted c)
      (writes : s.checkOnly = false)
      (source : c.source = some text)
      (callbacksSource : c.callbacksSource = some callbacks)
      (module : disk.write files c.outputPath text = .ok written)
      (absent : disk.has written c.callbacksPath = false)
      (refused : disk.write written c.callbacksPath callbacks = .error fault) :
      Torn disk s files .emitWrapper (.inaccessible c.callbacksPath fault) written

/-- Writing the files of a compilation fails at the module, with nothing changed, or at the
callbacks file. -/
theorem fails_outputs (hsource : c.callbacksSource.isSome → c.source.isSome) :
    (Work.each (Output.write disk) c.outputs).Fails files e files' ↔
      (∃ text fault, c.source = some text ∧ disk.write files c.outputPath text = .error fault ∧
        e = .inaccessible c.outputPath fault ∧ files' = files) ∨
      ∃ text callbacks fault, c.source = some text ∧ c.callbacksSource = some callbacks ∧
        disk.write files c.outputPath text = .ok files' ∧ disk.has files' c.callbacksPath = false ∧
        disk.write files' c.callbacksPath callbacks = .error fault ∧
        e = .inaccessible c.callbacksPath fault := by
  cases hmodule : c.source with
  | none =>
    have hcb : c.callbacksSource = none := by simpa [hmodule] using hsource
    simp [Compilation.outputs, hmodule, hcb, Work.fails_each_nil]
  | some text =>
    have hfirst : (Output.write disk ⟨c.outputPath, text, false⟩).Fails files e files' ↔
        ∃ fault, disk.write files c.outputPath text = .error fault ∧
          e = .inaccessible c.outputPath fault ∧ files' = files := by
      simp only [Output.fails_write, Output.isKept, Bool.false_and, true_and]
      grind
    cases hcb : c.callbacksSource with
    | none =>
      simp [Compilation.outputs, hmodule, hcb, Work.fails_each_cons, Work.fails_each_nil, hfirst]
    | some callbacks =>
      have hsecond : (∃ j written,
          (Output.write disk ⟨c.outputPath, text, false⟩).Yields files () j written ∧
            (Output.write disk ⟨c.callbacksPath, callbacks, true⟩).Fails written e files') ↔
          ∃ fault, disk.write files c.outputPath text = .ok files' ∧
            disk.has files' c.callbacksPath = false ∧
            disk.write files' c.callbacksPath callbacks = .error fault ∧
            e = .inaccessible c.callbacksPath fault := by
        simp only [Output.yields_write_of_not_keep, Output.fails_write, Output.isKept,
          Bool.true_and]
        constructor
        · intro h
          obtain ⟨_, _, ⟨hwrite, -⟩, habsent, rfl, fault, hfault, he⟩ := h
          exact ⟨fault, hwrite, habsent, hfault, he⟩
        · intro h
          obtain ⟨fault, hwrite, habsent, hfault, he⟩ := h
          exact ⟨_, files', ⟨hwrite, rfl⟩, habsent, rfl, fault, hfault, he⟩
      simp [Compilation.outputs, hmodule, hcb, Work.fails_each_cons, Work.fails_each_nil, hfirst,
        hsecond]

theorem compile_eq_of_not_emitted
    (h : ∀ c, (compileText s (disk.read files) none).outcome ≠ .emitted c) :
    compile disk s files = (compileText s (disk.read files) none, files) := by
  unfold compile
  dsimp only
  split
  · rename_i c hc
    exact absurd hc (h c)
  · rfl

theorem compile_aborted_of_emitted
    (h : (compileText s (disk.read files) none).outcome = .emitted c) :
    ((compile disk s files).1.outcome = .aborted stage e ∧ (compile disk s files).2 = files') ↔
      s.checkOnly = false ∧ stage = .emitWrapper ∧
        (Work.each (Output.write disk) c.outputs).Fails files e files' := by
  unfold compile Work.Fails
  simp only [h]
  by_cases hcheck : s.checkOnly = true
  · simp [hcheck, h]
  · simp only [hcheck, Bool.false_eq_true, if_false, true_and]
    cases (Work.each (Output.write disk) c.outputs files).result with
    | ok u => simp
    | error e' =>
      simp only [Outcome.aborted.injEq, Except.error.injEq]
      grind

/-- A compilation is aborted with the files as they were, or between its two files. -/
theorem compile_aborted_iff :
    ((compile disk s files).1.outcome = .aborted stage e ∧ (compile disk s files).2 = files') ↔
      Refused disk s files stage e ∧ files' = files ∨ Torn disk s files stage e files' := by
  by_cases hemitted : ∃ c, (compileText s (disk.read files) none).outcome = .emitted c
  · obtain ⟨c, hc⟩ := hemitted
    rw [compile_aborted_of_emitted hc, fails_outputs (isSome_source_of_callbacksSource hc)]
    constructor
    · intro h
      obtain ⟨hwrites, rfl, ⟨text, fault, hsource, hwrite, rfl, rfl⟩ |
        ⟨text, callbacks, fault, hsource, hcb, hwrite, habsent, hfault, rfl⟩⟩ := h
      · exact .inl ⟨.module hc hwrites hsource hwrite, rfl⟩
      · exact .inr (.callbacks hc hwrites hsource hcb hwrite habsent hfault)
    · intro h
      obtain ⟨hrefused, rfl⟩ | htorn := h
      · cases hrefused with
        | stage hstopped => simp [hc] at hstopped
        | module hc' hwrites hsource hwrite =>
          obtain rfl := Outcome.emitted.inj (hc.symm.trans hc')
          exact ⟨hwrites, rfl, .inl ⟨_, _, hsource, hwrite, rfl, rfl⟩⟩
      · cases htorn with
        | callbacks hc' hwrites hsource hcb hwrite habsent hfault =>
          obtain rfl := Outcome.emitted.inj (hc.symm.trans hc')
          exact ⟨hwrites, rfl, .inr ⟨_, _, _, hsource, hcb, hwrite, habsent, hfault, rfl⟩⟩
  · have hnone : ∀ c, (compileText s (disk.read files) none).outcome ≠ .emitted c := by
      intro c hc
      exact hemitted ⟨c, hc⟩
    rw [compile_eq_of_not_emitted hnone]
    constructor
    · intro h
      exact .inl ⟨.stage h.1, h.2.symm⟩
    · intro h
      obtain ⟨hrefused, rfl⟩ | htorn := h
      · cases hrefused with
        | stage hstopped => exact ⟨hstopped, rfl⟩
        | module hc => exact absurd hc (hnone _)
      · cases htorn with
        | callbacks hc => exact absurd hc (hnone _)

/-- The longest name of a module whose callbacks file has too long a name. -/
def longStem : List Char :=
  List.replicate 250 'a'

def longOutput : Path :=
  PlainName.path (longStem ++ '.' :: "rs".toList)

def longSettings : Settings where
  design := ⟨"bulb.ini"⟩
  output := some longOutput

def bulbStore : Store where
  nodes := [(⟨.above 0, ["bulb.ini"]⟩, .file (.text (Text.unlines bulbLines)))]
  links := []

theorem plain_replicate {n : Nat} {ending : List Char} (hn : n ≠ 0) (hseparator : '/' ∉ ending)
    (hnul : ∀ c ∈ ending, c.toNat ≠ 0) : PlainName (List.replicate n 'a' ++ ending) where
  nonempty := by simp [hn]
  separator := by simp [hseparator]
  dot := by simp [List.head?_append, List.head?_replicate, hn]
  nul := by
    intro c hc
    rcases List.mem_append.1 hc with hc | hc
    · rw [List.eq_of_mem_replicate hc]
      decide
    · exact hnul c hc

theorem size_replicate (n : Nat) (ending : List Char) :
    (String.ofList (List.replicate n 'a' ++ ending)).utf8ByteSize =
      n + (String.ofList ending).utf8ByteSize := by
  induction n with
  | zero => simp
  | succ n ih =>
    have hone : (String.singleton 'a').utf8ByteSize = 1 := by decide
    rw [List.replicate_succ, List.cons_append, String.ofList_cons, String.utf8ByteSize_append, ih,
      hone]
    omega

theorem long_sizes : (String.ofList (longStem ++ '.' :: "rs".toList)).utf8ByteSize = 253 ∧
    (String.ofList (longStem ++ "_cb.rs".toList)).utf8ByteSize = 256 :=
  ⟨size_replicate 250 _, size_replicate 250 _⟩

theorem long_output_plain : PlainName (longStem ++ '.' :: "rs".toList) :=
  plain_replicate (by decide) (by decide) (List.all_iff_forall_prop.1 (by decide))

theorem long_callbacks_plain : PlainName (longStem ++ "_cb.rs".toList) :=
  plain_replicate (by decide) (by decide) (List.all_iff_forall_prop.1 (by decide))

theorem bulbStore_read : bulbStore.read ⟨"bulb.ini"⟩ = .ok (Text.unlines bulbLines) := by
  have hplain : PlainName "bulb.ini".toList := ⟨by decide, by decide, by decide,
    List.all_iff_forall_prop.1 (by decide)⟩
  have hpath : (⟨"bulb.ini"⟩ : Path) = PlainName.path "bulb.ini".toList := by
    simp [PlainName.path]
  have hlong : Store.isLongName "bulb.ini".toList = false := by decide
  rw [Store.read, hpath, Store.locate_path hplain (by decide), hlong]
  simp [bind, Except.bind, Store.node?, Store.follow, bulbStore]

def longLocation : Location :=
  ⟨.above 0, [String.ofList (longStem ++ '.' :: "rs".toList)]⟩

theorem long_output_located {store : Store} (hlinks : store.links = []) :
    store.locate longOutput = .ok longLocation := by
  have hlong : Store.isLongName (longStem ++ '.' :: "rs".toList) = false := by
    rw [Store.isLongName, long_sizes.1]
    rfl
  rw [longOutput, Store.locate_path long_output_plain (by rw [long_sizes.1]; decide), hlong,
    Store.follow, hlinks]
  rfl

theorem longLocation_ne : longLocation ≠ ⟨.above 0, ["bulb.ini"]⟩ := by
  intro h
  have hsizes : longLocation.names.map String.utf8ByteSize = [8] := by rw [h]; rfl
  rw [longLocation, List.map_singleton, long_sizes.1] at hsizes
  cases hsizes

theorem bulbStore_lookup : bulbStore.nodes.lookup longLocation = none := by
  rw [bulbStore, List.lookup_cons, beq_false_of_ne longLocation_ne]
  rfl

theorem bulbStore_has : bulbStore.has longOutput = false := by
  rw [Store.has, long_output_located rfl]
  dsimp only
  rw [Store.node?_of_names (by simp [longLocation]), bulbStore_lookup]
  rfl

theorem bulbStore_put_has (n : Node) : (bulbStore.put longLocation n).has longOutput = true := by
  rw [Store.has, long_output_located rfl]
  dsimp only
  rw [Store.node?_of_names (by simp [longLocation]), Store.lookup_put, if_pos rfl]
  rfl

/-- The module is written, the compilation is aborted. -/
theorem long_output_torn : ∃ e,
    (compile Store.disk longSettings bulbStore).1.outcome = .aborted .emitWrapper e ∧
      bulbStore.has longOutput = false ∧
      (compile Store.disk longSettings bulbStore).2.has longOutput = true := by
  have hdesign : Run.designText longSettings (Store.disk.read bulbStore) none =
      .ok (Text.unlines bulbLines) := by
    rw [Run.designText, Store.disk_read, longSettings, bulbStore_read]
    rfl
  obtain ⟨c, j, source, callbacks, hemitted, -, hsource, hcallbacks, -, houtput, -⟩ :=
    bulb_emitted (by decide) (by decide) rfl hdesign
  have hc := congrArg Report.outcome hemitted
  rw [Settings.outputPath, longSettings, Option.getD_some] at houtput
  have hpath : c.callbacksPath = PlainName.path (longStem ++ "_cb.rs".toList) := by
    rw [Compilation.callbacksPath, houtput]
    have hdot : '.' ∉ longStem := fun h => absurd (List.eq_of_mem_replicate h) (by decide)
    exact long_output_plain.callbacksPath hdot (by decide) (List.cons_ne_nil _ _)
  have hwrite : Store.disk.write bulbStore c.outputPath source =
      .ok (bulbStore.put longLocation (.file (.text source))) := by
    rw [houtput, Store.disk_write]
    exact Store.write_path_of_absent long_output_plain (by rw [long_sizes.1]; decide) rfl
      bulbStore_lookup
  have hcb : ∀ store : Store, Store.disk.has store c.callbacksPath = false ∧
      Store.disk.write store c.callbacksPath callbacks = .error .nameTooLong := by
    intro store
    rw [hpath, Store.disk_has, Store.disk_write]
    exact Store.write_path_of_long long_callbacks_plain (by rw [long_sizes.2]; decide)
      (by rw [Store.isLongName, long_sizes.2]; rfl)
  have hfails : (Work.each (Output.write Store.disk) c.outputs).Fails bulbStore
      (.inaccessible c.callbacksPath .nameTooLong)
      (bulbStore.put longLocation (.file (.text source))) := by
    rw [fails_outputs (isSome_source_of_callbacksSource hc)]
    exact .inr ⟨source, callbacks, .nameTooLong, hsource, hcallbacks, hwrite, (hcb _).1,
      (hcb _).2, rfl⟩
  obtain ⟨houtcome, hfiles⟩ := (compile_aborted_of_emitted hc).2 ⟨rfl, rfl, hfails⟩
  exact ⟨_, houtcome, bulbStore_has, hfiles ▸ bulbStore_put_has _⟩

end Statechart
