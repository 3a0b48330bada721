import Statechart.Proofs.Compile.Hooks
import Statechart.Proofs.Module.Printing
import Statechart.Proofs.Target.Tail

/-!
When a compilation crashes.

Up to the hand-written callbacks a run can only be rejected. Then names and trees are printed, and
what has no place in source text ends the compilation without a message: the name of a routine that
is not spelled like the identifier it was accepted as, or a file with something that has no layout.
-/
set_option autoImplicit false

namespace Statechart

theorem Override.name_of_ofItem? {item : Target.Tree} {f : Override} (h : ofItem? item = some f) :
    ∃ attrs visibility default sig block,
      item = .node .fnItem [attrs, visibility, default, .node .sig sig, block] ∧
        f.name = (sig.getD 5 (.list [])).leafText := by
  unfold ofItem? at h
  split at h
  · refine ⟨_, _, _, _, _, rfl, ?_⟩
    dsimp only at h
    split at h
    · rw [← Option.some.inj h]
    · obtain ⟨found, -, hfound⟩ := Option.map_eq_some_iff.1 h
      rw [← hfound]
  · cases h

namespace OverrideFile

theorem mem_items {tree item : Target.Tree} (h : item ∈ items tree) :
    ∃ inner its, tree = .node .file [inner, .list its] ∧ item ∈ its := by
  unfold items at h
  split at h
  · exact ⟨_, _, rfl, h⟩
  · cases h

theorem isPrintable_of_parse {path : Path} {source : String} {file : OverrideFile}
    (h : parse path source = .ok file) {f : Override} (hf : f ∈ file.functions) :
    isPrintable f.name = true := by
  unfold parse at h
  split at h
  · cases h
  · rename_i tree htree
    dsimp only at h
    split at h
    · cases h
    · cases h
      obtain ⟨item, hitem, hitemf⟩ := List.mem_filterMap.1 hf
      obtain ⟨attrs, visibility, default, sig, block, rfl, hname⟩ :=
        Override.name_of_ofItem? hitemf
      obtain ⟨inner, its, rfl, hmem⟩ := mem_items hitem
      obtain ⟨i, hi, hident, hspelled⟩ := Target.Grammar.name_of_file htree hmem
      have htext : f.name = i := by
        rw [hname, hi]
        simp [Target.Tree.leafText, String.join, Target.Token.text]
      rw [htext]
      exact isPrintable_of_spelled hspelled hident

/-- Every hand-written function stands in the place of a routine that can be printed. -/
def Sound (rs : List Routine) : Prop :=
  ∀ r ∈ rs, r.override ≠ none → isPrintable r.name = true

theorem names_replace (f : Override) (rs : List Routine) :
    (replace f rs).map Routine.name = rs.map Routine.name := by
  induction rs with
  | nil => rfl
  | cons r rs ih =>
    rw [replace]
    split
    · rfl
    · rw [List.map_cons, ih, List.map_cons]

theorem sound_replace {f : Override} {rs : List Routine} (hf : isPrintable f.name = true)
    (h : Sound rs) : Sound (replace f rs) := by
  induction rs with
  | nil => exact h
  | cons r rs ih =>
    obtain ⟨hr, hrs⟩ := List.forall_mem_cons.1 h
    rw [replace]
    split
    · rename_i hname
      exact List.forall_mem_cons.2 ⟨fun _ => hname ▸ hf, hrs⟩
    · exact List.forall_mem_cons.2 ⟨hr, ih hrs⟩

theorem mergeAll_keeps {fs : List Override} (hfs : ∀ f ∈ fs, isPrintable f.name = true)
    {rs rs' : List Routine} {orphans : List String} {j : Journal}
    (h : (mergeAll fs).Yields rs orphans j rs') (hrs : Sound rs) :
    Sound rs' ∧ rs'.map Routine.name = rs.map Routine.name := by
  induction fs generalizing rs orphans j with
  | nil =>
    obtain ⟨-, -, rfl⟩ := Work.yields_pure.1 h
    exact ⟨hrs, rfl⟩
  | cons f fs ih =>
    obtain ⟨hf, hfs⟩ := List.forall_mem_cons.1 hfs
    rw [mergeAll, Work.yields_get_bind] at h
    split at h
    · obtain ⟨_, _, _, _, hrest, hpure, -⟩ := Work.yields_bind.1 h
      obtain ⟨-, -, rfl⟩ := Work.yields_pure.1 hpure
      exact ih hfs hrest hrs
    · split at h
      · simp at h
      · rw [Work.yields_modify_bind] at h
        obtain ⟨hsound, hnames⟩ := ih hfs h (sound_replace hf hrs)
        exact ⟨hsound, hnames.trans (names_replace f rs)⟩

theorem merge_keeps {file : OverrideFile} (hfs : ∀ f ∈ file.functions, isPrintable f.name = true)
    {rs rs' : List Routine} {orphans : List String} {j : Journal}
    (h : file.merge.Yields rs orphans j rs') (hrs : Sound rs) :
    Sound rs' ∧ rs'.map Routine.name = rs.map Routine.name := by
  obtain ⟨_, _, rs₁, _, hall, hrest, -⟩ := Work.yields_bind.1 h
  have hstate : rs' = rs₁ := by
    split at hrest
    · rw [Work.yields_warn_bind] at hrest
      obtain ⟨_, hnote, -⟩ := hrest
      obtain ⟨_, _, _, _, hnote, hpure, -⟩ := Work.yields_bind.1 hnote
      rw [(Work.yields_pure.1 hpure).2.2, (Work.yields_note.1 hnote).2]
    · obtain ⟨_, _, _, _, hnote, hpure, -⟩ := Work.yields_bind.1 hrest
      rw [(Work.yields_pure.1 hpure).2.2, (Work.yields_note.1 hnote).2]
  rw [hstate]
  exact mergeAll_keeps hfs hall hrs

end OverrideFile

namespace Run

variable {s : Settings} {read : Reading.FileReader} {text : Option String} {st : Stage}
  {r r' : Run} {j : Journal} {α β : Type}

def Rejected (fault : Fault) : Prop :=
  ∃ e, fault = .rejected e

theorem rejected_bind {w : Stagework α} {f : α → Stagework β}
    (hw : ∀ r, FailsFor Rejected (w r).result) (hf : ∀ a r, FailsFor Rejected (f a r).result)
    (r : Run) : FailsFor Rejected ((w >>= f) r).result := by
  rw [Work.result_bind]
  exact failsFor_bind (hw r) fun a _ => hf a _

theorem rejected_mapError (x : Except Error α) : FailsFor Rejected (x.mapError Fault.rejected) :=
  failsFor_mapError fun e _ => ⟨e, rfl⟩

theorem rejected_within {σ : Type} {part : Run → σ} {put : σ → Run → Run} (w : Work Error σ α)
    (r : Run) : FailsFor Rejected (w.within part put .rejected r).result :=
  rejected_mapError _

theorem rejected_overridePath (o : Options) (r : Run) :
    FailsFor Rejected (s.overridePath o r).result := by
  unfold Settings.overridePath
  cases s.callbacks with
  | none => exact failsFor_of_eq_ok rfl
  | some given =>
    cases o.overrides.map s.directory.join with
    | none => exact failsFor_of_eq_ok rfl
    | some file =>
      dsimp only
      by_cases hsame : (!given.same file) = true
      · rw [if_pos hsame]
        exact failsFor_of_eq_ok rfl
      · rw [if_neg hsame]
        exact failsFor_of_eq_ok rfl

theorem rejected_merge (r : Run) : FailsFor Rejected (merge s read r).result := by
  rw [merge_eq]
  refine rejected_bind (fun _ => failsFor_of_eq_ok rfl) (fun r => ?_) r
  refine rejected_bind (rejected_overridePath _) fun path => ?_
  cases path with
  | none => exact fun _ => failsFor_pure _
  | some p =>
    exact rejected_bind (fun _ => rejected_mapError _) fun _ =>
      rejected_bind (rejected_within _) fun _ _ => failsFor_of_eq_ok rfl

theorem rejected_generate (pass : Chart → Generate Unit) (r : Run) :
    FailsFor Rejected (generate pass r).result :=
  rejected_bind (fun _ => failsFor_of_eq_ok rfl) (fun _ => rejected_within _) r

theorem rejected_stage (hst : st ∈ toHooks ++ [.mergeOverrides]) (r : Run) :
    FailsFor Rejected (stage s read text st r).result := by
  simp only [toHooks, List.cons_append, List.nil_append, List.mem_cons, List.not_mem_nil,
    or_false] at hst
  rcases hst with rfl | rfl | rfl | rfl | rfl | rfl | rfl
  · exact rejected_bind (fun _ => rejected_mapError _) (fun _ =>
      rejected_bind (rejected_within _) fun _ _ => failsFor_of_eq_ok rfl) r
  · exact rejected_within _ r
  · exact rejected_within _ r
  · exact rejected_within _ r
  · exact rejected_generate _ r
  · exact rejected_generate _ r
  · exact rejected_merge r

theorem rejected_of_fails {sts : List Stage} (hsts : ∀ st ∈ sts, st ∈ toHooks ++ [.mergeOverrides])
    {stop : Stop} (h : (stages s read text sts).Fails r stop r') :
    ∃ e, stop.fault = .rejected e := by
  induction sts generalizing r with
  | nil => cases h.1
  | cons st sts ih =>
    obtain ⟨hst, hrest⟩ := List.forall_mem_cons.1 hsts
    obtain ⟨-, fault, hfails, rfl⟩ | ⟨_, r₁, -, h⟩ := fails_stages_cons.1 h
    · exact rejected_stage hst r fault hfails.1
    · exact ih hrest h

theorem fails_of_append {first rest : List Stage} {stop : Stop}
    (h : (stages s read text (first ++ rest)).Fails r stop r') :
    (stages s read text first).Fails r stop r' ∨
      ∃ j r₁, (stages s read text first).Yields r () j r₁ ∧
        (stages s read text rest).Fails r₁ stop r' := by
  induction first generalizing r with
  | nil => exact .inr ⟨[], r, yields_stages_nil.2 ⟨rfl, rfl⟩, h⟩
  | cons st first ih =>
    obtain hst | ⟨j, r₁, hpass, hrest⟩ := fails_stages_cons.1 h
    · exact .inl (fails_stages_cons.2 (.inl hst))
    · obtain hfirst | ⟨j', r₂, hfirst, hrest⟩ := ih hrest
      · exact .inl (fails_stages_cons.2 (.inr ⟨j, r₁, hpass, hfirst⟩))
      · exact .inr ⟨_, r₂, yields_stages_cons.2 ⟨j, r₁, j', hpass, hfirst, rfl⟩, hrest⟩

def toMerge : List Stage :=
  toHooks ++ [.mergeOverrides]

theorem stages_all_toMerge : Stage.all = toMerge ++ emission := rfl

theorem yields_toMerge (h : (stages s read text toMerge).Yields {} () j r)
    (hgen : r.chart.options.genCode = true) :
    ∃ j₁ j₂ r₁, (stages s read text toHooks).Yields {} () j₁ r₁ ∧
      r₁.chart.options.genCode = true ∧ (merge s read).Yields r₁ () j₂ r := by
  obtain ⟨j₁, r₁, _, hhooks, hmerge, -⟩ := yields_stages_append.1 h
  obtain ⟨_, r₂, _, hpass, hnil, -⟩ := yields_stages_cons.1 hmerge
  obtain ⟨-, rfl⟩ := yields_stages_nil.1 hnil
  obtain ⟨hskip, -, rfl⟩ | ⟨hskip, j₂, hyields, -⟩ := hpass
  · simp [isSkipped, hgen] at hskip
  · refine ⟨j₁, j₂, r₁, hhooks, ?_, hyields⟩
    rw [← merge_chart hyields, hgen]

theorem exists_yields_toMerge {j₁ j₂ : Journal}
    (hhooks : (stages s read text toHooks).Yields {} () j₁ r)
    (hgen : r.chart.options.genCode = true) (hmerge : (merge s read).Yields r () j₂ r') :
    ∃ j, (stages s read text toMerge).Yields {} () j r' :=
  ⟨_, yields_stages_append.2 ⟨j₁, r, _, hhooks, yields_stages_cons.2 ⟨_, r', [],
    (passes_of_genCode hgen).2 ⟨j₂, hmerge, rfl⟩, yields_stages_nil.2 ⟨rfl, rfl⟩, rfl⟩, rfl⟩⟩

/-- Merging keeps hooks and the names of routines, and hand-written functions can be printed. -/
theorem merge_keeps (h : (merge s read).Yields r () j r')
    (hr : OverrideFile.Sound r.callbacks.routines) :
    OverrideFile.Sound r'.callbacks.routines ∧
      r'.callbacks.routines.map Routine.name = r.callbacks.routines.map Routine.name ∧
      Module.hooks r'.callbacks = Module.hooks r.callbacks := by
  obtain ⟨path, _, _, -, hfile, -⟩ := yields_merge.1 h
  cases path with
  | none =>
    obtain ⟨-, -, rfl⟩ := Work.yields_pure.1 hfile
    exact ⟨hr, rfl, rfl⟩
  | some p =>
    obtain ⟨file, orphans, routines, hload, hmerge, rfl⟩ := yields_mergeFile.1 hfile
    have hprint : ∀ f ∈ file.functions, isPrintable f.name = true := by
      intro f hf
      unfold OverrideFile.load at hload
      split at hload
      · exact OverrideFile.isPrintable_of_parse hload hf
      · cases hload
    obtain ⟨hsound, hnames⟩ := OverrideFile.merge_keeps hprint hmerge hr
    exact ⟨hsound, hnames, rfl⟩

theorem named_of_toMerge (h : (stages s read text toMerge).Yields {} () j r)
    (hgen : r.chart.options.genCode = true) : Module.Named r.callbacks := by
  obtain ⟨j₁, j₂, r₁, hhooks, hgen₁, hmerge⟩ := yields_toMerge h hgen
  have hserving := serving_of_toHooks hhooks hgen₁
  obtain ⟨-, hgenerated⟩ := routines_of_toHooks hhooks hgen₁
  obtain ⟨hsound, hnames, hkept⟩ := merge_keeps hmerge (by
    intro x hx hover
    exact absurd (hgenerated x hx) hover)
  refine ⟨?_, ?_, hsound⟩
  · intro x hx
    have hmem : x.name ∈ r₁.callbacks.routines.map Routine.name :=
      hnames ▸ List.mem_map_of_mem hx
    obtain ⟨y, hy, hname⟩ := List.mem_map.1 hmem
    obtain ⟨g, htracks, hout⟩ := hserving.tracks
    rw [← hname]
    exact htracks.accepted y (hout ▸ hy)
  · intro name hmem
    rw [hkept, Module.mem_hooks] at hmem
    obtain ⟨y, hy, rfl⟩ := hserving.exists_routine hmem
    have hname : y.name ∈ r.callbacks.routines.map Routine.name :=
      hnames.symm ▸ List.mem_map_of_mem hy
    obtain ⟨x, hx, hxy⟩ := List.mem_map.1 hname
    exact ⟨x, hx, hxy⟩

def print (c : Chart) (k : Callbacks) : Except Fault (String × Option String) := do
  let declarations ← Module.declarations c k
  let source ← Module.source c declarations
  return (source, ← Module.callbacksSource c k)

inductive Unwritable (c : Chart) (k : Callbacks) : Prop where
  /-- A routine is not spelled like the identifier that its name was accepted as. -/
  | name {f : Routine} {i : Target.Ident} (hc : Module.Readable c) (hf : f ∈ k.routines)
      (hi : Target.Fragment.ident? (Text.trim f.name) = some i) (hname : i.text ≠ f.name)
  | module {d ts : List Target.Token} (hd : Module.declarations c k = .ok d)
      (hts : Module.moduleTokens c d = .ok ts) (hno : Module.Undrawn ts)
  | callbacks {d ts : List Target.Token} {source : String}
      (hd : Module.declarations c k = .ok d) (hsource : Module.source c d = .ok source)
      (hon : c.options.genCallbacks = true) (hts : Module.markedFns c k.routines = .ok ts)
      (hno : Module.Undrawn ts)

theorem printable_of_declarations {c : Chart} {k : Callbacks} {d : List Target.Token}
    (hk : Module.Named k) (hd : Module.declarations c k = .ok d) :
    ∀ f ∈ k.routines, isPrintable f.name = true := by
  have hreadable : Module.Readable c := by
    rw [Module.declarations] at hd
    obtain ⟨chart, hchart, hd⟩ := bind_eq_ok.1 hd
    obtain ⟨_, htypes, hd⟩ := bind_eq_ok.1 hd
    obtain ⟨groups, hgroups, hd⟩ := bind_eq_ok.1 hd
    obtain ⟨tables, htables, -⟩ := bind_eq_ok.1 hd
    simp only [Module.rejecting_eq_ok] at hchart htypes hgroups htables
    exact ⟨chart, groups, tables, hchart, htypes, hgroups, htables⟩
  intro f hf
  by_contra hname
  have hno : Unprintable (Module.declarations c k) :=
    (Module.unprintable_declarations hk).2 ⟨hreadable, f, hf, by simpa using hname⟩
  rw [hd] at hno
  exact unprintable_ok d hno

theorem unprintable_print {c : Chart} {k : Callbacks} (hk : Module.Named k)
    (hgen : c.options.genCode = true) : Unprintable (print c k) ↔ Unwritable c k := by
  simp only [print, unprintable_bind, unprintable_pure, and_false, exists_false, or_false]
  constructor
  · intro h
    obtain h | ⟨d, hd, h | ⟨source, hsource, h⟩⟩ := h
    · obtain ⟨hc, f, hf, hname⟩ := (Module.unprintable_declarations hk).1 h
      obtain ⟨i, hi⟩ := hk.accepted f hf
      refine .name hc hf hi ?_
      intro htext
      simp [(isPrintable_iff hi).2 htext] at hname
    · obtain ⟨ts, hts, hno⟩ := Module.unprintable_source.1 h
      exact .module hd hts hno
    · obtain ⟨-, hon, ts, hts, hno⟩ :=
        (Module.unprintable_callbacksSource (printable_of_declarations hk hd)).1 h
      exact .callbacks hd hsource hon hts hno
  · intro h
    cases h with
    | name hc hf hi hname =>
      refine .inl ((Module.unprintable_declarations hk).2 ⟨hc, _, hf, ?_⟩)
      simpa using mt (isPrintable_iff hi).1 hname
    | module hd hts hno => exact .inr ⟨_, hd, .inl (Module.unprintable_source.2 ⟨_, hts, hno⟩)⟩
    | callbacks hd hsource hon hts hno =>
      exact .inr ⟨_, hd, .inr ⟨_, hsource, (Module.unprintable_callbacksSource
        (printable_of_declarations hk hd)).2 ⟨hgen, hon, _, hts, hno⟩⟩⟩

theorem fails_declare {fault : Fault} :
    declare.Fails r fault r' ↔ Module.declarations r.chart r.callbacks = .error fault ∧ r = r' := by
  rw [declare, Work.fails_get_bind, Work.fails_bind, Work.fails_ofExcept, or_iff_left]
  intro h
  obtain ⟨_, _, _, -, h⟩ := h
  cases h.1

theorem fails_write {fault : Fault} :
    write.Fails r fault r' ↔ Module.source r.chart r.declarations = .error fault ∧ r = r' := by
  rw [write, Work.fails_get_bind, Work.fails_bind, Work.fails_ofExcept, or_iff_left]
  intro h
  obtain ⟨_, _, _, -, h⟩ := h
  cases h.1

theorem fails_finish {stop : Stop} :
    (finish s).Fails r stop r' ↔
      ∃ fault, Module.callbacksSource r.chart r.callbacks = .error fault ∧
        stop = ⟨.emitWrapper, fault⟩ ∧ r = r' := by
  rw [finish, Work.fails_get_bind, Work.fails_bind, Work.fails_ofExcept, or_iff_left]
  · cases Module.callbacksSource r.chart r.callbacks with
    | ok cb => simp
    | error fault => simp [eq_comm]
  · intro h
    obtain ⟨_, _, _, -, h⟩ := h
    cases h.1

theorem fails_emission (hgen : r.chart.options.genCode = true) {stop : Stop} :
    (stages s read text emission).Fails r stop r' ↔
      (∃ fault, Module.declarations r.chart r.callbacks = .error fault ∧
        stop = ⟨.emitDeclarations, fault⟩ ∧ r = r') ∨
      ∃ d fault, Module.declarations r.chart r.callbacks = .ok d ∧
        Module.source r.chart d = .error fault ∧ stop = ⟨.emitWrapper, fault⟩ ∧
        { r with declarations := d } = r' := by
  have hon : ∀ st d, isSkipped st { r with declarations := d } = false := by
    intro st d
    simp [isSkipped, hgen]
  constructor
  · intro h
    obtain ⟨-, fault, hfails, rfl⟩ | ⟨_, r₁, hpass, h⟩ := fails_stages_cons.1 h
    · obtain ⟨hd, rfl⟩ := fails_declare.1 hfails
      exact .inl ⟨fault, hd, rfl, rfl⟩
    · obtain ⟨_, hdeclare, -⟩ := (passes_of_genCode hgen).1 hpass
      obtain ⟨d, hd, -, rfl⟩ := yields_declare.1 hdeclare
      obtain ⟨-, fault, hfails, rfl⟩ | ⟨_, r₂, -, h⟩ := fails_stages_cons.1 h
      · obtain ⟨hsource, rfl⟩ := fails_write.1 hfails
        exact .inr ⟨d, fault, hd, hsource, rfl, rfl⟩
      · cases h.1
  · intro h
    obtain ⟨fault, hd, rfl, rfl⟩ | ⟨d, fault, hd, hsource, rfl, rfl⟩ := h
    · exact fails_stages_cons.2 (.inl ⟨hon _ r.declarations, fault, fails_declare.2 ⟨hd, rfl⟩, rfl⟩)
    · have hdeclare : declare.Yields r () [] { r with declarations := d } :=
        yields_declare.2 ⟨d, hd, rfl, rfl⟩
      refine fails_stages_cons.2 (.inr ⟨_, _, (passes_of_genCode hgen).2 ⟨_, hdeclare, rfl⟩, ?_⟩)
      exact fails_stages_cons.2 (.inl ⟨hon _ d, fault, fails_write.2 ⟨hsource, rfl⟩, rfl⟩)

end Run

open Run

variable {s : Settings} {read : Reading.FileReader} {text : Option String}

theorem outcome_crashed_iff {t : String} :
    (compileText s read text).outcome = .crashed t ↔
      ∃ stop r, (stages s read text Stage.all >>= fun _ => finish s).Fails {} stop r ∧
        stop.fault = .unprintable t := by
  unfold compileText Work.Fails
  dsimp only
  generalize (stages s read text Stage.all >>= fun _ => finish s) {} = step
  obtain ⟨r, j, result⟩ := step
  cases result with
  | ok c => simp
  | error stop =>
    obtain ⟨st, fault⟩ := stop
    cases fault with
    | rejected e => simp [Stop.outcome]
    | unprintable t' => simp [Stop.outcome]

theorem crashed_iff_unprintable :
    (∃ t, (compileText s read text).outcome = .crashed t) ↔
      ∃ j r, (stages s read text toMerge).Yields {} () j r ∧ r.chart.options.genCode = true ∧
        Unprintable (Run.print r.chart r.callbacks) := by
  simp only [outcome_crashed_iff, stages_all_toMerge, Run.print, unprintable_bind,
    unprintable_pure, and_false, exists_false, or_false]
  constructor
  · intro h
    obtain ⟨t, stop, r₂, h, ht⟩ := h
    obtain h | ⟨_, j, r₁, hstages, hfinish⟩ := Work.fails_bind.1 h
    · obtain h | ⟨j, r, hmerge, h⟩ := fails_of_append h
      · obtain ⟨e, he⟩ := rejected_of_fails (fun _ hst => hst) h
        rw [he] at ht
        cases ht
      · by_cases hgen : r.chart.options.genCode = true
        · refine ⟨j, r, hmerge, hgen, ?_⟩
          obtain ⟨fault, hd, rfl, -⟩ | ⟨d, fault, hd, hsource, rfl, -⟩ := (fails_emission hgen).1 h
          · exact .inl ⟨t, ht ▸ hd⟩
          · exact .inr ⟨d, hd, .inl ⟨t, ht ▸ hsource⟩⟩
        · exact absurd h (not_fails_of_skipped (by decide) (by simpa using hgen))
    · obtain ⟨fault, hcb, rfl, -⟩ := fails_finish.1 hfinish
      obtain ⟨j₁, r, j₂, hmerge, hemission, -⟩ := yields_stages_append.1 hstages
      by_cases hgen : r.chart.options.genCode = true
      · obtain ⟨d, source, hd, hsource, rfl, -⟩ := (yields_emission hgen).1 hemission
        exact ⟨j₁, r, hmerge, hgen, .inr ⟨d, hd, .inr ⟨source, hsource, t, ht ▸ hcb⟩⟩⟩
      · obtain rfl := eq_of_skipped (by decide) (by simpa using hgen) hemission
        rw [Module.callbacksSource_of_off (by simpa using hgen)] at hcb
        cases hcb
  · intro h
    obtain ⟨j, r, hmerge, hgen, h⟩ := h
    obtain ⟨t, hd⟩ | ⟨d, hd, ⟨t, hsource⟩ | ⟨source, hsource, t, hcb⟩⟩ := h
    · exact ⟨t, _, r, Work.fails_bind.2 (.inl (fails_stages_append hmerge
        ((fails_emission hgen).2 (.inl ⟨_, hd, rfl, rfl⟩)))), rfl⟩
    · exact ⟨t, _, _, Work.fails_bind.2 (.inl (fails_stages_append hmerge
        ((fails_emission hgen).2 (.inr ⟨d, _, hd, hsource, rfl, rfl⟩)))), rfl⟩
    · have hstages := yields_stages_append.2 ⟨j, r, _, hmerge,
        (yields_emission hgen).2 ⟨d, source, hd, hsource, rfl, rfl⟩, rfl⟩
      exact ⟨t, _, _, Work.fails_bind.2 (.inr ⟨(), _, _, hstages,
        fails_finish.2 ⟨_, hcb, rfl, rfl⟩⟩), rfl⟩

/-- An accepted name is printed, as a function, as a marked function or as a hook, exactly if it is
spelled like the identifier that it was accepted as. A compilation crashes exactly where code is
generated, all stages up to the merged callbacks went through, and such a name or something without
a layout makes the module or the callbacks file unwritable. -/
theorem compileText_crashed_iff (s : Settings) (read : Reading.FileReader) (text : Option String) :
    (∀ (f : Routine) (i chart : Target.Ident),
      Target.Fragment.ident? (Text.trim f.name) = some i →
        ((∃ ts, f.generated chart = .ok ts) ↔ i.text = f.name) ∧
        ((∃ ts, f.markedTokens chart = .ok ts) ↔ i.text = f.name) ∧
        ((∃ ts, (Hook.named f.name).tokens = .ok ts) ↔ i.text = f.name)) ∧
    ((∃ t, (compileText s read text).outcome = .crashed t) ↔
      ∃ j r, (stages s read text toMerge).Yields {} () j r ∧ r.chart.options.genCode = true ∧
        Unwritable r.chart r.callbacks) := by
  constructor
  · intro f i chart hi
    rw [← isPrintable_iff hi]
    refine ⟨?_, ?_, ?_⟩
    · simp [Routine.generated_eq_ok]
    · simp [Routine.markedTokens_eq_ok]
    · cases hname : isPrintable f.name <;> simp [Hook.tokens, printed, hname]
  · rw [crashed_iff_unprintable]
    constructor
    · intro h
      obtain ⟨j, r, hmerge, hgen, h⟩ := h
      exact ⟨j, r, hmerge, hgen, (unprintable_print (named_of_toMerge hmerge hgen) hgen).1 h⟩
    · intro h
      obtain ⟨j, r, hmerge, hgen, h⟩ := h
      exact ⟨j, r, hmerge, hgen, (unprintable_print (named_of_toMerge hmerge hgen) hgen).2 h⟩

/-- The bulb with a comment beside the name of its entry. -/
def annotatedLines : List String :=
  bulbLines.map fun l => if l = "entry = None" then "entry = tick /*c*/" else l

def annotated : Chart :=
  { bulb with states :=
      [⟨"STATE_1", "Idle", none, .simple, .bare "tick /*c*/", .absent, .absent, false⟩] }

def annotatedFiles : Reading.FileReader := fun _ => .error .notFound

theorem annotated_read :
    (Chart.read "bulb.ini" (Text.unlines annotatedLines) ⟨""⟩ annotatedFiles ()).result =
      .ok annotated :=
  Chart.read_unlines (by repeat constructor) (by decide +kernel) (by decide +kernel)

theorem annotated_readable : Module.Readable (Validation.all annotated).state := by
  have hsome : ((Module.chartIdent (Validation.all annotated).state).toOption.isSome &&
      (Module.checkTypeNames (Validation.all annotated).state).toOption.isSome &&
      (Module.eventGroups (Validation.all annotated).state).toOption.isSome &&
      (Module.eventTables (Validation.all annotated).state).toOption.isSome) = true := by
    decide +kernel
  simp only [Bool.and_eq_true, Option.isSome_iff_exists] at hsome
  obtain ⟨⟨⟨⟨chart, hchart⟩, ⟨_, htypes⟩⟩, ⟨groups, hgroups⟩⟩, ⟨tables, htables⟩⟩ := hsome
  exact ⟨chart, groups, tables, ok_of_toOption hchart, ok_of_toOption htypes,
    ok_of_toOption hgroups, ok_of_toOption htables⟩

/-- The name passes the check, and the compilation crashes. -/
theorem annotated_entry_crashes :
    Target.Fragment.ident? (Text.trim "tick /*c*/") = some ⟨false, "tick"⟩ ∧
      ∃ t, (compileText { design := ⟨"bulb.ini"⟩ } annotatedFiles
        (some (Text.unlines annotatedLines))).outcome = .crashed t := by
  have hident : Target.Fragment.ident? (Text.trim "tick /*c*/") = some ⟨false, "tick"⟩ := by
    decide +kernel
  refine ⟨hident, crashed_iff_unprintable.2 ?_⟩
  have hgen : (Validation.all annotated).state.options.genCode = true := by decide +kernel
  have hnamed : (Validation.all annotated).state.options.overrides = none := by decide +kernel
  have hroutine : "tick /*c*/" ∈
      (hooksOf (Validation.all annotated).state).routines.map Routine.name := by
    decide +kernel
  obtain ⟨f, hf, hname⟩ := List.mem_map.1 hroutine
  have hread : (Chart.read ({ design := ⟨"bulb.ini"⟩ } : Settings).label
      (Text.unlines annotatedLines) ({ design := ⟨"bulb.ini"⟩ } : Settings).directory
      annotatedFiles ()).result = .ok annotated := by
    rw [show ({ design := ⟨"bulb.ini"⟩ } : Settings).label = "bulb.ini" by decide,
      show ({ design := ⟨"bulb.ini"⟩ } : Settings).directory = ⟨""⟩ by decide, annotated_read]
  obtain ⟨j, hhooks⟩ := yields_toHooks hgen (ok_of_toOption (by decide +kernel))
    (ok_of_toOption (by decide +kernel))
    (show designText { design := ⟨"bulb.ini"⟩ } annotatedFiles
      (some (Text.unlines annotatedLines)) = .ok (Text.unlines annotatedLines) from rfl)
    hread (ok_of_toOption (by decide +kernel))
  obtain ⟨j', hmerge⟩ := exists_yields_toMerge hhooks hgen
    ((yields_merge_none hnamed rfl).2 ⟨rfl, rfl⟩)
  refine ⟨j', _, hmerge, hgen, (unprintable_print (named_of_toMerge hmerge hgen) hgen).2 ?_⟩
  exact .name annotated_readable hf (hname ▸ hident) (by rw [hname]; decide)

end Statechart
