import Statechart.Callbacks.Override
import Statechart.Module.Source
import Statechart.Proofs.Module.Outline
import Statechart.Proofs.Target.Source
import Statechart.Proofs.Target.Spelling

/-!
The callbacks file as a file of hand-written callbacks.

Every routine is a marked function of the callbacks file. Read again, the file has one function for
each routine, with its name and role, and its tokens without the marker. Merging them puts every
routine in its own place.
-/
set_option autoImplicit false

namespace Statechart

open Target (Token Tree Ident code code_ofList)
open Target.Grammar (MarkedFn markerTree)

theorem isIdentifier_of_isPrintable {name : String} (h : isPrintable name = true) :
    Target.isIdentifier name = true := by
  unfold isPrintable at h
  cases hi : Target.Fragment.ident? name with
  | none => simp [hi] at h
  | some i =>
    have hname : i.text = name := by simpa [hi] using h
    rw [← hname, Target.Fragment.isIdentifier_text hi]

theorem Module.isIdentifier_chartIdent {c : Chart} {chart : Ident} (h : chartIdent c = .ok chart) :
    Target.isIdentifier chart.text = true :=
  Target.Fragment.isIdentifier_text (readIdent_eq_ok.1 h)

namespace Routine

def toFn (r : Routine) (chart : Ident) : MarkedFn where
  marker := r.role.marker
  name := r.name
  param := "param"
  mutable := r.role = .action
  type := chart.text
  result := if r.role = .guard then some "bool" else none
  body := r.body.flatMap Statement.tokens ++ if r.role = .guard then [.ident "true"] else []

variable {r : Routine} {chart : Ident} {ts : List Token}

theorem generated_eq_ok :
    r.generated chart = .ok ts ↔ isPrintable r.name = true ∧ ts = (r.toFn chart).plainTokens := by
  have hhead : code "pub fn" = [.ident "pub", .ident "fn"] := code_ofList _
  have hmut : code "param : & mut" =
      [.ident "param", .punct ':' false, .punct '&' false, .ident "mut"] := code_ofList _
  have hshared : code "param : &" = [.ident "param", .punct ':' false, .punct '&' false] :=
    code_ofList _
  have hbool : code "-> bool" = [.punct '-' true, .punct '>' false, .ident "bool"] :=
    code_ofList _
  have htrue : code "true" = [.ident "true"] := code_ofList _
  unfold generated printed
  cases hprint : isPrintable r.name with
  | false => simp [bind, Except.bind]
  | true =>
    cases hrole : r.role with
    | action =>
      simp [bind, Except.bind, pure, Except.pure, hhead, hmut, hrole, toFn, MarkedFn.plainTokens,
        MarkedFn.sigTokens, MarkedFn.resultTokens, Target.Grammar.refTokens, Token.word,
        Token.parens, Token.braces, Ident.tokens, eq_comm]
    | guard =>
      simp [bind, Except.bind, pure, Except.pure, hhead, hshared, hbool, htrue, hrole, toFn,
        MarkedFn.plainTokens, MarkedFn.sigTokens, MarkedFn.resultTokens, Target.Grammar.refTokens,
        Token.word, Token.parens, Token.braces, Ident.tokens, eq_comm]

theorem markedTokens_eq_ok :
    r.markedTokens chart = .ok ts ↔ isPrintable r.name = true ∧ ts = (r.toFn chart).tokens := by
  have hmarker : Token.op "#" ++ Token.brackets (Token.word r.role.marker) =
      [.punct '#' false, .group .bracket [.ident r.role.marker]] := by
    simp [Token.op, Token.opChars, Token.brackets, Token.word]
  rw [markedTokens, bind_eq_ok]
  constructor
  · intro h
    obtain ⟨fn, hfn, hts⟩ := h
    obtain ⟨hname, rfl⟩ := generated_eq_ok.1 hfn
    rw [hmarker] at hts
    exact ⟨hname, (Except.ok.inj hts).symm⟩
  · intro h
    obtain ⟨hname, rfl⟩ := h
    refine ⟨_, generated_eq_ok.2 ⟨hname, rfl⟩, ?_⟩
    rw [hmarker]
    rfl

theorem named_toFn (hname : isPrintable r.name = true)
    (hchart : Target.isIdentifier chart.text = true) : (r.toFn chart).Named where
  marker := by
    simp only [toFn]
    cases r.role <;> decide
  name := isIdentifier_of_isPrintable hname
  param := by
    simp only [toFn]
    decide
  type := hchart
  result := by
    intro t ht
    cases hrole : r.role with
    | action => simp [toFn, hrole] at ht
    | guard =>
      obtain rfl : "bool" = t := by simpa [toFn, hrole] using ht
      decide

theorem mapAll_markedTokens {rs : List Routine} {tss : List (List Token)} :
    Module.mapAll (markedTokens · chart) rs = .ok tss ↔
      (∀ r ∈ rs, isPrintable r.name = true) ∧ tss = rs.map fun r => (r.toFn chart).tokens := by
  rw [Module.mapAll_eq_ok]
  constructor
  · intro h
    induction h with
    | nil => simp
    | cons hr _ ih =>
      obtain ⟨hname, rfl⟩ := markedTokens_eq_ok.1 hr
      obtain ⟨hnames, rfl⟩ := ih
      exact ⟨List.forall_mem_cons.2 ⟨hname, hnames⟩, rfl⟩
  · intro h
    obtain ⟨hnames, rfl⟩ := h
    induction rs with
    | nil => exact .nil
    | cons r rs ih =>
      obtain ⟨hname, hnames⟩ := List.forall_mem_cons.1 hnames
      exact .cons (markedTokens_eq_ok.2 ⟨hname, rfl⟩) (ih hnames)

end Routine

structure Mirrors (chart : Ident) (r : Routine) (f : Override) : Prop where
  name : f.name = r.name
  role : f.role = r.role
  tokens : f.tree.tokens = (r.toFn chart).plainTokens

theorem Override.ofItem?_of_shows {chart : Ident} {r : Routine} {t : Tree}
    (h : (r.toFn chart).Shows t) : ∃ f, ofItem? t = some f ∧ Mirrors chart r f := by
  obtain ⟨inner, stmts, rfl, hbody⟩ := h
  refine ⟨⟨r.name, r.role, (r.toFn chart).itemTree [] (MarkedFn.blockTree inner stmts)⟩, ?_,
    rfl, rfl, ?_⟩
  · have hmarker : takeMarker [markerTree (r.toFn chart).marker] = some (r.role, []) := by
      rw [Routine.toFn]
      cases r.role <;> rfl
    have hname : (Tree.leaf [.ident (r.toFn chart).name]).leafText = r.name := by
      simp [Tree.leafText, String.join, Token.text, Routine.toFn]
    rw [MarkedFn.itemTree, MarkedFn.sigTree, MarkedFn.blockTree, ofItem?]
    simp only [hmarker]
    simp only [List.getD_eq_getElem?_getD, List.getElem?_cons_succ, List.getElem?_cons_zero,
      Option.getD_some, hname]
    rfl
  · rw [MarkedFn.tokens_itemTree, hbody]
    rfl

theorem Override.repeated?_eq_none {before : List String} {fs : List Override}
    (h : (fs.map Override.name).Nodup) (hbefore : ∀ f ∈ fs, f.name ∉ before) :
    repeated? before fs = none := by
  induction fs generalizing before with
  | nil => rfl
  | cons f fs ih =>
    obtain ⟨hf, hfs⟩ := List.nodup_cons.1 h
    obtain ⟨hnew, hrest⟩ := List.forall_mem_cons.1 hbefore
    rw [repeated?, if_neg (by simpa using hnew)]
    refine ih hfs ?_
    intro g hg hmem
    rcases List.mem_cons.1 hmem with heq | hmem
    · exact hf (heq ▸ List.mem_map_of_mem hg)
    · exact hrest g hg hmem

namespace OverrideFile

variable {chart : Ident} {rs : List Routine} {fs : List Override}

theorem names_of_mirrors (h : List.Forall₂ (Mirrors chart) rs fs) :
    fs.map Override.name = rs.map Routine.name :=
  forall₂_map_eq h Mirrors.name

theorem parse_of_shows {items : List Tree} {source : String}
    (hfile : Target.Fragment.file? source = some (.node .file [.list [], .list items]))
    (hshows : List.Forall₂ MarkedFn.Shows (rs.map (Routine.toFn · chart)) items)
    (hnames : (rs.map Routine.name).Nodup) :
    ∃ fs, List.Forall₂ (Mirrors chart) rs fs ∧ ∀ path, parse path source = .ok ⟨path, fs⟩ := by
  have hfunctions : ∃ fs, items.filterMap Override.ofItem? = fs ∧
      List.Forall₂ (Mirrors chart) rs fs := by
    clear hfile hnames
    induction rs generalizing items with
    | nil =>
      cases hshows
      exact ⟨[], rfl, .nil⟩
    | cons r rs ih =>
      cases hshows with
      | cons hitem hrest =>
        obtain ⟨f, hf, hmirrors⟩ := Override.ofItem?_of_shows hitem
        obtain ⟨fs, hfs, hall⟩ := ih hrest
        exact ⟨f :: fs, by rw [List.filterMap_cons, hf, hfs], .cons hmirrors hall⟩
  obtain ⟨fs, hfs, hmirrors⟩ := hfunctions
  have hrepeated : Override.repeated? [] fs = none := by
    refine Override.repeated?_eq_none ?_ (by simp)
    rw [names_of_mirrors hmirrors]
    exact hnames
  refine ⟨fs, hmirrors, ?_⟩
  intro path
  unfold parse
  rw [hfile]
  simp only [OverrideFile.items, hfs, hrepeated]

def overridden (rs : List Routine) (fs : List Override) : List Routine :=
  List.zipWith (fun r f => { r with override := some f.tree }) rs fs

theorem replace_of_not_mem {f : Override} {before rs : List Routine} {r : Routine}
    (hr : r.name = f.name) (hbefore : f.name ∉ before.map Routine.name) :
    replace f (before ++ r :: rs) = before ++ { r with override := some f.tree } :: rs := by
  induction before with
  | nil => simp [replace, hr]
  | cons b before ih =>
    obtain ⟨hb, hrest⟩ := not_or.1 (mt List.mem_cons.2 hbefore)
    simp [replace, Ne.symm hb, ih hrest]

theorem find?_of_not_mem {name : String} {before rs : List Routine} {r : Routine}
    (hr : r.name = name) (hbefore : name ∉ before.map Routine.name) :
    (before ++ r :: rs).find? (·.name == name) = some r := by
  induction before with
  | nil => simp [hr]
  | cons b before ih =>
    obtain ⟨hb, hrest⟩ := not_or.1 (mt List.mem_cons.2 hbefore)
    rw [List.cons_append, List.find?_cons_of_neg (by simpa using Ne.symm hb), ih hrest]

theorem yields_mergeAll (before : List Routine) (h : List.Forall₂ (Mirrors chart) rs fs)
    (hnames : ((before ++ rs).map Routine.name).Nodup) :
    (mergeAll fs).Yields (before ++ rs) [] [] (before ++ overridden rs fs) := by
  induction h generalizing before with
  | nil => simp [mergeAll, overridden]
  | @cons r f rs fs hf _ ih =>
    have hnew : f.name ∉ before.map Routine.name := hf.name ▸ not_mem_of_nodup_map hnames
    have hnext : ((before ++ [{ r with override := some f.tree }]) ++ rs).map Routine.name =
        (before ++ r :: rs).map Routine.name := by simp
    rw [mergeAll, Work.yields_get_bind, find?_of_not_mem hf.name.symm hnew]
    simp only [ne_eq, hf.role, not_true_eq_false, if_false]
    rw [Work.yields_modify_bind, replace_of_not_mem hf.name.symm hnew]
    have hrest := ih (before ++ [{ r with override := some f.tree }])
      (by rw [hnext]; exact hnames)
    simpa [overridden] using hrest

def mergedNote (merged : Nat) : Note :=
  ⟨.info, "override callbacks merged", [("merged", toString merged), ("orphans", toString 0)]⟩

theorem yields_merge {path : Path} (h : List.Forall₂ (Mirrors chart) rs fs)
    (hnames : (rs.map Routine.name).Nodup) :
    (merge ⟨path, fs⟩).Yields rs [] [.note (mergedNote fs.length)] (overridden rs fs) := by
  have hall : (mergeAll fs).Yields rs [] [] (overridden rs fs) :=
    yields_mergeAll [] h hnames
  refine Work.yields_bind.2
    ⟨[], [], overridden rs fs, [.note (mergedNote fs.length)], hall, ?_, rfl⟩
  simp only [List.isEmpty_nil, Bool.not_true, Bool.false_eq_true, if_false]
  exact Work.yields_bind.2 ⟨(), _, _, [], Work.yields_note.2 ⟨rfl, rfl⟩,
    Work.yields_pure.2 ⟨rfl, rfl, rfl⟩, rfl⟩

end OverrideFile

namespace Module

variable {chart : Ident} {rs : List Routine} {fs : List Override}

theorem mapAll_overridden {β : Type} {g : Routine → Except Fault β}
    (h : List.Forall₂ (fun r f => g { r with override := some f.tree } = g r) rs fs) :
    mapAll g (OverrideFile.overridden rs fs) = mapAll g rs := by
  rw [OverrideFile.overridden]
  induction h with
  | nil => rfl
  | cons hr _ ih => rw [List.zipWith_cons_cons, mapAll, mapAll, hr, ih]

theorem callbackFns_overridden {callbacks : Callbacks}
    (hprint : ∀ r ∈ callbacks.routines, isPrintable r.name = true)
    (hgenerated : ∀ r ∈ callbacks.routines, r.override = none)
    (h : List.Forall₂ (Mirrors chart) callbacks.routines fs) :
    callbackFns { callbacks with routines := OverrideFile.overridden callbacks.routines fs } chart =
      callbackFns callbacks chart := by
  have hall : mapAll (Routine.tokens · chart) (OverrideFile.overridden callbacks.routines fs) =
      mapAll (Routine.tokens · chart) callbacks.routines := by
    apply mapAll_overridden
    have hnone := (List.forall₂_and_left _ _).2 ⟨hgenerated, h⟩
    refine ((List.forall₂_and_left _ _).2 ⟨hprint, hnone⟩).imp ?_
    intro r f hr
    obtain ⟨hname, hno, hf⟩ := hr
    have htokens : r.tokens chart = .ok f.tree.tokens := by
      rw [Routine.tokens, hno, hf.tokens]
      exact Routine.generated_eq_ok.2 ⟨hname, rfl⟩
    rw [htokens]
    rfl
  simp only [callbackFns, hall]

theorem wirings_routines (c : Chart) (callbacks : Callbacks) (rs : List Routine) :
    wirings c { callbacks with routines := rs } = wirings c callbacks := by
  have hstates : ∀ scope ss, addStates { callbacks with routines := rs } scope ss =
      addStates callbacks scope ss := by
    intro scope ss
    induction ss generalizing scope with
    | nil => rfl
    | cons s ss ih => simp only [addStates, addState, ih]
  have htransitions : ∀ scope ts, addTransitions c { callbacks with routines := rs } scope ts =
      addTransitions c callbacks scope ts := by
    intro scope ts
    induction ts generalizing scope with
    | nil => rfl
    | cons t ts ih => simp only [addTransitions, addTransition, ih]
  simp only [wirings, hstates, htransitions]

theorem declarations_overridden {c : Chart} {callbacks : Callbacks}
    (hchart : chartIdent c = .ok chart)
    (hprint : ∀ r ∈ callbacks.routines, isPrintable r.name = true)
    (hgenerated : ∀ r ∈ callbacks.routines, r.override = none)
    (h : List.Forall₂ (Mirrors chart) callbacks.routines fs) :
    declarations c { callbacks with routines := OverrideFile.overridden callbacks.routines fs } =
      declarations c callbacks := by
  have hok : rejecting (.ok chart : Except Error Ident) = .ok chart := rfl
  have hbind : ∀ k : Ident → Except Fault (List Token), (Except.ok chart >>= k) = k chart :=
    fun _ => rfl
  simp only [declarations, hchart, hok, hbind, buildStatechart, wirings_routines,
    callbackFns_overridden hprint hgenerated h]

def markedFns (c : Chart) (rs : List Routine) : Except Fault (List Token) := do
  let chart ← rejecting (chartIdent c)
  return (← mapAll (Routine.markedTokens · chart) rs).flatten

def callbacksHeading (name : String) : String :=
  s!"// Callbacks for statechart {name}. Edit the bodies and pass this file with -c."

theorem callbacksHeading_append (name text : String) :
    s!"// Callbacks for statechart {name}. " ++
        s!"Edit the bodies and pass this file with -c.\n\n{text}" =
      callbacksHeading name ++ "\n\n" ++ text := by
  have hdot : ". Edit the bodies and pass this file with -c." =
      ". " ++ "Edit the bodies and pass this file with -c." := by decide +kernel
  have hlines : "Edit the bodies and pass this file with -c.\n\n" =
      "Edit the bodies and pass this file with -c." ++ "\n\n" := by decide +kernel
  unfold callbacksHeading
  simp only [hdot, hlines, String.append_assoc, toString]

theorem callbacksSource_eq_ok {c : Chart} {callbacks : Callbacks} {o : Option String}
    (hgen : c.options.genCode = true) (hcallbacks : c.options.genCallbacks = true) :
    callbacksSource c callbacks = .ok o ↔ ∃ ts text, markedFns c callbacks.routines = .ok ts ∧
      laidOut ts = .ok text ∧ o = some (callbacksHeading c.name ++ "\n\n" ++ text) := by
  have hon : (!c.options.genCode || !c.options.genCallbacks) = false := by simp [hgen, hcallbacks]
  unfold callbacksSource
  simp only [hon, Bool.false_eq_true, if_false, markedFns, bind_eq_ok]
  constructor
  · intro h
    obtain ⟨chart, hchart, tss, htss, text, htext, ho⟩ := h
    exact ⟨tss.flatten, text, ⟨chart, hchart, tss, htss, rfl⟩, htext,
      (Except.ok.inj ho).symm.trans (congrArg some (callbacksHeading_append c.name text))⟩
  · intro h
    obtain ⟨ts, text, ⟨chart, hchart, tss, htss, hts⟩, htext, rfl⟩ := h
    obtain rfl : tss.flatten = ts := Except.ok.inj hts
    exact ⟨chart, hchart, tss, htss, text, htext,
      congrArg (Except.ok ∘ some) (callbacksHeading_append c.name text)⟩

theorem toList_callbacksHeading (name : String) :
    (callbacksHeading name).toList = '/' :: '/' :: ' ' :: ("Callbacks for statechart ".toList ++
      name.toList ++ ". Edit the bodies and pass this file with -c.".toList) := by
  have hhead : "// Callbacks for statechart ".toList =
      '/' :: '/' :: ' ' :: "Callbacks for statechart ".toList := by decide +kernel
  show ("// Callbacks for statechart " ++ name ++
    ". Edit the bodies and pass this file with -c.").toList = _
  rw [String.toList_append, String.toList_append, hhead]
  rfl

/-- With a name of one line the heading is a comment. -/
theorem isComment_callbacksHeading {name : String} (h : '\n' ∉ name.toList) :
    Target.Lexer.IsComment (callbacksHeading name).toList := by
  rw [toList_callbacksHeading]
  apply Target.Lexer.isComment_line
  have hfirst : '\n' ∉ "Callbacks for statechart ".toList := by decide +kernel
  have hlast : '\n' ∉ ". Edit the bodies and pass this file with -c.".toList := by decide +kernel
  simp only [List.mem_append, h, hfirst, hlast, or_self, not_false_eq_true]

theorem markedFns_eq_ok {c : Chart} {rs : List Routine} {ts : List Token} :
    markedFns c rs = .ok ts ↔ ∃ chart, chartIdent c = .ok chart ∧
      (∀ r ∈ rs, isPrintable r.name = true) ∧
      ts = (rs.map (Routine.toFn · chart)).flatMap MarkedFn.tokens := by
  simp only [markedFns, bind_eq_ok, rejecting_eq_ok, Routine.mapAll_markedTokens]
  constructor
  · intro h
    obtain ⟨chart, hchart, _, ⟨hprint, rfl⟩, hts⟩ := h
    refine ⟨chart, hchart, hprint, (Except.ok.inj hts).symm.trans ?_⟩
    rw [List.flatMap_map, List.flatMap_def]
  · intro h
    obtain ⟨chart, hchart, hprint, rfl⟩ := h
    refine ⟨chart, hchart, _, ⟨hprint, rfl⟩, ?_⟩
    rw [List.flatMap_map, List.flatMap_def]
    rfl

theorem laidOut_eq_ok {ts : List Token} {text : String} (h : laidOut ts = .ok text) :
    ∃ tree, Target.Fragment.fileOf? ts = some tree ∧ Target.layout? tree = some text := by
  unfold laidOut at h
  generalize Target.Fragment.fileOf? ts = file at h ⊢
  cases file with
  | none => cases h
  | some tree =>
    refine ⟨tree, rfl, ?_⟩
    dsimp only at h
    split at h
    · rename_i htext
      rw [htext, Except.ok.inj h]
    · cases h

theorem callbacksSource_overridden (c : Chart) (callbacks : Callbacks)
    (h : List.Forall₂ (Mirrors chart) callbacks.routines fs) :
    callbacksSource c
        { callbacks with routines := OverrideFile.overridden callbacks.routines fs } =
      callbacksSource c callbacks := by
  have hall : ∀ chart : Ident,
      mapAll (Routine.markedTokens · chart) (OverrideFile.overridden callbacks.routines fs) =
        mapAll (Routine.markedTokens · chart) callbacks.routines := by
    intro chart
    exact mapAll_overridden (h.imp fun _ _ _ => rfl)
  simp only [callbacksSource, hall]

/-- The callbacks file has a function for every routine, if its heading is a comment. -/
theorem callbacksFile_mirrors {c : Chart} {rs : List Routine} {ts : List Token} {text : String}
    (hts : markedFns c rs = .ok ts) (htext : laidOut ts = .ok text)
    (hlanguage : Target.Reproduced ts) (hnames : (rs.map Routine.name).Nodup)
    (hheading : Target.Lexer.IsComment (callbacksHeading c.name).toList) :
    ∃ chart fs, chartIdent c = .ok chart ∧ (∀ r ∈ rs, isPrintable r.name = true) ∧
      List.Forall₂ (Mirrors chart) rs fs ∧
      ∀ path, OverrideFile.parse path (callbacksHeading c.name ++ "\n\n" ++ text) =
        .ok ⟨path, fs⟩ := by
  obtain ⟨chart, hchart, hprint, rfl⟩ := markedFns_eq_ok.1 hts
  obtain ⟨tree, htree, hlayout⟩ := laidOut_eq_ok htext
  have hfs : ∀ f ∈ rs.map (Routine.toFn · chart), f.Named := by
    intro f hf
    obtain ⟨r, hr, rfl⟩ := List.mem_map.1 hf
    exact Routine.named_toFn (hprint r hr) (isIdentifier_chartIdent hchart)
  have hslash : (callbacksHeading c.name).toList.head? = some '/' := by
    rw [toList_callbacksHeading]
    rfl
  obtain ⟨items, hfile, hshows⟩ := hlanguage.shows hfs htree hlayout hheading hslash
  obtain ⟨fs, hmirrors, hparse⟩ := OverrideFile.parse_of_shows hfile hshows hnames
  exact ⟨chart, fs, hchart, hprint, hmirrors, hparse⟩

end Module

end Statechart
