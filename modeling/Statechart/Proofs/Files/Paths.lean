import Mathlib.Data.List.Infix
import Statechart.Proofs.Files.Names

/-!
The steps of a path, and where the callbacks file stands.

However a path is spelled, its steps are the pieces that are not idle. The callbacks file is reached
by the steps of the module but for the last one, and the last one is another.
-/
set_option autoImplicit false

namespace Statechart

namespace Text

variable {sep : Char} {cs : List Char}

theorem intercalate_splitChars (sep : Char) (cs : List Char) :
    List.intercalate [sep] (splitChars sep cs) = cs := by
  induction cs with
  | nil => simp [splitChars]
  | cons c cs ih =>
    obtain ⟨piece, pieces, hcs⟩ := List.exists_cons_of_ne_nil (splitChars_ne_nil sep cs)
    rw [hcs] at ih
    by_cases hc : c = sep
    · rw [splitChars, if_pos hc, hcs, List.intercalate_cons_cons, ih, hc]
      rfl
    · rw [splitChars_cons hc hcs]
      cases pieces with
      | nil => simpa using ih
      | cons next pieces =>
        simp only [List.intercalate_cons_cons, List.append_assoc, List.cons_append] at ih ⊢
        rw [ih]

theorem not_mem_of_mem_splitChars {piece : List Char} (h : piece ∈ splitChars sep cs) :
    sep ∉ piece := by
  induction cs generalizing piece with
  | nil =>
    obtain rfl : piece = [] := by simpa [splitChars] using h
    simp
  | cons c cs ih =>
    obtain ⟨first, pieces, hcs⟩ := List.exists_cons_of_ne_nil (splitChars_ne_nil sep cs)
    rw [hcs] at ih
    by_cases hc : c = sep
    · rw [splitChars, if_pos hc, hcs, List.mem_cons] at h
      obtain rfl | h := h
      · simp
      · exact ih h
    · rw [splitChars_cons hc hcs, List.mem_cons] at h
      obtain rfl | h := h
      · have hfirst : sep ∉ first := ih List.mem_cons_self
        simp [hfirst, Ne.symm hc]
      · exact ih (List.mem_cons_of_mem _ h)

theorem splitChars_intercalate {ps : List (List Char)} (hne : ps ≠ []) (h : ∀ p ∈ ps, sep ∉ p) :
    splitChars sep (List.intercalate [sep] ps) = ps := by
  induction ps with
  | nil => exact absurd rfl hne
  | cons p ps ih =>
    obtain ⟨hp, hps⟩ := List.forall_mem_cons.1 h
    cases ps with
    | nil => simpa using splitChars_of_not_mem hp
    | cons q ps =>
      rw [List.intercalate_cons_cons, List.append_assoc, List.singleton_append, splitChars_append,
        splitChars_of_not_mem hp, ih (by simp) hps, List.singleton_append]

theorem splitChars_append_of_not_mem {ys : List Char} (h : sep ∉ ys) (xs : List Char) :
    ∃ pre piece, splitChars sep xs = pre ++ [piece] ∧
      splitChars sep (xs ++ ys) = pre ++ [piece ++ ys] := by
  induction xs with
  | nil => exact ⟨[], [], rfl, splitChars_of_not_mem h⟩
  | cons c xs ih =>
    obtain ⟨pre, piece, hxs, hys⟩ := ih
    by_cases hc : c = sep
    · exact ⟨[] :: pre, piece, by simp [splitChars, hc, hxs], by simp [splitChars, hc, hys]⟩
    · cases pre with
      | nil => exact ⟨[], c :: piece, splitChars_cons hc hxs, splitChars_cons hc hys⟩
      | cons first pre =>
        exact ⟨(c :: first) :: pre, piece, splitChars_cons hc hxs, splitChars_cons hc hys⟩

theorem intercalate_mono {ps qs : List (List Char)} (h : ps <+: qs) :
    List.intercalate [sep] ps <+: List.intercalate [sep] qs := by
  obtain ⟨rest, rfl⟩ := h
  induction ps with
  | nil => simp
  | cons p ps ih =>
    cases ps with
    | nil =>
      cases rest with
      | nil => simp
      | cons r rest =>
        rw [List.singleton_append, List.intercalate_cons_cons, List.append_assoc]
        simp
    | cons q ps =>
      rw [List.cons_append, List.cons_append, List.intercalate_cons_cons,
        List.intercalate_cons_cons]
      exact (List.prefix_append_right_inj _).2 ih

end Text

namespace Path

variable {p q : Path} {f : List Char} {pre : List (List Char)}

def proper (pieces : List (List Char)) : List (List Char) :=
  pieces.filter (!isIdle ·)

def steps (p : Path) : List (List Char) :=
  proper (Text.splitChars '/' p.text.toList)

@[simp] theorem proper_nil : proper [] = [] := rfl

@[simp] theorem proper_append (as bs : List (List Char)) :
    proper (as ++ bs) = proper as ++ proper bs :=
  List.filter_append ..

theorem proper_cons_idle {piece : List Char} (h : isIdle piece = true)
    (pieces : List (List Char)) : proper (piece :: pieces) = proper pieces := by
  simp [proper, h]

theorem proper_cons {piece : List Char} (h : isIdle piece = false) (pieces : List (List Char)) :
    proper (piece :: pieces) = piece :: proper pieces := by
  simp [proper, h]

theorem proper_dropWhile (pieces : List (List Char)) :
    proper (pieces.dropWhile isIdle) = proper pieces := by
  induction pieces with
  | nil => rfl
  | cons piece pieces ih =>
    by_cases h : isIdle piece = true
    · rw [List.dropWhile_cons_of_pos h, ih, proper_cons_idle h]
    · rw [List.dropWhile_cons_of_neg h]

theorem proper_reverse (pieces : List (List Char)) :
    proper pieces.reverse = (proper pieces).reverse :=
  List.filter_reverse ..

theorem proper_splitChars_intercalate {ps : List (List Char)} (h : ∀ piece ∈ ps, '/' ∉ piece) :
    proper (Text.splitChars '/' (List.intercalate ['/'] ps)) = proper ps := by
  by_cases hps : ps = []
  · subst hps
    rfl
  · rw [Text.splitChars_intercalate hps h]

theorem isAbsolute_eq_true : p.isAbsolute = true ↔ ∃ cs, p.text.toList = '/' :: cs := by
  simp only [isAbsolute, decide_eq_true_eq, List.head?_eq_some_iff]

/-- What may follow a dot that is the head of a path. -/
def EndsDot (cs : List Char) : Prop :=
  cs = [] ∨ ∃ rest, cs = '/' :: rest

theorem EndsDot.shorten {cs ds : List Char} (h : EndsDot ds) (hp : cs <+: ds) : EndsDot cs := by
  obtain ⟨rest, rfl⟩ := hp
  cases cs with
  | nil => exact .inl rfl
  | cons c cs =>
    obtain h | ⟨_, h⟩ := h
    · cases h
    · exact .inr ⟨cs, by rw [(List.cons.inj h).1]⟩

theorem startsHere_eq_true :
    p.startsHere = true ↔ ∃ cs, p.text.toList = '.' :: cs ∧ EndsDot cs := by
  unfold startsHere EndsDot
  split
  · simp_all
  · simp_all
  · rename_i hdot hslash
    simp only [Bool.false_eq_true, false_iff, not_exists, not_and, not_or]
    intro cs hcs
    refine ⟨?_, ?_⟩
    · intro h
      exact hdot (by rw [hcs, h])
    · intro rest h
      exact hslash rest (by rw [hcs, h])

/-- A path is absolute, begins with a dot of its own, or begins with a name. -/
theorem kinds (p : Path) :
    (p.isAbsolute = true ∧ p.head = ['/'] ∧ ∃ cs, p.text.toList = '/' :: cs) ∨
      (p.isAbsolute = false ∧ p.head = ['.'] ∧ ∃ cs, p.text.toList = '.' :: cs ∧ EndsDot cs) ∨
      (p.isAbsolute = false ∧ p.head = []) := by
  by_cases habs : p.isAbsolute = true
  · obtain ⟨cs, hcs⟩ := isAbsolute_eq_true.1 habs
    exact .inl ⟨habs, by simp [head, habs, hcs], cs, hcs⟩
  · have hrel : p.isAbsolute = false := by simpa using habs
    by_cases hhere : p.startsHere = true
    · obtain ⟨cs, hcs, hdot⟩ := startsHere_eq_true.1 hhere
      exact .inr (.inl ⟨hrel, by simp [head, hhere, hcs], cs, hcs, hdot⟩)
    · exact .inr (.inr ⟨hrel, by simp [head, hrel, hhere]⟩)

theorem exists_head_append (p : Path) :
    ∃ cs, p.text.toList = p.head ++ cs ∧ p.pieces = Text.splitChars '/' cs ∧
      (p.head = ['.'] → EndsDot cs) := by
  obtain ⟨-, hhead, cs, hcs⟩ | ⟨-, hhead, cs, hcs, hdot⟩ | ⟨-, hhead⟩ := p.kinds
  · exact ⟨cs, by simp [hhead, hcs], by simp [pieces, hhead, hcs], by simp [hhead]⟩
  · exact ⟨cs, by simp [hhead, hcs], by simp [pieces, hhead, hcs], fun _ => hdot⟩
  · exact ⟨p.text.toList, by simp [hhead], by simp [pieces, hhead], by simp [hhead]⟩

theorem proper_splitChars_head {cs : List Char} (p : Path) (h : p.head = ['.'] → EndsDot cs) :
    proper (Text.splitChars '/' (p.head ++ cs)) = proper (Text.splitChars '/' cs) := by
  obtain ⟨-, hhead, -⟩ | ⟨-, hhead, -⟩ | ⟨-, hhead⟩ := p.kinds
  · rw [hhead]
    exact proper_cons_idle rfl _
  · rw [hhead]
    obtain rfl | ⟨rest, rfl⟩ := h hhead
    · rfl
    · rw [Text.splitChars_append]
      exact (proper_cons_idle rfl _).trans (proper_cons_idle rfl _).symm
  · rw [hhead, List.nil_append]

theorem proper_pieces (p : Path) : proper p.pieces = p.steps := by
  obtain ⟨cs, htext, hpieces, hdot⟩ := p.exists_head_append
  rw [steps, htext, hpieces, proper_splitChars_head p hdot]

theorem fileName?_eq (p : Path) :
    p.fileName? = p.steps.getLast?.bind fun piece =>
      if piece = ['.', '.'] then none else some (String.ofList piece) := by
  have hfilter : p.pieces.filter (!isIdle ·) = p.steps := p.proper_pieces
  unfold fileName? components
  rw [hfilter]
  obtain hsteps | ⟨pre, f, hsteps⟩ := p.steps.eq_nil_or_concat
  · rw [hsteps]
    by_cases habs : p.isAbsolute = true
    · simp [habs]
    · by_cases hhere : p.startsHere = true
      · simp [habs, hhere]
      · simp [habs, hhere]
  · rw [hsteps]
    by_cases hup : f = ['.', '.']
    · simp [hup]
    · simp [hup]

theorem fileName?_of_steps (h : p.steps = pre ++ [f]) (hup : f ≠ ['.', '.']) :
    p.fileName? = some (String.ofList f) := by
  simp [fileName?_eq, h, hup]

theorem steps_join (hq : q.isAbsolute = false) : (p.join q).steps = p.steps ++ q.steps := by
  unfold join
  rw [hq, Bool.false_or]
  split
  · rename_i hempty
    have hnil : p.text.toList = [] := by simpa using hempty
    simp [steps, hnil, Text.splitChars, proper, isIdle]
  · split
    · rename_i hlast
      obtain ⟨cs, hcs⟩ := List.getLast?_eq_some_iff.1 hlast
      simp only [steps, String.toList_append, hcs, List.append_assoc, List.singleton_append,
        Text.splitChars_append, proper_append]
      simp [Text.splitChars, proper, isIdle]
    · have hslash : "/".toList = ['/'] := rfl
      simp only [steps, String.toList_append, hslash, List.append_assoc, List.singleton_append,
        Text.splitChars_append, proper_append]

theorem isAbsolute_join (hq : q.isAbsolute = false) : (p.join q).isAbsolute = p.isAbsolute := by
  unfold join
  rw [hq, Bool.false_or]
  split
  · rename_i hempty
    have hnil : p.text.toList = [] := by simpa using hempty
    rw [hq]
    simp [isAbsolute, hnil]
  · rename_i hempty
    have hne : p.text.toList ≠ [] := by simpa using hempty
    obtain ⟨c, cs, hcs⟩ := List.exists_cons_of_ne_nil hne
    split
    · simp [isAbsolute, hcs]
    · simp [isAbsolute, hcs]

theorem steps_ofReversed {rest : List (List Char)} (h : rest.reverse <+: p.pieces) :
    (ofReversed p.head rest).steps = proper rest.reverse ∧
      (ofReversed p.head rest).isAbsolute = p.isAbsolute := by
  obtain ⟨cs, htext, hpieces, hdot⟩ := p.exists_head_append
  have hpre : List.intercalate ['/'] rest.reverse <+: cs := by
    rw [← Text.intercalate_splitChars '/' cs, ← hpieces]
    exact Text.intercalate_mono h
  have hslash : ∀ piece ∈ rest.reverse, '/' ∉ piece := by
    intro piece hpiece
    have hmem : piece ∈ Text.splitChars '/' cs := hpieces ▸ h.subset hpiece
    exact Text.not_mem_of_mem_splitChars hmem
  have htoList : (ofReversed p.head rest).text.toList =
      p.head ++ List.intercalate ['/'] rest.reverse := by
    simp [ofReversed]
  refine ⟨?_, ?_⟩
  · rw [steps, htoList, proper_splitChars_head p fun hhead => (hdot hhead).shorten hpre,
      proper_splitChars_intercalate hslash]
  · obtain ⟨habs, hhead, -⟩ | ⟨habs, hhead, -⟩ | ⟨habs, hhead⟩ := p.kinds
    · rw [habs, isAbsolute, htoList, hhead]
      rfl
    · rw [habs, isAbsolute, htoList, hhead]
      rfl
    · -- a path without a head begins as what is left of it
      rw [isAbsolute, htoList, hhead, List.nil_append, habs]
      rw [isAbsolute, htext, hhead, List.nil_append] at habs
      obtain ⟨tail, rfl⟩ := hpre
      generalize List.intercalate ['/'] rest.reverse = front at habs ⊢
      cases front with
      | nil => rfl
      | cons c front => simpa using habs

theorem steps_parent (h : p.steps = pre ++ [f]) :
    p.parent.steps = pre ∧ p.parent.isAbsolute = p.isAbsolute := by
  have hproper : proper (p.pieces.reverse.dropWhile isIdle) = f :: pre.reverse := by
    rw [proper_dropWhile, proper_reverse, proper_pieces, h, List.reverse_append]
    rfl
  have hsuffix : p.pieces.reverse.dropWhile isIdle <:+ p.pieces.reverse :=
    List.dropWhile_suffix _
  unfold parent parent?
  cases hdrop : p.pieces.reverse.dropWhile isIdle with
  | nil =>
    rw [hdrop] at hproper
    cases hproper
  | cons last rest =>
    have hlast : isIdle last = false := by
      have := List.head?_dropWhile_not isIdle p.pieces.reverse
      rw [hdrop] at this
      simpa using this
    rw [hdrop, proper_cons hlast, List.cons.injEq] at hproper
    have hrest : (rest.dropWhile isIdle).reverse <+: p.pieces := by
      rw [← List.reverse_suffix, List.reverse_reverse]
      exact ((List.dropWhile_suffix _).trans (List.suffix_cons last rest)).trans
        (hdrop ▸ hsuffix)
    obtain ⟨hsteps, habs⟩ := steps_ofReversed hrest
    refine ⟨?_, habs⟩
    dsimp only [Option.getD_some]
    rw [hsteps, proper_reverse, proper_dropWhile, hproper.2, List.reverse_reverse]

theorem steps_of_name {file : String} (hslash : '/' ∉ file.toList)
    (hidle : isIdle file.toList = false) :
    (⟨file⟩ : Path).steps = [file.toList] ∧ (⟨file⟩ : Path).isAbsolute = false := by
  refine ⟨?_, ?_⟩
  · rw [steps, Text.splitChars_of_not_mem hslash, proper_cons hidle, proper_nil]
  · have hhead : file.toList.head? ≠ some '/' := fun h => hslash (List.mem_of_head? h)
    simp [isAbsolute, hhead]

theorem steps_withFileName {file : String} (h : p.steps = pre ++ [f]) (hup : f ≠ ['.', '.'])
    (hslash : '/' ∉ file.toList) (hidle : isIdle file.toList = false) :
    (p.withFileName file).steps = pre ++ [file.toList] ∧
      (p.withFileName file).isAbsolute = p.isAbsolute := by
  obtain ⟨hparent, habs⟩ := steps_parent h
  obtain ⟨hfile, hrel⟩ := steps_of_name hslash hidle
  unfold withFileName
  rw [fileName?_of_steps h hup]
  dsimp only
  exact ⟨by rw [steps_join hrel, hparent, hfile], by rw [isAbsolute_join hrel, habs]⟩

theorem slash_not_mem_of_steps (h : f ∈ p.steps) : '/' ∉ f :=
  Text.not_mem_of_mem_splitChars (List.mem_filter.1 h).1

theorem exists_steps_of_fileName? {file : String} (h : p.fileName? = some file) :
    ∃ pre f, p.steps = pre ++ [f] ∧ f ≠ ['.', '.'] ∧ file = String.ofList f := by
  rw [fileName?_eq, Option.bind_eq_some_iff] at h
  obtain ⟨f, hlast, hf⟩ := h
  obtain ⟨pre, hsteps⟩ := List.getLast?_eq_some_iff.1 hlast
  by_cases hup : f = ['.', '.']
  · simp [hup] at hf
  · rw [if_neg hup] at hf
    exact ⟨pre, f, hsteps, hup, (Option.some.inj hf).symm⟩

theorem stem?_begins {file stem : String} (hfile : p.fileName? = some file)
    (h : p.stem? = some stem) : stem.toList <+: file.toList := by
  rw [stem?, hfile, Option.map_some, Option.some.injEq] at h
  subst h
  split
  · rename_i last rest hsplit
    dsimp only
    split
    · exact List.prefix_rfl
    · have hpieces : rest.reverse <+: Text.splitChars '.' file.toList := by
        refine ⟨[last], ?_⟩
        rw [← List.reverse_cons, ← hsplit, List.reverse_reverse]
      simpa [Text.intercalate_splitChars] using @Text.intercalate_mono '.' _ _ hpieces
  · exact List.prefix_rfl

/-- No stem with the ending of callbacks files is the name it is the stem of. -/
theorem stem?_ending {file stem : String} (hfile : p.fileName? = some file)
    (h : p.stem? = some stem) : stem ++ "_cb.rs" ≠ file := by
  intro he
  have hchars : file.toList = (stem.toList ++ "_cb".toList) ++ '.' :: "rs".toList := by
    rw [← he, String.toList_append, List.append_assoc]
    rfl
  have hsplit : (Text.splitChars '.' file.toList).reverse =
      "rs".toList :: (Text.splitChars '.' (stem.toList ++ "_cb".toList)).reverse := by
    rw [hchars, Text.splitChars_append, List.reverse_append]
    rfl
  rw [stem?, hfile, Option.map_some, Option.some.injEq] at h
  simp only [hsplit, List.reverse_reverse, Text.intercalate_splitChars] at h
  rw [if_neg (by simp)] at h
  have hlength := congrArg (·.toList.length) h
  simp at hlength

theorem ending_leads (cs : List Char) :
    isIdle (cs ++ "_cb.rs".toList) = false ∧ cs ++ "_cb.rs".toList ≠ ['.', '.'] := by
  have hlength : 6 ≤ (cs ++ "_cb.rs".toList).length := by simp
  generalize cs ++ "_cb.rs".toList = ds at hlength
  refine ⟨?_, ?_⟩
  · simp only [isIdle, Bool.or_eq_false_iff, decide_eq_false_iff_not]
    refine ⟨?_, ?_⟩
    · intro h
      simp [h] at hlength
    · intro h
      simp [h] at hlength
  · intro h
    simp [h] at hlength

end Path

open Path

variable {p : Path} {f : List Char} {pre : List (List Char)}

/-- The callbacks file stands where the module stands, under another name. -/
theorem callbacksPath_steps (h : p.steps = pre ++ [f]) (hup : f ≠ ['.', '.']) (chart : String) :
    ∃ g, (callbacksPath p chart).steps = pre ++ [g] ∧ g ≠ f ∧ g ≠ ['.', '.'] ∧
      (callbacksPath p chart).isAbsolute = p.isAbsolute := by
  have hfile := fileName?_of_steps h hup
  have hmem : f ∈ p.steps := by simp [h]
  have hslash := slash_not_mem_of_steps hmem
  obtain ⟨stem, hstem⟩ : ∃ stem, p.stem? = some stem := by simp [stem?, hfile]
  have hbegins : stem.toList <+: f := by simpa using stem?_begins hfile hstem
  have hname : (stem ++ "_cb.rs").toList = stem.toList ++ "_cb.rs".toList := by simp
  obtain ⟨hidle, hnot⟩ := ending_leads stem.toList
  rw [← hname] at hidle hnot
  have hno : '/' ∉ (stem ++ "_cb.rs").toList := by
    rw [hname, List.mem_append, not_or]
    exact ⟨fun hstem => hslash (hbegins.subset hstem), by decide⟩
  obtain ⟨hsteps, habs⟩ := steps_withFileName h hup hno hidle
  refine ⟨(stem ++ "_cb.rs").toList, ?_, ?_, hnot, ?_⟩
  · rw [callbacksPath, hstem, Option.getD_some, hsteps]
  · intro he
    exact stem?_ending hfile hstem (by rw [← he, String.ofList_toList])
  · rw [callbacksPath, hstem, Option.getD_some, habs]

theorem exists_fileName?_callbacksPath (p : Path) (chart : String) :
    ∃ file, (callbacksPath p chart).fileName? = some file ∧ p.fileName? ≠ some file := by
  cases hfile : p.fileName? with
  | some file =>
    obtain ⟨pre, f, hsteps, hup, rfl⟩ := exists_steps_of_fileName? hfile
    obtain ⟨g, hg, hne, hnot, -⟩ := callbacksPath_steps hsteps hup chart
    refine ⟨_, fileName?_of_steps hg hnot, ?_⟩
    intro he
    have hchars := congrArg String.toList (Option.some.inj he)
    exact hne (by simpa using hchars.symm)
  | none =>
    obtain ⟨before, piece, -, hsplit⟩ := @Text.splitChars_append_of_not_mem '/'
      "_cb.rs".toList (by decide) chart.toList
    obtain ⟨hidle, hnot⟩ := ending_leads piece
    have hsteps : (⟨chart ++ "_cb.rs"⟩ : Path).steps =
        proper before ++ [piece ++ "_cb.rs".toList] := by
      rw [steps, String.toList_append, hsplit, proper_append, proper_cons hidle, proper_nil]
    have hcallbacks : callbacksPath p chart = p.join ⟨chart ++ "_cb.rs"⟩ := by
      simp [callbacksPath, stem?, withFileName, hfile]
    refine ⟨String.ofList (piece ++ "_cb.rs".toList), ?_, by simp⟩
    rw [hcallbacks]
    by_cases habs : (⟨chart ++ "_cb.rs"⟩ : Path).isAbsolute = true
    · rw [join, habs, Bool.true_or, if_pos rfl]
      exact fileName?_of_steps hsteps hnot
    · rw [Bool.not_eq_true] at habs
      have hjoin : (p.join ⟨chart ++ "_cb.rs"⟩).steps =
          (p.steps ++ proper before) ++ [piece ++ "_cb.rs".toList] := by
        rw [steps_join habs, hsteps, List.append_assoc]
      exact fileName?_of_steps hjoin hnot

theorem same_callbacksPath (p : Path) (chart : String) : (callbacksPath p chart).same p = false := by
  obtain ⟨file, hfile, hne⟩ := exists_fileName?_callbacksPath p chart
  rw [same, beq_eq_false_iff_ne]
  intro h
  have hsame : (callbacksPath p chart).fileName? = p.fileName? := by
    rw [fileName?, fileName?, h]
  exact hne (hsame ▸ hfile)

end Statechart
