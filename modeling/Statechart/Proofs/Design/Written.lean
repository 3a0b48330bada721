import Mathlib.Data.List.Forall2
import Statechart.Design.File
import Statechart.Proofs.Lists
import Statechart.Proofs.Text

/-!
Sections that are written down and read again.

`Written` says which lines spell sections, `Padded` puts lines between them that say nothing.
Whatever the padding and the indentation, reading gives back the sections.
-/
set_option autoImplicit false

namespace Statechart.Design

structure Plain (s : String) : Prop where
  trimmed : Text.trim s = s
  feed : '\n' ∉ s.toList

structure IsKey (key : String) : Prop extends Plain key where
  nonempty : key ≠ ""
  lower : Text.lower key = key
  colon : ':' ∉ key.toList
  equals : '=' ∉ key.toList
  bracket : key.toList.head? ≠ some '['
  hash : key.toList.head? ≠ some '#'
  semicolon : key.toList.head? ≠ some ';'

structure IsIndent (indent : String) : Prop where
  nonempty : indent ≠ ""
  blank : ∀ c ∈ indent.toList, Text.isBlank c = true
  feed : '\n' ∉ indent.toList

inductive Indented : String → String → Prop where
  | mk {text indent : String} (plain : Plain text) (nonempty : text ≠ "")
      (indented : IsIndent indent) : Indented text (indent ++ text)

/-- An entry: the first line of its value stands behind the key. -/
inductive Item.Written : Item → List String → Prop where
  | mk {key first : String} {rest lines : List String} (isKey : IsKey key) (plain : Plain first)
      (further : List.Forall₂ Indented rest lines) :
      Item.Written ⟨key, Text.unlines (first :: rest)⟩ ((key ++ " = " ++ first) :: lines)

inductive Section.Written : Section → List String → Prop where
  | mk {name : String} {items : List Item} {lines : List (List String)} (plain : Plain name)
      (distinct : (items.map Item.key).Nodup) (written : List.Forall₂ Item.Written items lines) :
      Section.Written ⟨name, items⟩ (("[" ++ name ++ "]") :: lines.flatten)

inductive Written : List Section → List String → Prop where
  | mk {sections : List Section} {lines : List (List String)}
      (distinct : (sections.map Section.name).Nodup)
      (written : List.Forall₂ Section.Written sections lines) : Written sections lines.flatten

/-- A line that says nothing: it is blank, or a comment from its first column on. -/
structure Silent (line : String) : Prop where
  feed : '\n' ∉ line.toList
  silent : (∀ c ∈ line.toList, Text.isBlank c = true) ∨ line.toList.head? = some '#' ∨
    line.toList.head? = some ';'

inductive Padded : List String → List String → Prop where
  | nil : Padded [] []
  | line {l : String} {ls ms : List String} : Padded ls ms → Padded (l :: ls) (l :: ms)
  | silent {l : String} {ls ms : List String} :
      Silent l → Padded ls ms → Padded ls (l :: ms)

structure Visible (line : String) : Prop where
  feed : '\n' ∉ line.toList
  ending : line.toList.getLast? ≠ some '\r'
  nonempty : line ≠ ""

theorem Plain.trimChars {s : String} (h : Plain s) : Text.trimChars s.toList = s.toList := by
  rw [← Text.toList_trim, h.trimmed]

theorem Plain.getLast? {s : String} (h : Plain s) : s.toList.getLast? ≠ some '\r' := by
  have hlast := (Text.trimChars_eq_self_iff.1 h.trimChars).2
  intro hreturn
  have hblank := hlast _ hreturn
  revert hblank
  decide

theorem Plain.head? {s : String} (h : Plain s) (hne : s ≠ "") :
    ∃ c, s.toList.head? = some c ∧ Text.isBlank c = false := by
  have hhead := (Text.trimChars_eq_self_iff.1 h.trimChars).1
  cases hs : s.toList with
  | nil => exact absurd (String.toList_eq_nil_iff.1 hs) hne
  | cons c cs => exact ⟨c, rfl, hhead c (by rw [hs]; rfl)⟩

theorem Silent.dropReturn {l : String} (h : Silent l) :
    Silent (String.ofList (Text.dropReturn l.toList)) := by
  have hsub : ∀ c ∈ Text.dropReturn l.toList, c ∈ l.toList := fun _ => Text.mem_of_mem_dropReturn
  obtain hsame | hdropped := Text.dropReturn_cases l.toList
  · rwa [hsame, String.ofList_toList]
  · generalize Text.dropReturn l.toList = cs at hdropped hsub
    have hhead : ∀ c, c ≠ '\r' → l.toList.head? = some c → cs.head? = some c := by
      intro c hc hl
      rw [hdropped] at hl
      cases cs with
      | nil =>
        simp only [List.nil_append, List.head?_cons, Option.some.injEq] at hl
        exact absurd hl.symm hc
      | cons d cs => simpa using hl
    constructor
    · rw [String.toList_ofList]
      exact fun hfeed => h.feed (hsub _ hfeed)
    · rw [String.toList_ofList]
      obtain hblank | hhash | hsemicolon := h.silent
      · exact .inl fun c hc => hblank c (hsub c hc)
      · exact .inr (.inl (hhead _ (by decide) hhash))
      · exact .inr (.inr (hhead _ (by decide) hsemicolon))

theorem Padded.lines {ls ms : List String} (h : Padded ls ms) (hls : ∀ l ∈ ls, Visible l) :
    Padded ls (Text.lines (Text.unlines ms)) := by
  induction h with
  | nil => exact .nil
  | @line l ls ms hpadded ih =>
    obtain ⟨hl, hls⟩ := List.forall_mem_cons.1 hls
    have hrest := ih hls
    cases ms with
    | nil =>
      cases hpadded
      rw [Text.lines_unlines_singleton hl.feed, if_neg hl.nonempty]
      exact .line .nil
    | cons m ms =>
      rw [Text.lines_unlines_cons hl.feed, Text.dropReturn_of_getLast? hl.ending,
        String.ofList_toList]
      exact .line hrest
  | @silent l ls ms hl hpadded ih =>
    have hrest := ih hls
    cases ms with
    | nil =>
      cases hpadded
      rw [Text.lines_unlines_singleton hl.feed]
      split
      · exact .nil
      · exact .silent hl .nil
    | cons m ms =>
      rw [Text.lines_unlines_cons hl.feed]
      exact .silent hl.dropReturn hrest

namespace Progress

inductive Reads : Progress → List String → Progress → Prop where
  | nil {r : Progress} : Reads r [] r
  | cons {r r' r'' : Progress} {l : String} {ls : List String} :
      r.line l = .ok r' → Reads r' ls r'' → Reads r (l :: ls) r''

namespace Reads

variable {r r' r'' : Progress} {ls ms : List String}

theorem lines (h : Reads r ls r') (label : String) (n : Nat) :
    Progress.lines label n r ls = .ok r' := by
  induction h generalizing n with
  | nil => rfl
  | cons hl _ ih =>
    rw [Progress.lines, hl]
    exact ih (n + 1)

theorem append (h : Reads r ls r') (h' : Reads r' ms r'') : Reads r (ls ++ ms) r'' := by
  induction h with
  | nil => exact h'
  | cons hl _ ih => exact .cons hl (ih h')

end Reads

theorem isComment_eq (s : String) :
    isComment s = decide (s.toList.head? = some '#' ∨ s.toList.head? = some ';') := by
  have hhash : "#".toList = ['#'] := by decide
  have hsemicolon : ";".toList = [';'] := by decide
  rw [isComment, Text.startsWith_char hhash, Text.startsWith_char hsemicolon, Bool.decide_or]

theorem isComment_of_isIndented {s : String} (h : isIndented s = true) : isComment s = false := by
  obtain ⟨c, hc, hblank⟩ := (Option.any_eq_true _ _).1 h
  have hhash : c ≠ '#' := by
    rintro rfl
    revert hblank
    decide
  have hsemicolon : c ≠ ';' := by
    rintro rfl
    revert hblank
    decide
  rw [isComment_eq, hc]
  simp [hhash, hsemicolon]

theorem line_silent {r : Progress} {l : String} (h : Silent l) : r.line l = .ok r := by
  have hsilent : (Text.isBlankText l || isComment l) = true := by
    rw [isComment_eq, Text.isBlankText, Bool.or_eq_true, List.all_eq_true, decide_eq_true_eq]
    exact h.silent
  rw [line, hsilent]
  rfl

theorem Reads.padded {r r' : Progress} {ls ms : List String} (h : Reads r ls r')
    (hpadded : Padded ls ms) : Reads r ms r' := by
  induction hpadded generalizing r with
  | nil => exact h
  | line _ ih =>
    cases h with
    | cons hl hls => exact .cons hl (ih hls)
  | silent hl _ ih => exact .cons (line_silent hl) (ih h)

def inside (before : List Section) (name : String) (items : List Item) : Progress :=
  ⟨before ++ [⟨name, items⟩], some name⟩

section

variable {before : List Section} {name : String} {items : List Item}

theorem update_inside (hnew : name ∉ before.map Section.name) (f : Section → Section) :
    (inside before name items).update name f = ⟨before ++ [f ⟨name, items⟩], some name⟩ := by
  have hbefore : before.map (fun s => if s.name = name then f s else s) = before := by
    conv_rhs => rw [← List.map_id before]
    apply List.map_congr_left
    intro s hs
    have hne : s.name ≠ name := fun h => hnew (List.mem_map.2 ⟨s, hs, h⟩)
    simp [hne]
  simp [update, inside, hbefore]

theorem section?_inside (hnew : name ∉ before.map Section.name) :
    (inside before name items).section? name = some ⟨name, items⟩ := by
  have hbefore : before.find? (·.name == name) = none := by
    rw [List.find?_eq_none]
    intro s hs heq
    exact hnew (List.mem_map.2 ⟨s, hs, by simpa using heq⟩)
  simp [section?, inside, List.find?_append, hbefore]

end

/-- A line that begins with a visible character is a header or an entry, unless it is a comment. -/
theorem line_of_head {r : Progress} {l : String} {c : Char} (hc : l.toList.head? = some c)
    (hblank : Text.isBlank c = false) (hhash : c ≠ '#') (hsemicolon : c ≠ ';') :
    r.line l = r.take (Line.ofText (Text.trim l)) := by
  have hvisible : Text.isBlankText l = false := by
    obtain ⟨cs, hl⟩ := List.head?_eq_some_iff.1 hc
    simp [Text.isBlankText, hl, hblank]
  have hcomment : isComment l = false := by
    rw [isComment_eq, hc]
    simp [hhash, hsemicolon]
  have hindented : isIndented l = false := by simp [isIndented, hc, hblank]
  simp only [line, hvisible, hcomment, hindented, Bool.or_self, Bool.false_eq_true, if_false]

theorem line_enter {name : String} (r : Progress) (hname : Plain name) :
    r.line ("[" ++ name ++ "]") = .ok (r.enter name) := by
  have hchars : ("[" ++ name ++ "]").toList = '[' :: (name.toList ++ [']']) := by simp
  have htext : Line.ofText ("[" ++ name ++ "]") = .header name := by
    rw [Line.ofText, String.append_assoc, Text.dropHead?_append]
    simp only [Line.ofHeader, Text.dropTail?_append, hname.trimmed]
  have hhead : ("[" ++ name ++ "]").toList.head? = some '[' := by
    rw [hchars]
    rfl
  rw [line_of_head hhead (by decide) (by decide) (by decide), Text.trim_brackets, htext, take]

theorem line_header {r : Progress} {name : String} (hname : Plain name)
    (hnew : name ∉ r.sections.map Section.name) :
    r.line ("[" ++ name ++ "]") = .ok (inside r.sections name []) := by
  have hfresh : r.section? name = none := by
    rw [section?, List.find?_eq_none]
    intro s hs heq
    exact hnew (List.mem_map.2 ⟨s, hs, by simpa using heq⟩)
  rw [line_enter r hname]
  simp [enter, hfresh, inside]

end Progress

theorem isBlank_space : ∀ c ∈ [' '], Text.isBlank c = true :=
  List.all_eq_true.1 (by decide)

theorem trimChars_entry {ks fs : List Char} (hks : Text.trimChars ks = ks) (hne : ks ≠ [])
    (hfs : Text.trimChars fs = fs) :
    ∃ tail, Text.trimChars (ks ++ ' ' :: '=' :: ' ' :: fs) = (ks ++ [' ']) ++ '=' :: tail ∧
      Text.trimChars tail = fs := by
  have hhead := (Text.trimChars_eq_self_iff.1 hks).1
  have hstart : ∀ rest, ∀ c ∈ (ks ++ rest).head?, Text.isBlank c = false := by
    intro rest c hc
    cases ks with
    | nil => exact absurd rfl hne
    | cons k ks => exact hhead c (by simpa using hc)
  cases fs with
  | nil =>
    have hkey : Text.trimChars (ks ++ [' ', '=']) = ks ++ [' ', '='] := by
      rw [Text.trimChars_eq_self_iff]
      refine ⟨hstart _, ?_⟩
      intro c hc
      obtain rfl : '=' = c := by simpa using hc
      decide
    have hpad := Text.trimChars_pad (l := []) (r := [' ']) hkey (by simp) isBlank_space
    exact ⟨[], by simpa using hpad, rfl⟩
  | cons f fs =>
    have hlast := (Text.trimChars_eq_self_iff.1 hfs).2
    refine ⟨' ' :: f :: fs, ?_, ?_⟩
    · have hwhole : Text.trimChars (ks ++ ' ' :: '=' :: ' ' :: f :: fs) =
          ks ++ ' ' :: '=' :: ' ' :: f :: fs := by
        rw [Text.trimChars_eq_self_iff]
        refine ⟨hstart _, ?_⟩
        intro c hc
        exact hlast c (by simpa using hc)
      simpa using hwhole
    · have hpad := Text.trimChars_pad (l := [' ']) (r := []) hfs isBlank_space (by simp)
      simpa using hpad

theorem Line.ofText_entry {key first : String} (hkey : IsKey key) (hfirst : Plain first) :
    Line.ofText (Text.trim (key ++ " = " ++ first)) = .entry key first := by
  have hne : key.toList ≠ [] := by simpa using hkey.nonempty
  obtain ⟨tail, htrim, htail⟩ :=
    trimChars_entry hkey.toPlain.trimChars hne hfirst.trimChars
  have hchars : (Text.trim (key ++ " = " ++ first)).toList = (key.toList ++ [' ']) ++ '=' :: tail := by
    rw [Text.toList_trim, ← htrim]
    simp
  have hheader : Text.dropHead? "[" (Text.trim (key ++ " = " ++ first)) = none := by
    have hmark : "[".toList = ['['] := by decide
    obtain ⟨c, hc, -⟩ := hkey.toPlain.head? hkey.nonempty
    have hbracket : c ≠ '[' := by
      intro h
      exact hkey.bracket (h ▸ hc)
    refine Text.dropHead?_eq_none hmark ?_
    simpa [hchars, hc] using hbracket
  have hcut : Text.cut? (fun c => c = ':' || c = '=') (Text.trim (key ++ " = " ++ first)) =
      some (String.ofList (key.toList ++ [' ']), String.ofList tail) := by
    rw [Text.cut?, hchars, Text.cutChars?_around _ (by decide)]
    · rfl
    · intro c hc
      have hcolon : c ≠ ':' := by
        intro h
        have hmem := h ▸ hc
        simp [hkey.colon] at hmem
      have hequals : c ≠ '=' := by
        intro h
        have hmem := h ▸ hc
        simp [hkey.equals] at hmem
      simp [hcolon, hequals]
  have hkeyside : Text.trim (String.ofList (key.toList ++ [' '])) = key := by
    have hpad := Text.trimChars_pad (l := []) (r := [' ']) hkey.toPlain.trimChars (by simp)
      isBlank_space
    rw [← String.toList_inj]
    simpa using hpad
  have hvalueside : Text.trim (String.ofList tail) = first := by
    rw [← String.toList_inj, Text.toList_trim, String.toList_ofList, htail]
  have hempty : key.isEmpty = false := by simpa using hkey.nonempty
  rw [Line.ofText, hheader]
  simp only [Line.ofEntry, hcut, hkeyside, hvalueside, hkey.lower, hempty, Bool.false_eq_true,
    if_false]

namespace Progress

variable {before : List Section} {name : String} {items : List Item}

theorem line_entry {key first : String} (hkey : IsKey key) (hfirst : Plain first)
    (hnew : name ∉ before.map Section.name) (hfresh : key ∉ items.map Item.key) :
    (inside before name items).line (key ++ " = " ++ first) =
      .ok (inside before name (items ++ [⟨key, first⟩])) := by
  obtain ⟨c, hc, hblank⟩ := hkey.toPlain.head? hkey.nonempty
  have hput : (⟨name, items⟩ : Section).put key first = ⟨name, items ++ [⟨key, first⟩]⟩ := by
    have hany : items.any (·.key == key) = false := by
      rw [List.any_eq_false]
      intro i hi heq
      exact hfresh (List.mem_map.2 ⟨i, hi, by simpa using heq⟩)
    simp [Section.put, hany]
  have hhead : (key ++ " = " ++ first).toList.head? = some c := by
    simp [hc]
  have hhash : c ≠ '#' := by
    intro h
    exact hkey.hash (h ▸ hc)
  have hsemicolon : c ≠ ';' := by
    intro h
    exact hkey.semicolon (h ▸ hc)
  rw [line_of_head hhead hblank hhash hsemicolon, Line.ofText_entry hkey hfirst, take]
  change Except.ok ((inside before name items).update name _) = _
  rw [update_inside hnew, hput]
  rfl

theorem line_indented {key value text l : String} (h : Indented text l)
    (hnew : name ∉ before.map Section.name) :
    (inside before name (items ++ [⟨key, value⟩])).line l =
      .ok (inside before name (items ++ [⟨key, value ++ "\n" ++ text⟩])) := by
  obtain ⟨hplain, hne, hindent⟩ := h
  rename_i indent
  obtain ⟨c, hc, hvisible⟩ := hplain.head? hne
  obtain ⟨d, ds, hds⟩ := List.exists_cons_of_ne_nil
    (show indent.toList ≠ [] by simpa using hindent.nonempty)
  have hblank : Text.isBlank d = true := hindent.blank d (by simp [hds])
  have htext : Text.isBlankText (indent ++ text) = false := by
    obtain ⟨cs, hcs⟩ := List.head?_eq_some_iff.1 hc
    simp [Text.isBlankText, hcs, hvisible]
  have hindented : isIndented (indent ++ text) = true := by
    simp [isIndented, hds, hblank]
  have hcomment : isComment (indent ++ text) = false := isComment_of_isIndented hindented
  have hcontinued : (inside before name (items ++ [⟨key, value⟩])).continued? = some name := by
    have hcurrent : (inside before name (items ++ [⟨key, value⟩])).current = some name := rfl
    rw [continued?, hcurrent]
    simp [section?_inside hnew]
  have htrim : Text.trim (indent ++ text) = text := by
    have hpad := Text.trimChars_pad (r := []) hplain.trimChars hindent.blank (by simp)
    rw [← String.toList_inj]
    simpa using hpad
  rw [line, htext, hcomment, hindented]
  simp only [Bool.or_self, Bool.false_eq_true, if_false, if_true, hcontinued, htrim,
    update_inside hnew]
  simp [inside, Section.continueLast]

theorem reads_further {key : String} {value rest lines : List String} (hvalue : value ≠ [])
    (h : List.Forall₂ Indented rest lines) (hnew : name ∉ before.map Section.name) :
    Reads (inside before name (items ++ [⟨key, Text.unlines value⟩])) lines
      (inside before name (items ++ [⟨key, Text.unlines (value ++ rest)⟩])) := by
  induction h generalizing value with
  | nil =>
    rw [List.append_nil]
    exact .nil
  | @cons text line rest lines hline _ ih =>
    have hsplit : value ++ text :: rest = value ++ [text] ++ rest := by simp
    refine .cons (line_indented hline hnew) ?_
    rw [hsplit, ← Text.unlines_snoc hvalue]
    exact ih (by simp)

theorem reads_item {item : Item} {lines : List String} (h : item.Written lines)
    (hnew : name ∉ before.map Section.name) (hfresh : item.key ∉ items.map Item.key) :
    Reads (inside before name items) lines (inside before name (items ++ [item])) := by
  obtain ⟨hkey, hfirst, hfurther⟩ := h
  rename_i key first rest lines
  have hfirstline : first = Text.unlines [first] := by simp [Text.unlines]
  have hentry := line_entry hkey hfirst hnew hfresh
  refine .cons hentry ?_
  nth_rewrite 1 [hfirstline]
  exact reads_further (by simp) hfurther hnew

theorem reads_items {more : List Item} {lines : List (List String)}
    (h : List.Forall₂ Item.Written more lines) (hnew : name ∉ before.map Section.name)
    (hdistinct : ((items ++ more).map Item.key).Nodup) :
    Reads (inside before name items) lines.flatten (inside before name (items ++ more)) := by
  induction h generalizing items with
  | nil =>
    rw [List.append_nil]
    exact .nil
  | @cons item ls more lines hitem _ ih =>
    have hfresh : item.key ∉ items.map Item.key := not_mem_of_nodup_map hdistinct
    have hsplit : items ++ item :: more = items ++ [item] ++ more := by simp
    rw [hsplit] at hdistinct ⊢
    exact (reads_item hitem hnew hfresh).append (ih hdistinct)

theorem reads_section {r : Progress} {s : Section} {lines : List String} (h : s.Written lines)
    (hnew : s.name ∉ r.sections.map Section.name) :
    Reads r lines ⟨r.sections ++ [s], some s.name⟩ := by
  obtain ⟨hname, hdistinct, hitems⟩ := h
  exact .cons (line_header hname hnew) (reads_items hitems hnew hdistinct)

theorem reads_sections {r : Progress} {more : List Section} {lines : List (List String)}
    (h : List.Forall₂ Section.Written more lines)
    (hdistinct : ((r.sections ++ more).map Section.name).Nodup) :
    ∃ current, Reads r lines.flatten ⟨r.sections ++ more, current⟩ := by
  induction h generalizing r with
  | nil =>
    rw [List.append_nil]
    exact ⟨r.current, .nil⟩
  | @cons s ls more lines hs _ ih =>
    have hnew : s.name ∉ r.sections.map Section.name := not_mem_of_nodup_map hdistinct
    have hsplit : r.sections ++ s :: more = r.sections ++ [s] ++ more := by simp
    rw [hsplit] at hdistinct ⊢
    obtain ⟨current, hrest⟩ := ih (r := ⟨r.sections ++ [s], some s.name⟩) hdistinct
    exact ⟨current, (reads_section hs hnew).append hrest⟩

end Progress

theorem Indented.visible {text l : String} (h : Indented text l) : Visible l := by
  obtain ⟨hplain, hne, hindent⟩ := h
  rename_i indent
  have hchars : text.toList ≠ [] := by simpa using hne
  constructor
  · simp [hplain.feed, hindent.feed]
  · rw [String.toList_append, List.getLast?_append_of_ne_nil _ hchars]
    exact hplain.getLast?
  · simp [hne]

theorem Item.Written.visible {item : Item} {lines : List String} (h : item.Written lines) :
    ∀ l ∈ lines, Visible l := by
  obtain ⟨hkey, hfirst, hfurther⟩ := h
  rename_i key first rest lines
  intro l hl
  obtain rfl | hl := List.mem_cons.1 hl
  · constructor
    · simp [hkey.feed, hfirst.feed]
    · rw [String.toList_append]
      by_cases hne : first.toList = []
      · simp [hne]
      · rw [List.getLast?_append_of_ne_nil _ hne]
        exact hfirst.getLast?
    · simp [hkey.nonempty]
  · obtain ⟨text, -, hindented⟩ := forall₂_exists_left hfurther hl
    exact hindented.visible

theorem Section.Written.visible {s : Section} {lines : List String} (h : s.Written lines) :
    ∀ l ∈ lines, Visible l := by
  obtain ⟨hname, -, hitems⟩ := h
  rename_i name items lines
  intro l hl
  obtain rfl | hl := List.mem_cons.1 hl
  · constructor
    · simp [hname.feed]
    · have hclose : "]".toList = [']'] := by decide
      rw [String.toList_append, hclose, List.getLast?_concat]
      decide
    · simp
  · obtain ⟨ls, hls, hl⟩ := List.mem_flatten.1 hl
    obtain ⟨item, -, hitem⟩ := forall₂_exists_left hitems hls
    exact hitem.visible l hl

/-- Sections that are written down are read again, whatever silent lines stand between their
lines. A text that ends with a line feed has an empty last line. -/
theorem File.parse_written {label : String} {sections : List Section}
    {lines padded : List String} (hwritten : Written sections lines)
    (hpadded : Padded lines padded) :
    File.parse label (Text.unlines padded) =
      .ok ⟨label, Text.lines (Text.unlines padded), sections⟩ := by
  obtain ⟨hdistinct, hsections⟩ := hwritten
  rename_i liness
  have hvisible : ∀ l ∈ liness.flatten, Visible l := by
    intro l hl
    obtain ⟨ls, hls, hl⟩ := List.mem_flatten.1 hl
    obtain ⟨s, -, hs⟩ := forall₂_exists_left hsections hls
    exact hs.visible l hl
  obtain ⟨current, hreads⟩ := Progress.reads_sections (r := .start) hsections hdistinct
  have hlines := (hreads.padded (hpadded.lines hvisible)).lines label 1
  rw [File.parse, hlines]
  rfl

/-- A value whose further lines look like a header and a comment. -/
def noteSections : List Section :=
  [⟨"Note", [⟨"text", Text.unlines ["see", "[Other]", "# below"]⟩, ⟨"mark", Text.unlines [""]⟩]⟩,
    ⟨"Other", []⟩]

def noteLines : List (List String) :=
  [("[" ++ "Note" ++ "]") :: List.flatten
      [("text" ++ " = " ++ "see") :: ["  " ++ "[Other]", "\t" ++ "# below"],
        ["mark" ++ " = " ++ ""]],
    ("[" ++ "Other" ++ "]") :: List.flatten []]

def notePadded : List String :=
  ["; a note", "[" ++ "Note" ++ "]", "text" ++ " = " ++ "see", "", "  " ++ "[Other]",
    "# [Between]", "\t" ++ "# below", "mark" ++ " = " ++ "", "[" ++ "Other" ++ "]", ""]

theorem note_written : Written noteSections noteLines.flatten := by
  have hindent : IsIndent "  " ∧ IsIndent "\t" :=
    ⟨⟨by decide, List.all_eq_true.1 (by decide), by decide⟩,
      ⟨by decide, List.all_eq_true.1 (by decide), by decide⟩⟩
  have htext : Item.Written ⟨"text", Text.unlines ["see", "[Other]", "# below"]⟩
      (("text" ++ " = " ++ "see") :: ["  " ++ "[Other]", "\t" ++ "# below"]) :=
    .mk ⟨⟨by decide, by decide⟩, by decide, by decide, by decide, by decide, by decide, by decide,
      by decide⟩ ⟨by decide, by decide⟩
      (.cons (.mk ⟨by decide, by decide⟩ (by decide) hindent.1)
        (.cons (.mk ⟨by decide, by decide⟩ (by decide) hindent.2) .nil))
  have hmark : Item.Written ⟨"mark", Text.unlines [""]⟩ ["mark" ++ " = " ++ ""] :=
    .mk ⟨⟨by decide, by decide⟩, by decide, by decide, by decide, by decide, by decide, by decide,
      by decide⟩ ⟨by decide, by decide⟩ .nil
  exact .mk (by decide)
    (.cons (.mk ⟨by decide, by decide⟩ (by decide) (.cons htext (.cons hmark .nil)))
      (.cons (.mk ⟨by decide, by decide⟩ (by decide) .nil) .nil))

theorem note_padded : Padded noteLines.flatten notePadded := by
  have hempty : Silent "" := ⟨by decide, .inl (by simp)⟩
  have hremark : Silent "; a note" := ⟨by decide, .inr (.inr (by decide))⟩
  have hhash : Silent "# [Between]" := ⟨by decide, .inr (.inl (by decide))⟩
  exact .silent hremark (.line (.line (.silent hempty (.line (.silent hhash
    (.line (.line (.line (.silent hempty .nil)))))))))

theorem note_read : Written noteSections noteLines.flatten ∧
    Padded noteLines.flatten notePadded ∧
    File.parse "note" (Text.unlines notePadded) =
      .ok ⟨"note", Text.lines (Text.unlines notePadded), noteSections⟩ :=
  ⟨note_written, note_padded, File.parse_written note_written note_padded⟩

end Statechart.Design
