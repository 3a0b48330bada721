import Mathlib.Data.List.Perm.Subperm
import Statechart.Proofs.Design.Characters
import Statechart.Proofs.Design.Family

/-!
Numbered sections that are lost without notice.

A family is read by the numbers of its sections, and its headers are counted line by line. The two
differ in what they take for a header: a bracket with a blank behind it opens a section but is not
counted, and a further line of a value may be counted but opens none. As long as there are as many
lines of the one kind as of the other, a count that fits means that every numbered section was
collected and none was opened twice.
-/
set_option autoImplicit false

namespace Statechart

namespace Design

def families : List String :=
  ["STATE_", "EVENTS_", "TRANSITION_", "PORT_"]

def isNumbered (family name : String) : Bool :=
  (Text.dropHead? family name).any fun rest => rest.toList.head?.any Text.isDigit

def isPadded (line : String) : Bool :=
  (Text.dropHead? "[" (Text.trimStart line)).any fun rest => rest.toList.head?.any Text.isBlank

inductive Sense where
  | silent
  /-- It goes on with the last value of a section. -/
  | further (name : String)
  | plain (line : Line)
  deriving DecidableEq

namespace Sense

def header? : Sense → Option String
  | plain (.header name) => some name
  | _ => none

def isFurther : Sense → Bool
  | further _ => true
  | _ => false

end Sense

def isPaddedHeader (family : String) (l : String × Sense) : Bool :=
  l.2.header?.any (isNumbered family) && isPadded l.1

/-- A line of a value that looks like the header of a numbered section. -/
def isSeemingHeader (family : String) (l : String × Sense) : Bool :=
  l.2.isFurther && File.isNumberedHeader family l.1

namespace Progress

def sense (r : Progress) (text : String) : Sense :=
  if Text.isBlankText text || isComment text then .silent
  else
    match if isIndented text then r.continued? else none with
    | some name => .further name
    | none => .plain (Line.ofText (Text.trim text))

def senses : Progress → List String → List (String × Sense)
  | _, [] => []
  | r, text :: texts =>
    match r.line text with
    | .ok r' => (text, r.sense text) :: senses r' texts
    | .error _ => []

end Progress

namespace File

def senses (f : File) : List (String × Sense) :=
  Progress.senses .start f.lines

def headers (f : File) : List String :=
  f.senses.filterMap (·.2.header?)

/-- Every numbered section of the file is among the collected ones, and has one header. -/
def Kept (f : File) (family : String) (found : List Section) : Prop :=
  ∀ s ∈ f.sections, isNumbered family s.name = true → s ∈ found ∧ f.headers.count s.name ≤ 1

def paddedHeaders (f : File) (family : String) : List (String × Sense) :=
  f.senses.filter (isPaddedHeader family)

def seemingHeaders (f : File) (family : String) : List (String × Sense) :=
  f.senses.filter (isSeemingHeader family)

end File

theorem isNumbered_iff {family name : String} :
    isNumbered family name = true ↔
      ∃ d rest, Text.isDigit d = true ∧ name.toList = family.toList ++ d :: rest := by
  simp only [isNumbered, Option.any_eq_true, Text.dropHead?_eq_some]
  constructor
  · intro h
    obtain ⟨rest, hname, d, hd, hdigit⟩ := h
    obtain ⟨tail, htail⟩ := List.head?_eq_some_iff.1 hd
    exact ⟨d, tail, hdigit, by rw [hname, htail]⟩
  · intro h
    obtain ⟨d, rest, hdigit, hname⟩ := h
    exact ⟨String.ofList (d :: rest), by simpa using hname, d, by simp, hdigit⟩

theorem isNumberedHeader_iff {family line : String} :
    File.isNumberedHeader family line = true ↔
      ∃ d rest, Text.isDigit d = true ∧
        Text.trimStartChars line.toList = '[' :: (family.toList ++ d :: rest) := by
  have hsame : File.isNumberedHeader family line =
      isNumbered ("[" ++ family) (Text.trimStart line) := by
    unfold File.isNumberedHeader isNumbered
    cases Text.dropHead? ("[" ++ family) (Text.trimStart line) <;> rfl
  rw [hsame, isNumbered_iff]
  simp

theorem isPadded_iff {line : String} :
    isPadded line = true ↔
      ∃ b rest, Text.isBlank b = true ∧ Text.trimStartChars line.toList = '[' :: b :: rest := by
  simp only [isPadded, Option.any_eq_true, Text.dropHead?_eq_some]
  constructor
  · intro h
    obtain ⟨rest, hline, b, hb, hblank⟩ := h
    obtain ⟨tail, htail⟩ := List.head?_eq_some_iff.1 hb
    exact ⟨b, tail, hblank, by simpa [htail] using hline⟩
  · intro h
    obtain ⟨b, rest, hblank, hline⟩ := h
    exact ⟨String.ofList (b :: rest), by simpa using hline, b, by simp, hblank⟩

/-- A name that can stand in front of a number: it has neither a blank nor a closing bracket. -/
def IsFamily (family : String) : Prop :=
  ∀ c ∈ family.toList, Text.isBlank c = false ∧ c ≠ ']'

theorem isFamily_of_mem {family : String} (h : family ∈ families) : IsFamily family := by
  have hall : families.all (fun family => family.toList.all fun c => !Text.isBlank c && c != ']') =
      true := by
    decide
  intro c hc
  simpa using List.all_eq_true.1 (List.all_eq_true.1 hall family h) c hc

section

variable {family line : String}

theorem ofText_eq_header {name : String} (h : Line.ofText (Text.trim line) = .header name) :
    ∃ inner rest, name = Text.trim inner ∧
      Text.trimStartChars line.toList = '[' :: (inner.toList ++ ']' :: rest) := by
  unfold Line.ofText at h
  cases hopen : Text.dropHead? "[" (Text.trim line) with
  | none =>
    simp only [hopen, Line.ofEntry] at h
    split at h
    · split at h <;> cases h
    · cases h
  | some after =>
    simp only [hopen, Line.ofHeader] at h
    cases hclose : Text.dropTail? "]" after with
    | none => simp [hclose] at h
    | some inner =>
      obtain rfl : Text.trim inner = name := by simpa [hclose] using h
      obtain ⟨rest, -, hend⟩ := Text.exists_trimEndChars (Text.trimStartChars line.toList)
      refine ⟨inner, rest, rfl, ?_⟩
      have hchars : Text.trimChars line.toList = '[' :: (inner.toList ++ [']']) := by
        rw [← Text.toList_trim, Text.dropHead?_eq_some.1 hopen, Text.dropTail?_eq_some.1 hclose]
        rfl
      rw [hend, ← Text.trimChars, hchars]
      simp

theorem exists_number {inner tail rest : List Char} {d : Char} (hfamily : IsFamily family)
    (hdigit : Text.isDigit d = true)
    (h : inner ++ ']' :: tail = family.toList ++ d :: rest) :
    ∃ more, inner = family.toList ++ d :: more := by
  have hsplit : inner ++ ']' :: tail = (family.toList ++ [d]) ++ rest := by simpa using h
  rcases List.append_eq_append_iff.1 hsplit with ⟨part, hpart, hrest⟩ | ⟨more, hmore, -⟩
  · cases part with
    | nil => exact ⟨[], by simpa using hpart.symm⟩
    | cons c part =>
      -- the closing bracket would be part of the family or its digit
      obtain rfl : ']' = c := (List.cons.inj hrest).1
      have hmem : ']' ∈ family.toList ++ [d] := by simp [hpart]
      rcases List.mem_append.1 hmem with hmem | hmem
      · exact absurd rfl (hfamily _ hmem).2
      · obtain rfl : ']' = d := List.mem_singleton.1 hmem
        exact absurd hdigit (by decide)
  · exact ⟨more, by simpa using hmore⟩

theorem isNumberedHeader_of_header (hfamily : IsFamily family) {name : String}
    (h : Line.ofText (Text.trim line) = .header name) :
    File.isNumberedHeader family line = (isNumbered family name && !isPadded line) := by
  obtain ⟨inner, tail, rfl, hline⟩ := ofText_eq_header h
  rw [Bool.eq_iff_iff, Bool.and_eq_true, Bool.not_eq_true', ← Bool.not_eq_true,
    isNumberedHeader_iff, isNumbered_iff, isPadded_iff, hline, Text.toList_trim]
  constructor
  · intro h
    obtain ⟨d, rest, hdigit, heq⟩ := h
    obtain ⟨more, hinner⟩ := exists_number hfamily hdigit (List.cons.inj heq).2
    have hstart : Text.trimStartChars family.toList = family.toList := by
      cases hchars : family.toList with
      | nil => rfl
      | cons c cs => simp [Text.trimStartChars, (hfamily c (by simp [hchars])).1]
    have hname := Text.trimChars_around (Text.isBlank_of_isDigit hdigit) family.toList more
    rw [← hinner, hstart] at hname
    refine ⟨⟨d, _, hdigit, hname⟩, ?_⟩
    have hhead : ∃ c cs, inner.toList = c :: cs ∧ Text.isBlank c = false := by
      cases hchars : family.toList with
      | nil => exact ⟨d, more, by rw [hinner, hchars]; rfl, Text.isBlank_of_isDigit hdigit⟩
      | cons c cs =>
        exact ⟨c, cs ++ d :: more, by rw [hinner, hchars]; rfl, (hfamily c (by simp [hchars])).1⟩
    obtain ⟨c, cs, hcs, hvisible⟩ := hhead
    intro hpadded
    obtain ⟨b, after, hblank, hafter⟩ := hpadded
    rw [hcs] at hafter
    obtain rfl : c = b := (List.cons.inj (List.cons.inj hafter).2).1
    simp [hvisible] at hblank
  · intro h
    obtain ⟨⟨d, rest, hdigit, hname⟩, hplain⟩ := h
    obtain ⟨blanks, hblanks, hfront⟩ := Text.exists_trimStartChars inner.toList
    obtain ⟨more, -, hback⟩ := Text.exists_trimEndChars (Text.trimStartChars inner.toList)
    rw [hback, ← Text.trimChars, hname] at hfront
    cases blanks with
    | nil => exact ⟨d, rest ++ more ++ ']' :: tail, hdigit, by simp [hfront]⟩
    | cons b blanks =>
      exact absurd ⟨b, blanks ++ (family.toList ++ d :: rest ++ more) ++ ']' :: tail,
        hblanks b List.mem_cons_self, by simp [hfront]⟩ hplain

theorem ofText_of_isNumberedHeader (h : File.isNumberedHeader family line = true) :
    (∃ name, Line.ofText (Text.trim line) = .header name) ∨
      Line.ofText (Text.trim line) = .faulty .unclosedHeader := by
  obtain ⟨d, rest, -, hline⟩ := isNumberedHeader_iff.1 h
  have hchars : Text.trimChars line.toList =
      '[' :: Text.trimEndChars (family.toList ++ d :: rest) := by
    rw [Text.trimChars, hline]
    exact Text.trimEndChars_around (by decide) [] _
  have hopen : Text.dropHead? "[" (Text.trim line) =
      some (String.ofList (Text.trimEndChars (family.toList ++ d :: rest))) := by
    rw [Text.dropHead?_eq_some, Text.toList_trim, hchars]
    simp
  rw [Line.ofText, hopen]
  simp only [Line.ofHeader]
  split
  · exact .inl ⟨_, rfl⟩
  · exact .inr rfl

end

theorem Section.name_put (s : Section) (key value : String) : (s.put key value).name = s.name := by
  unfold Section.put
  split <;> rfl

theorem Section.name_continueLast (s : Section) (text : String) :
    (s.continueLast text).name = s.name := by
  unfold Section.continueLast
  split <;> rfl

namespace Progress

variable {family : String} {r r' : Progress} {text : String}

theorem silent_of_sense (h : r.sense text = .silent) :
    (Text.isBlankText text || isComment text) = true := by
  unfold sense at h
  split at h
  · assumption
  · split at h <;> cases h

theorem plain_of_sense {l : Line} (h : r.sense text = .plain l) :
    l = Line.ofText (Text.trim text) := by
  unfold sense at h
  split at h
  · cases h
  · split at h
    · cases h
    · exact (Sense.plain.inj h).symm

theorem line_eq (r : Progress) (text : String) :
    r.line text =
      match r.sense text with
      | .silent => .ok r
      | .further name => .ok (r.update name (·.continueLast (Text.trim text)))
      | .plain l => r.take l := by
  unfold line sense
  split
  · rfl
  · generalize (if isIndented text then r.continued? else none) = continued
    cases continued <;> rfl

theorem isNumberedHeader_of_silent
    (h : (Text.isBlankText text || isComment text) = true) :
    File.isNumberedHeader family text = false := by
  rw [← Bool.not_eq_true, isNumberedHeader_iff]
  intro hheader
  obtain ⟨d, rest, -, hline⟩ := hheader
  rcases Bool.or_eq_true_iff.1 h with hblank | hcomment
  · have hnone : Text.trimStartChars text.toList = [] :=
      List.dropWhile_eq_nil_iff.2 (List.all_eq_true.1 hblank)
    rw [hnone] at hline
    cases hline
  · rw [isComment_eq, decide_eq_true_eq] at hcomment
    have hself : ∀ c, Text.isBlank c = false → text.toList.head? = some c →
        Text.trimStartChars text.toList = text.toList := by
      intro c hc hhead
      obtain ⟨cs, hcs⟩ := List.head?_eq_some_iff.1 hhead
      simp [Text.trimStartChars, hcs, hc]
    rcases hcomment with hhead | hhead
    · rw [hself _ (by decide) hhead] at hline
      simp [hline] at hhead
    · rw [hself _ (by decide) hhead] at hline
      simp [hline] at hhead

/-- Of the lines that are read, the headers without a blank behind the bracket are counted, and the
lines of values that look like them. -/
theorem isNumberedHeader_eq (hfamily : IsFamily family) (h : r.line text = .ok r') :
    File.isNumberedHeader family text =
      ((r.sense text).header?.any (isNumbered family) && !isPadded text ||
        (r.sense text).isFurther && File.isNumberedHeader family text) := by
  cases hsense : r.sense text with
  | silent =>
    simp [Sense.header?, Sense.isFurther, isNumberedHeader_of_silent (silent_of_sense hsense)]
  | further name => simp [Sense.header?, Sense.isFurther]
  | plain l =>
    have hl := plain_of_sense hsense
    -- A line that is read and counted can only be a header.
    have hother : (∀ name, l ≠ .header name) → File.isNumberedHeader family text = false := by
      intro hno
      rw [← Bool.not_eq_true]
      intro hheader
      rcases ofText_of_isNumberedHeader hheader with ⟨name, hname⟩ | hopen
      · exact hno name (hl.trans hname)
      · rw [line_eq, hsense, hl, hopen] at h
        cases h
    cases l with
    | header name =>
      simp [Sense.header?, Sense.isFurther, isNumberedHeader_of_header hfamily hl.symm]
    | entry key value => simp [Sense.header?, Sense.isFurther, hother (by simp)]
    | faulty fault => simp [Sense.header?, Sense.isFurther, hother (by simp)]

theorem names_update (r : Progress) (name : String) {f : Section → Section}
    (hf : ∀ s, (f s).name = s.name) :
    (r.update name f).sections.map Section.name = r.sections.map Section.name := by
  rw [update, List.map_map]
  apply List.map_congr_left
  intro s _
  rw [Function.comp_apply]
  split
  · exact hf s
  · rfl

theorem names_enter (r : Progress) (name : String) :
    (r.enter name).sections.map Section.name =
      if name ∈ r.sections.map Section.name then r.sections.map Section.name
      else r.sections.map Section.name ++ [name] := by
  have hfound : (r.section? name).isSome = true ↔ name ∈ r.sections.map Section.name := by
    simp [section?, List.find?_isSome]
  unfold enter
  by_cases hmem : name ∈ r.sections.map Section.name
  · rw [if_pos (hfound.2 hmem), if_pos hmem]
  · rw [if_neg (mt hfound.1 hmem), if_neg hmem]
    simp

theorem names_of_line (h : r.line text = .ok r') :
    r'.sections.map Section.name =
      match (r.sense text).header? with
      | none => r.sections.map Section.name
      | some name =>
        if name ∈ r.sections.map Section.name then r.sections.map Section.name
        else r.sections.map Section.name ++ [name] := by
  rw [line_eq] at h
  cases hsense : r.sense text with
  | silent =>
    rw [hsense] at h
    cases h
    rfl
  | further name =>
    rw [hsense] at h
    cases h
    exact names_update r name fun s => Section.name_continueLast s _
  | plain l =>
    rw [hsense] at h
    cases l with
    | header name =>
      cases h
      exact names_enter r name
    | entry key value =>
      dsimp only [take] at h
      split at h
      · cases h
        exact names_update r _ fun s => Section.name_put s key value
      · cases h
    | faulty fault => cases fault <;> cases h

theorem lines_cons {label : String} {n : Nat} {texts : List String}
    (h : lines label n r (text :: texts) = .ok r') :
    ∃ t, r.line text = .ok t ∧ lines label (n + 1) t texts = .ok r' ∧
      r.senses (text :: texts) = (text, r.sense text) :: t.senses texts := by
  rw [lines] at h
  cases hline : r.line text with
  | error fault => simp [hline] at h
  | ok t =>
    refine ⟨t, rfl, by simpa [hline] using h, ?_⟩
    rw [senses, hline]

/-- The lines that are counted and those that open numbered sections, but for the lines by which
they differ. -/
theorem count_headers {label : String} {n : Nat} {texts : List String} (hfamily : IsFamily family)
    (h : lines label n r texts = .ok r') :
    texts.countP (File.isNumberedHeader family) +
        (r.senses texts).countP (isPaddedHeader family) =
      ((r.senses texts).filterMap (·.2.header?)).countP (isNumbered family) +
        (r.senses texts).countP (isSeemingHeader family) := by
  induction texts generalizing n r with
  | nil => rfl
  | cons text texts ih =>
    obtain ⟨t, hline, hrest, hsenses⟩ := lines_cons h
    have hcount := isNumberedHeader_eq hfamily hline
    have hih := ih hrest
    rw [hsenses]
    cases hheader : (r.sense text).header? with
    | none =>
      have hpadded : isPaddedHeader family (text, r.sense text) = false := by
        simp [isPaddedHeader, hheader]
      have hseeming : isSeemingHeader family (text, r.sense text) =
          File.isNumberedHeader family text := by
        rw [hcount]
        simp [isSeemingHeader, hheader]
      simp only [List.countP_cons, List.filterMap_cons, hheader, hpadded, hseeming,
        Bool.false_eq_true, if_false]
      omega
    | some name =>
      have hfurther : (r.sense text).isFurther = false := by
        cases hsense : r.sense text with
        | silent | plain => rfl
        | further => simp [hsense, Sense.header?] at hheader
      have hseeming : isSeemingHeader family (text, r.sense text) = false := by
        simp [isSeemingHeader, hfurther]
      have hpadded : isPaddedHeader family (text, r.sense text) =
          (isNumbered family name && isPadded text) := by
        simp [isPaddedHeader, hheader]
      rw [hheader, hfurther, Option.any_some, Bool.false_and, Bool.or_false] at hcount
      simp only [List.countP_cons, List.filterMap_cons, hheader, hpadded, hseeming, hcount]
      cases isNumbered family name <;> cases isPadded text <;> simp <;> omega

theorem names_of_lines {label : String} {n : Nat} {texts : List String}
    (h : lines label n r texts = .ok r') :
    (∀ name, name ∈ r'.sections.map Section.name ↔
      name ∈ r.sections.map Section.name ∨ name ∈ (r.senses texts).filterMap (·.2.header?)) ∧
      ((r.sections.map Section.name).Nodup → (r'.sections.map Section.name).Nodup) := by
  induction texts generalizing n r with
  | nil =>
    obtain rfl := Except.ok.inj h
    simp [senses]
  | cons text texts ih =>
    obtain ⟨t, hline, hrest, hsenses⟩ := lines_cons h
    obtain ⟨hmem, hnodup⟩ := ih hrest
    have hnames := names_of_line hline
    rw [hsenses, List.filterMap_cons]
    cases hheader : (r.sense text).header? with
    | none =>
      simp only [hheader] at hnames
      rw [hnames] at hmem hnodup
      exact ⟨hmem, hnodup⟩
    | some name =>
      simp only [hheader] at hnames
      split at hnames
      · rename_i hold
        rw [hnames] at hmem hnodup
        refine ⟨fun other => ?_, hnodup⟩
        rw [hmem, List.mem_cons]
        constructor
        · rintro (hother | hother)
          · exact .inl hother
          · exact .inr (.inr hother)
        · rintro (hother | rfl | hother)
          · exact .inl hother
          · exact .inl hold
          · exact .inr hother
      · rename_i hnew
        rw [hnames] at hmem hnodup
        refine ⟨fun other => ?_, fun hdistinct => hnodup ?_⟩
        · rw [hmem, List.mem_append, List.mem_singleton, List.mem_cons, or_assoc]
        · rw [List.nodup_append']
          exact ⟨hdistinct, List.nodup_singleton name, by simpa using hnew⟩

end Progress

theorem mem_runFrom {α : Type} {get : Nat → Option α} {limit n : Nat} {a : α}
    (h : a ∈ runFrom get limit n) : ∃ m, get m = some a := by
  induction limit generalizing n with
  | zero => cases h
  | succ limit ih =>
    rw [runFrom] at h
    split at h
    · rename_i b hb
      rcases List.mem_cons.1 h with rfl | h
      · exact ⟨n, hb⟩
      · exact ih h
    · cases h

theorem isNumbered_numeral (family more : String) (n : Nat) :
    isNumbered family (family ++ (toString n ++ more)) = true := by
  rw [isNumbered_iff]
  have hchars : (toString n).toList = Nat.toDigits 10 n := Nat.toList_repr
  cases hdigits : Nat.toDigits 10 n with
  | nil => exact absurd hdigits Nat.toDigits_ne_nil
  | cons d ds =>
    have hd : d.isDigit = true :=
      Nat.isDigit_of_mem_toDigits (by decide) (by decide) (hdigits ▸ List.mem_cons_self)
    refine ⟨d, ds ++ more.toList, ?_, ?_⟩
    · simpa [Text.isDigit, Char.isDigit, Char.le_def] using hd
    · rw [String.toList_append, String.toList_append, hchars, hdigits, List.cons_append]

namespace File

variable {f : File} {family : String}

theorem mem_of_mem_chunk {base : String} {s : Section} (h : s ∈ f.chunk base) : s ∈ f.sections := by
  obtain ⟨m, hm⟩ := mem_runFrom h
  exact List.mem_of_find?_eq_some hm

theorem mem_of_mem_chunksFrom {limit c : Nat} {s : Section}
    (h : s ∈ f.chunksFrom family limit c) : s ∈ f.sections := by
  induction limit generalizing c with
  | zero => cases h
  | succ limit ih =>
    rw [chunksFrom_succ] at h
    split at h
    · cases h
    · rcases List.mem_append.1 h with h | h
      · exact mem_of_mem_chunk h
      · exact ih h

theorem mem_family {s : Section} (h : s ∈ f.family family) :
    s ∈ f.sections ∧ isNumbered family s.name = true := by
  rcases List.mem_append.1 h with h | h
  · obtain ⟨n, hn⟩ := name_of_mem_chunk (List.mem_map_of_mem h)
    refine ⟨mem_of_mem_chunk h, ?_⟩
    simpa [hn] using isNumbered_numeral family "" n
  · obtain ⟨d, n, -, hn⟩ := name_of_mem_chunksFrom (List.mem_map_of_mem h)
    refine ⟨mem_of_mem_chunksFrom h, ?_⟩
    rw [hn, String.append_assoc]
    exact isNumbered_numeral family _ d

theorem parse_eq_ok {label text : String} (h : parse label text = .ok f) :
    ∃ r, Progress.lines label 1 .start (Text.lines text) = .ok r ∧
      f = ⟨label, Text.lines text, r.sections⟩ := by
  obtain ⟨r, hr, hf⟩ := map_eq_ok.1 h
  exact ⟨r, hr, hf.symm⟩

section

variable {label text : String} (h : parse label text = .ok f)

include h

/-- The sections of a file are those that its headers open, each of them once. -/
theorem mem_names_iff {name : String} : name ∈ f.sections.map Section.name ↔ name ∈ f.headers := by
  obtain ⟨r, hr, rfl⟩ := parse_eq_ok h
  rw [(Progress.names_of_lines hr).1 name]
  constructor
  · rintro (hnone | hname)
    · cases hnone
    · exact hname
  · exact .inr

theorem names_nodup : (f.sections.map Section.name).Nodup := by
  obtain ⟨r, hr, rfl⟩ := parse_eq_ok h
  exact (Progress.names_of_lines hr).2 List.nodup_nil

theorem headerCount_eq (hfamily : IsFamily family) :
    f.headerCount family + (f.paddedHeaders family).length =
      (f.headers.filter (isNumbered family)).length + (f.seemingHeaders family).length := by
  obtain ⟨r, hr, rfl⟩ := parse_eq_ok h
  simpa only [headerCount, paddedHeaders, headers, seemingHeaders, senses,
    ← List.countP_eq_length_filter] using Progress.count_headers hfamily hr

theorem family_subperm (family : String) :
    ((f.family family).map Section.name).Subperm (f.headers.filter (isNumbered family)) := by
  refine (family_nodup f family).subperm ?_
  intro name hname
  obtain ⟨s, hs, rfl⟩ := List.mem_map.1 hname
  obtain ⟨hsection, hnumbered⟩ := mem_family hs
  exact List.mem_filter.2 ⟨(mem_names_iff h).1 (List.mem_map_of_mem hsection), hnumbered⟩

/-- Nothing of a family is lost just in case its headers are as many as the collected sections. -/
theorem kept_iff_length :
    f.Kept family (f.family family) ↔
      (f.headers.filter (isNumbered family)).length = (f.family family).length := by
  have hsubperm := family_subperm h family
  have hlength : ((f.family family).map Section.name).length = (f.family family).length :=
    List.length_map Section.name
  rw [← hlength]
  constructor
  · intro hall
    have hnames : ∀ name ∈ f.headers, isNumbered family name = true →
        name ∈ (f.family family).map Section.name ∧ f.headers.count name ≤ 1 := by
      intro name hname hnumbered
      obtain ⟨s, hs, rfl⟩ := List.mem_map.1 ((mem_names_iff h).2 hname)
      exact (hall s hs hnumbered).imp_left List.mem_map_of_mem
    have honce : (f.headers.filter (isNumbered family)).Nodup := by
      rw [List.nodup_iff_count_le_one]
      intro name
      by_cases hname : name ∈ f.headers.filter (isNumbered family)
      · obtain ⟨hheader, hnumbered⟩ := List.mem_filter.1 hname
        rw [List.count_filter hnumbered]
        exact (hnames name hheader hnumbered).2
      · rw [List.count_eq_zero.2 hname]
        exact Nat.zero_le 1
    have hback : f.headers.filter (isNumbered family) ⊆ (f.family family).map Section.name := by
      intro name hname
      obtain ⟨hheader, hnumbered⟩ := List.mem_filter.1 hname
      exact (hnames name hheader hnumbered).1
    exact Nat.le_antisymm (honce.subperm hback).length_le hsubperm.length_le
  · intro hlength s hs hnumbered
    have hperm := hsubperm.perm_of_length_le (Nat.le_of_eq hlength)
    have hname : s.name ∈ f.headers.filter (isNumbered family) :=
      List.mem_filter.2 ⟨(mem_names_iff h).1 (List.mem_map_of_mem hs), hnumbered⟩
    constructor
    · obtain ⟨t, ht, hts⟩ := List.mem_map.1 (hperm.mem_iff.2 hname)
      rwa [← List.inj_on_of_nodup_map (names_nodup h) (mem_family ht).1 hs hts]
    · rw [← List.count_filter hnumbered]
      exact List.nodup_iff_count_le_one.1 (hperm.nodup_iff.1 (family_nodup f family)) s.name

end

theorem headerCount_of_quiet {σ : Type} {f : File} {family : String} {s : σ}
    (h : ∀ w ∈ (f.readFamily family s).journal.warnings, w.concern ≠ .sectionCountMismatch) :
    f.headerCount family = (f.family family).length := by
  by_contra hcount
  unfold readFamily at h
  simp only [ne_eq, hcount, not_false_eq_true, if_true] at h
  exact h _ List.mem_cons_self rfl

/-- Where the count of a family fits, nothing of it is lost just in case the headers with a blank
are as many as the lines of values that look like headers. So nothing is lost where there is no such
header. -/
theorem kept_iff_balanced {label text : String} {f : File} {family : String}
    (hparse : parse label text = .ok f) (hfamily : family ∈ families)
    (hquiet : ∀ w ∈ (f.readFamily family ()).journal.warnings,
      w.concern ≠ .sectionCountMismatch) :
    ∃ found, (f.readFamily family ()).result = .ok found ∧
      (f.Kept family found ↔
        (f.paddedHeaders family).length = (f.seemingHeaders family).length) ∧
      (f.paddedHeaders family = [] → f.Kept family found) := by
  have hfits := headerCount_of_quiet hquiet
  have hcount := headerCount_eq hparse (isFamily_of_mem hfamily)
  have hkept : f.Kept family (f.family family) ↔ _ := kept_iff_length hparse
  have hle : (f.family family).length ≤ (f.headers.filter (isNumbered family)).length := by
    simpa using (family_subperm hparse family).length_le
  refine ⟨f.family family, (readFamily_matches f family ()).2, ?_, fun hnone => hkept.2 ?_⟩
  · rw [hkept]
    omega
  · rw [hnone, List.length_nil] at hcount
    omega

/-- A pantry whose second header has a blank, and a value that looks like a header. -/
def pantryLines : List String :=
  ["[STATE_1]", "note = a", "  [STATE_7]", "[ STATE_2 ]"]

def pantry : File :=
  ⟨"pantry.ini", pantryLines, [⟨"STATE_1", [⟨"note", "a\n[STATE_7]"⟩]⟩, ⟨"STATE_2", []⟩]⟩

theorem pantry_kept :
    parse "pantry.ini" (Text.unlines pantryLines) = .ok pantry ∧ "STATE_" ∈ families ∧
      (∀ w ∈ (pantry.readFamily "STATE_" ()).journal.warnings,
        w.concern ≠ .sectionCountMismatch) ∧
      (pantry.readFamily "STATE_" ()).result = .ok pantry.sections ∧
      pantry.Kept "STATE_" pantry.sections := by
  have hparse : parse "pantry.ini" (Text.unlines pantryLines) = .ok pantry :=
    parse_unlines (by repeat constructor) (by decide +kernel) (by decide +kernel)
  have hstate : "STATE_" ∈ families := by decide +kernel
  have hquiet : ∀ w ∈ (pantry.readFamily "STATE_" ()).journal.warnings,
      w.concern ≠ .sectionCountMismatch := by
    decide +kernel
  have hresult : (pantry.readFamily "STATE_" ()).result = .ok pantry.sections :=
    ok_of_toOption (by decide +kernel)
  obtain ⟨found, hfound, hkept, -⟩ := kept_iff_balanced hparse hstate hquiet
  have hall : found = pantry.sections := Except.ok.inj (hfound.symm.trans hresult)
  rw [hall] at hkept
  exact ⟨hparse, hstate, hquiet, hresult, hkept.2 (by decide +kernel)⟩

/-- A third state behind a blank, where the second is missing. -/
def atticLines : List String :=
  ["[STATECHART]", "name = Attic", "[OPTIONS]",
    "[STATE_1]", "name = Idle", "parent = None", "type = State",
    "entry = None", "do = None", "exit = None",
    "[ STATE_3 ]", "name = Lost",
    "[TRANSITION_1]", "start = Start", "end = Idle", "event = None", "guard = None",
    "action = None"]

def attic : File :=
  ⟨"d.ini", atticLines,
    [⟨"STATECHART", [⟨"name", "Attic"⟩]⟩, ⟨"OPTIONS", []⟩,
      ⟨"STATE_1", [⟨"name", "Idle"⟩, ⟨"parent", "None"⟩, ⟨"type", "State"⟩, ⟨"entry", "None"⟩,
        ⟨"do", "None"⟩, ⟨"exit", "None"⟩]⟩,
      ⟨"STATE_3", [⟨"name", "Lost"⟩]⟩,
      ⟨"TRANSITION_1", [⟨"start", "Start"⟩, ⟨"end", "Idle"⟩, ⟨"event", "None"⟩, ⟨"guard", "None"⟩,
        ⟨"action", "None"⟩]⟩]⟩

/-- It is lost, and nobody is told. -/
theorem attic_state_lost :
    parse "d.ini" (Text.unlines atticLines) = .ok attic ∧ "STATE_" ∈ families ∧
      (∀ w ∈ (attic.readFamily "STATE_" ()).journal.warnings,
        w.concern ≠ .sectionCountMismatch) ∧
      ∃ found, (attic.readFamily "STATE_" ()).result = .ok found ∧
        ∃ s ∈ attic.sections, isNumbered "STATE_" s.name = true ∧ s ∉ found := by
  refine ⟨parse_unlines (by repeat constructor) (by decide +kernel) (by decide +kernel),
    by decide +kernel, by decide +kernel, attic.family "STATE_",
    (readFamily_matches attic "STATE_" ()).2, ⟨"STATE_3", [⟨"name", "Lost"⟩]⟩,
    by decide +kernel, by decide, by decide +kernel⟩

end File

end Design

end Statechart
