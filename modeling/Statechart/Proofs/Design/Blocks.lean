import Statechart.Proofs.Design.Continuing

/-!
Sections that are taken apart and put together again.

What a line does to the current section depends on that section alone, so a section is what its own
lines make of an empty one. It does not matter under how many headers these lines stand, nor what
stands between them.
-/
set_option autoImplicit false

namespace Statechart.Design

theorem Sense.header?_eq_some {x : Sense} {name : String} :
    x.header? = some name ↔ x = .plain (.header name) := by
  cases x with
  | silent | further => simp [header?]
  | plain l => cases l <;> simp [header?]

namespace Section

def line? (s : Section) (text : String) : Option Section :=
  if Text.isBlankText text || Progress.isComment text then some s
  else if Progress.isIndented text && !s.items.isEmpty then some (s.continueLast (Text.trim text))
  else
    match Line.ofText (Text.trim text) with
    | .entry key value => some (s.put key value)
    | _ => none

def lines? (s : Section) : List String → Option Section
  | [] => some s
  | text :: texts => (s.line? text).bind (·.lines? texts)

theorem lines?_append (s : Section) (as bs : List String) :
    s.lines? (as ++ bs) = (s.lines? as).bind (·.lines? bs) := by
  induction as generalizing s with
  | nil => rfl
  | cons a as ih =>
    rw [List.cons_append, lines?, lines?, Option.bind_assoc]
    exact Option.bind_congr fun t _ => ih t

end Section

namespace Progress

variable {r r' : Progress} {name text : String} {s s' : Section}

/-- A section as it stands. One that was not opened yet has no entries. -/
def sectionOf (r : Progress) (name : String) : Section :=
  (r.section? name).getD ⟨name, []⟩

/-- The lines that are read while a section is current, but for the headers. -/
def linesUnder (name : String) : Progress → List String → List String
  | _, [] => []
  | r, text :: texts =>
    match r.line text with
    | .ok r' =>
      if r.current = some name ∧ (r.sense text).header? = none then
        text :: linesUnder name r' texts
      else linesUnder name r' texts
    | .error _ => []

structure Replaced (r r' : Progress) (name : String) (s : Section) : Prop where
  current : r'.current = r.current
  names : r'.sections.map Section.name = r.sections.map Section.name
  sections : ∀ other, r'.section? other = if other = name then some s else r.section? other

theorem replaced_self (hs : r.section? name = some s) : Replaced r r name s := by
  refine ⟨rfl, rfl, fun other => ?_⟩
  split
  · rename_i hother
    rw [hother, hs]
  · rfl

theorem Replaced.trans {t : Progress} (h : Replaced r t name s) (h' : Replaced t r' name s') :
    Replaced r r' name s' := by
  refine ⟨h'.current.trans h.current, h'.names.trans h.names, fun other => ?_⟩
  rw [h'.sections, h.sections]
  split <;> rfl

theorem replaced_update (hs : r.section? name = some s) {g : Section → Section}
    (hg : ∀ t, (g t).name = t.name) : Replaced r (r.update name g) name (g s) := by
  refine ⟨rfl, names_update r name hg, ?_⟩
  intro other
  rw [section?_update r name hg]
  by_cases hother : other = name
  · simp [hother, hs]
  · simp [hother]

/-- Whether a line goes on with a value depends on the current section alone. -/
theorem sense_within (hcurrent : r.current = some name) (hs : r.section? name = some s)
    (text : String) :
    r.sense text =
      if Text.isBlankText text || isComment text then .silent
      else if isIndented text && !s.items.isEmpty then .further name
      else .plain (Line.ofText (Text.trim text)) := by
  have hcontinued : r.continued? = if s.items.isEmpty then none else some name := by
    cases hitems : s.items.isEmpty <;> simp [continued?, hcurrent, hs, hitems]
  unfold sense
  rw [hcontinued]
  cases isIndented text <;> cases s.items.isEmpty <;> rfl

theorem line_within (hcurrent : r.current = some name) (hs : r.section? name = some s)
    (text : String) :
    (∃ other, (r.sense text).header? = some other ∧ s.line? text = none) ∨
      (∃ r' s', (r.sense text).header? = none ∧ r.line text = .ok r' ∧ s.line? text = some s' ∧
        Replaced r r' name s') ∨
      (∃ fault, r.line text = .error fault) ∧ s.line? text = none := by
  rw [line_eq, sense_within hcurrent hs, Section.line?]
  split
  · exact .inr (.inl ⟨r, s, rfl, rfl, rfl, replaced_self hs⟩)
  · split
    · exact .inr (.inl ⟨_, _, rfl, rfl, rfl,
        replaced_update hs fun t => Section.name_continueLast t _⟩)
    · cases Line.ofText (Text.trim text) with
      | header other => exact .inl ⟨other, rfl, rfl⟩
      | entry key value =>
        refine .inr (.inl ⟨_, _, rfl, ?_, rfl,
          replaced_update hs fun t => Section.name_put t key value⟩)
        simp only [take, hcurrent]
      | faulty fault => exact .inr (.inr ⟨by cases fault <;> exact ⟨_, rfl⟩, rfl⟩)

theorem sectionOf_eq (hs : r.section? name = some s) : r.sectionOf name = s := by
  rw [sectionOf, hs, Option.getD_some]

theorem section?_eq_some_iff :
    r.section? name = some s ↔ name ∈ r.sections.map Section.name ∧ r.sectionOf name = s := by
  have hfound : (r.section? name).isSome = true ↔ name ∈ r.sections.map Section.name := by
    simp [section?, List.find?_isSome]
  rw [← hfound, sectionOf]
  cases r.section? name <;> simp

theorem Replaced.sectionOf (h : Replaced r r' name s) (other : String) :
    r'.sectionOf other = if other = name then s else r.sectionOf other := by
  unfold Progress.sectionOf
  rw [h.sections]
  split <;> rfl

theorem sectionOf_enter (r : Progress) (name other : String) :
    (r.enter name).sectionOf other = r.sectionOf other := by
  unfold sectionOf
  rw [section?_enter]
  cases r.section? other with
  | some s => rfl
  | none =>
    rw [Option.none_or]
    split
    · rename_i hother
      rw [hother]
      rfl
    · rfl

theorem enter_of_header (h : r.line text = .ok r') (hheader : (r.sense text).header? = some name) :
    r' = r.enter name := by
  rw [line_eq, Sense.header?_eq_some.1 hheader] at h
  exact (Except.ok.inj h).symm

theorem eq_of_line_outside (h : r.line text = .ok r') (hcurrent : r.current = none)
    (hplain : (r.sense text).header? = none) : r' = r := by
  have hsense : r.sense text = if Text.isBlankText text || isComment text then .silent
      else .plain (Line.ofText (Text.trim text)) := by
    have hcontinued : r.continued? = none := by simp [continued?, hcurrent]
    unfold sense
    rw [hcontinued, ite_self]
  rw [line_eq, hsense] at h
  rw [hsense] at hplain
  by_cases hsilent : (Text.isBlankText text || isComment text) = true
  · rw [if_pos hsilent] at h
    exact (Except.ok.inj h).symm
  · rw [if_neg hsilent] at h hplain
    cases hl : Line.ofText (Text.trim text) with
    | header other => simp [hl, Sense.header?] at hplain
    | entry key value => simp [hl, take, hcurrent] at h
    | faulty fault => cases fault <;> simp [hl, take] at h

theorem sectionOf_of_line (h : r.line text = .ok r') (hentered : r.Entered) (name : String) :
    if r.current = some name ∧ (r.sense text).header? = none then
      (r.sectionOf name).line? text = some (r'.sectionOf name)
    else r'.sectionOf name = r.sectionOf name := by
  cases hheader : (r.sense text).header? with
  | some other =>
    rw [if_neg (by simp), enter_of_header h hheader, sectionOf_enter]
  | none =>
    cases hcurrent : r.current with
    | none => rw [if_neg (by simp), eq_of_line_outside h hcurrent hheader]
    | some current =>
      obtain ⟨s, hs⟩ := Option.isSome_iff_exists.1 (hentered current hcurrent)
      obtain ⟨other, hother, -⟩ | ⟨t, s', -, hline, hs', hreplaced⟩ | ⟨⟨fault, hfault⟩, -⟩ :=
        line_within hcurrent hs text
      · simp [hheader] at hother
      · obtain rfl : t = r' := Except.ok.inj (hline.symm.trans h)
        by_cases hname : name = current
        · rw [if_pos ⟨by rw [hname], rfl⟩, hname, sectionOf_eq hs, hs', hreplaced.sectionOf,
            if_pos rfl]
        · rw [if_neg (by simpa using Ne.symm hname), hreplaced.sectionOf, if_neg hname]
      · rw [hfault] at h
        cases h

/-- A run of lines makes of a section what its own lines make of it alone. -/
theorem lines?_linesUnder {texts : List String} (h : Reads r texts r') (hentered : r.Entered)
    (name : String) :
    (r.sectionOf name).lines? (linesUnder name r texts) = some (r'.sectionOf name) := by
  -- along the run; the lines that are left out are those that do not change the section
  induction h with
  | nil => rfl
  | @cons r t r' text texts hline _ ih =>
    have hrest := ih (hentered.of_line hline)
    have hfirst := sectionOf_of_line hline hentered name
    rw [linesUnder, hline]
    dsimp only
    split at hfirst
    · rename_i hown
      rw [if_pos hown, Section.lines?, hfirst]
      exact hrest
    · rename_i hother
      rw [if_neg hother, ← hfirst]
      exact hrest

theorem mem_of_mem_linesUnder {texts : List String} {l : String}
    (h : l ∈ linesUnder name r texts) : l ∈ texts := by
  induction texts generalizing r with
  | nil => cases h
  | cons text texts ih =>
    rw [linesUnder] at h
    split at h
    · split at h
      · rcases List.mem_cons.1 h with rfl | h
        · exact List.mem_cons_self
        · exact List.mem_cons_of_mem _ (ih h)
      · exact List.mem_cons_of_mem _ (ih h)
    · cases h

theorem reads_of_lines? {texts : List String} (hcurrent : r.current = some name)
    (hs : r.section? name = some s) (h : s.lines? texts = some s') :
    ∃ r', Reads r texts r' ∧ Replaced r r' name s' := by
  induction texts generalizing r s with
  | nil =>
    obtain rfl := Option.some.inj h
    exact ⟨r, .nil, replaced_self hs⟩
  | cons text texts ih =>
    obtain ⟨t, ht, hrest⟩ := Option.bind_eq_some_iff.1 h
    obtain ⟨other, -, hnone⟩ | ⟨r₁, t', -, hline, ht', hreplaced⟩ | ⟨-, hnone⟩ :=
      line_within hcurrent hs text
    · simp [ht] at hnone
    · obtain rfl : t = t' := Option.some.inj (ht.symm.trans ht')
      obtain ⟨r', hreads, hreplaced'⟩ := ih (hreplaced.current.trans hcurrent)
        (by rw [hreplaced.sections, if_pos rfl]) hrest
      exact ⟨r', .cons hline hreads, hreplaced.trans hreplaced'⟩
    · simp [ht] at hnone

end Progress

structure Block where
  name : String
  body : List String
  deriving DecidableEq, Repr

def Block.lines (b : Block) : List String :=
  ("[" ++ b.name ++ "]") :: b.body

def bodies (name : String) (blocks : List Block) : List String :=
  (blocks.filter (·.name == name)).flatMap Block.body

theorem bodies_cons_self (b : Block) (blocks : List Block) :
    bodies b.name (b :: blocks) = b.body ++ bodies b.name blocks := by
  simp [bodies]

theorem bodies_cons_of_ne {b : Block} {name : String} (h : name ≠ b.name) (blocks : List Block) :
    bodies name (b :: blocks) = bodies name blocks := by
  simp [bodies, Ne.symm h]

theorem mem_bodies {b : Block} {blocks : List Block} {l : String} (hb : b ∈ blocks)
    (hl : l ∈ b.body) : l ∈ bodies b.name blocks :=
  List.mem_flatMap.2 ⟨b, List.mem_filter.2 ⟨hb, beq_self_eq_true b.name⟩, hl⟩

theorem bodies_eq_nil {name : String} {blocks : List Block} (h : name ∉ blocks.map Block.name) :
    bodies name blocks = [] := by
  have hnone : blocks.filter (·.name == name) = [] := by
    rw [List.filter_eq_nil_iff]
    intro b hb heq
    exact h (List.mem_map.2 ⟨b, hb, by simpa using heq⟩)
  rw [bodies, hnone, List.flatMap_nil]

namespace Progress

variable {r r' : Progress} {s : Section}

theorem reads_block {b : Block} (hname : Plain b.name)
    (h : (r.sectionOf b.name).lines? b.body = some s) :
    ∃ r', Reads r b.lines r' ∧
      (∀ other, r'.sectionOf other = if other = b.name then s else r.sectionOf other) ∧
      ∀ other, other ∈ r'.sections.map Section.name ↔
        other ∈ r.sections.map Section.name ∨ other = b.name := by
  have hs : (r.enter b.name).section? b.name = some (r.sectionOf b.name) := by
    rw [section?_enter, if_pos rfl, sectionOf]
    cases r.section? b.name <;> rfl
  obtain ⟨r', hreads, hreplaced⟩ := reads_of_lines? (current_enter r b.name) hs h
  refine ⟨r', .cons (line_enter r hname) hreads, fun other => ?_, fun other => ?_⟩
  · rw [hreplaced.sectionOf, sectionOf_enter]
  · rw [hreplaced.names, names_enter]
    split
    · rename_i hold
      constructor
      · exact .inl
      · rintro (hother | rfl)
        · exact hother
        · exact hold
    · rw [List.mem_append, List.mem_singleton]

theorem reads_blocks {blocks : List Block} (hnames : ∀ b ∈ blocks, Plain b.name)
    (h : ∀ name, ∃ s, (r.sectionOf name).lines? (bodies name blocks) = some s) :
    ∃ r', Reads r (blocks.flatMap Block.lines) r' ∧
      (∀ name, (r.sectionOf name).lines? (bodies name blocks) = some (r'.sectionOf name)) ∧
      ∀ name, name ∈ r'.sections.map Section.name ↔
        name ∈ r.sections.map Section.name ∨ name ∈ blocks.map Block.name := by
  -- the sections so far go along, since a later block may go on with any of them
  induction blocks generalizing r with
  | nil => exact ⟨r, .nil, fun name => rfl, fun name => by simp⟩
  | cons b blocks ih =>
    obtain ⟨hname, hnames⟩ := List.forall_mem_cons.1 hnames
    obtain ⟨s, hs⟩ := h b.name
    rw [bodies_cons_self, Section.lines?_append] at hs
    obtain ⟨t, ht, hrest⟩ := Option.bind_eq_some_iff.1 hs
    obtain ⟨r₁, hreads, hsections, hmem⟩ := reads_block hname ht
    have hstep : ∀ name, (r.sectionOf name).lines? (bodies name (b :: blocks)) =
        (r₁.sectionOf name).lines? (bodies name blocks) := by
      intro name
      rw [hsections]
      by_cases hother : name = b.name
      · rw [if_pos hother, hother, bodies_cons_self, Section.lines?_append, ht, Option.bind_some]
      · rw [if_neg hother, bodies_cons_of_ne hother]
    obtain ⟨r', hreads', hsections', hmem'⟩ := ih hnames fun name => hstep name ▸ h name
    refine ⟨r', hreads.append hreads', fun name => ?_, fun name => ?_⟩
    · rw [hstep, hsections']
    · rw [hmem', hmem, List.map_cons, List.mem_cons, or_assoc]

theorem line_blank_behind (r : Progress) {l m : String} {c : Char} (hc : Text.isBlank c = true)
    (hl : l.toList = m.toList ++ [c]) : r.line l = r.line m := by
  have hblank : Text.isBlankText l = Text.isBlankText m := by simp [Text.isBlankText, hl, hc]
  cases hm : Text.isBlankText m with
  | true =>
    rw [line, line, hblank, hm]
    rfl
  | false =>
    have hne : m.toList ≠ [] := by
      intro hempty
      simp [Text.isBlankText, hempty] at hm
    have hhead : l.toList.head? = m.toList.head? := by rw [hl, List.head?_append_of_ne_nil _ hne]
    have htrim : Text.trim l = Text.trim m := by
      have hpad := Text.trimChars_pad_eq (l := []) (r := [c]) (by simp) (by simpa using hc) m.toList
      rw [← String.toList_inj, Text.toList_trim, Text.toList_trim, hl]
      simpa using hpad
    rw [line, line, hblank, isComment_eq, isComment_eq, isIndented, isIndented, hhead, htrim]

/-- So it does not matter whether the end of a line takes a carriage return with it. -/
theorem line_dropReturn (r : Progress) (l : String) :
    r.line (String.ofList (Text.dropReturn l.toList)) = r.line l := by
  obtain hsame | hdropped := Text.dropReturn_cases l.toList
  · rw [hsame, String.ofList_toList]
  · exact (line_blank_behind r (c := '\r') (by decide) (by rwa [String.toList_ofList])).symm

theorem mem_senses {texts : List String} {l : String × Sense} (h : l ∈ r.senses texts) :
    l.1 ∈ texts ∧ ∃ t : Progress, l.2 = t.sense l.1 := by
  induction texts generalizing r with
  | nil => cases h
  | cons text texts ih =>
    rw [senses] at h
    split at h
    · rcases List.mem_cons.1 h with rfl | h
      · exact ⟨List.mem_cons_self, r, rfl⟩
      · exact (ih h).imp_left (List.mem_cons_of_mem text)
    · cases h

theorem plain_of_header {l name : String} (hl : '\n' ∉ l.toList)
    (h : (r.sense l).header? = some name) : Plain name := by
  have hheader := plain_of_sense (Sense.header?_eq_some.1 h)
  obtain ⟨inner, rest, rfl, hline⟩ := ofText_eq_header hheader.symm
  refine ⟨Text.trim_trim inner, fun hfeed => hl ?_⟩
  rw [Text.toList_trim] at hfeed
  have hinner : '\n' ∈ Text.trimStartChars l.toList := by
    rw [hline]
    exact List.mem_cons_of_mem _ (List.mem_append_left _ (Text.mem_of_mem_trimChars hfeed))
  exact (List.dropWhile_sublist _).subset hinner

theorem Reads.lines_unlines {ls : List String} (h : Reads r ls r')
    (hls : ∀ l ∈ ls, '\n' ∉ l.toList) : Reads r (Text.lines (Text.unlines ls)) r' := by
  induction h with
  | nil => exact .nil
  | @cons r t r' l ls hline hreads ih =>
    obtain ⟨hl, hls⟩ := List.forall_mem_cons.1 hls
    cases ls with
    | nil =>
      rw [Text.lines_unlines_singleton hl]
      split
      -- an empty last line gets lost in the text, but it says nothing
      · rename_i hempty
        rw [hempty] at hline
        obtain rfl : r = t := Except.ok.inj hline
        exact hreads
      · exact .cons hline hreads
    | cons m ls =>
      rw [Text.lines_unlines_cons hl]
      exact .cons (by rw [line_dropReturn, hline]) (ih hls)

theorem mem_sections_iff (hnames : (r.sections.map Section.name).Nodup) :
    s ∈ r.sections ↔ s.name ∈ r.sections.map Section.name ∧ r.sectionOf s.name = s := by
  rw [← section?_eq_some_iff, section?, find?_key_eq_some hnames, and_iff_left rfl]

end Progress

namespace File

open Progress

def linesUnder (f : File) (name : String) : List String :=
  Progress.linesUnder name .start f.lines

variable {label text : String} {f : File}

theorem plain_of_mem_names (h : parse label text = .ok f) {name : String}
    (hname : name ∈ f.sections.map Section.name) : Plain name := by
  obtain ⟨l, hl, hheader⟩ := List.mem_filterMap.1 ((mem_names_iff h).1 hname)
  obtain ⟨hmem, r, hsense⟩ := mem_senses hl
  obtain ⟨_, -, rfl⟩ := parse_eq_ok h
  exact plain_of_header (Text.feed_not_mem_lines hmem) (hsense ▸ hheader)

/-- A section is what its own lines make of an empty one. -/
theorem mem_sections_iff_lines? (h : parse label text = .ok f) {s : Section} :
    s ∈ f.sections ↔ s.name ∈ f.sections.map Section.name ∧
      (⟨s.name, []⟩ : Section).lines? (f.linesUnder s.name) = some s := by
  have hnames := names_nodup h
  obtain ⟨r, hr, rfl⟩ := parse_eq_ok h
  have hlines := lines?_linesUnder (reads_of_lines hr) start_entered s.name
  have hempty : start.sectionOf s.name = ⟨s.name, []⟩ := rfl
  rw [hempty] at hlines
  change s ∈ r.sections ↔ _ ∧ Section.lines? _ (Progress.linesUnder s.name .start _) = some s
  rw [Progress.mem_sections_iff hnames, hlines, Option.some_inj]

theorem exists_parse_blocks (label : String) {blocks : List Block}
    (hnames : ∀ b ∈ blocks, Plain b.name) (hbodies : ∀ b ∈ blocks, ∀ l ∈ b.body, '\n' ∉ l.toList)
    (h : ∀ name, ∃ s, (⟨name, []⟩ : Section).lines? (bodies name blocks) = some s) :
    ∃ g, parse label (Text.unlines (blocks.flatMap Block.lines)) = .ok g ∧
      ∀ s, s ∈ g.sections ↔ s.name ∈ blocks.map Block.name ∧
        (⟨s.name, []⟩ : Section).lines? (bodies s.name blocks) = some s := by
  obtain ⟨r, hreads, hsections, hmem⟩ := reads_blocks (r := .start) hnames h
  have hfeed : ∀ l ∈ blocks.flatMap Block.lines, '\n' ∉ l.toList := by
    intro l hl
    obtain ⟨b, hb, hl⟩ := List.mem_flatMap.1 hl
    rcases List.mem_cons.1 hl with rfl | hl
    · simp [(hnames b hb).feed]
    · exact hbodies b hb l hl
  have hlines := (hreads.lines_unlines hfeed).lines label 1
  have hdistinct := (names_of_lines hlines).2 List.nodup_nil
  refine ⟨⟨label, _, r.sections⟩, by rw [parse, hlines]; rfl, fun s => ?_⟩
  have hempty : start.sectionOf s.name = ⟨s.name, []⟩ := rfl
  have hsection := hsections s.name
  rw [hempty] at hsection
  change s ∈ r.sections ↔ _
  rw [Progress.mem_sections_iff hdistinct, hmem, hsection, Option.some_inj]
  exact and_congr_left fun _ => or_iff_right List.not_mem_nil

theorem exists_parse_parts (h : parse label text = .ok f) {blocks : List Block}
    (hblocks : ∀ name ∈ blocks.map Block.name,
      name ∈ f.sections.map Section.name ∧ bodies name blocks = f.linesUnder name) :
    ∃ g, parse label (Text.unlines (blocks.flatMap Block.lines)) = .ok g ∧
      ∀ s, s ∈ g.sections ↔ s.name ∈ blocks.map Block.name ∧ s ∈ f.sections := by
  have hnames : ∀ b ∈ blocks, Plain b.name := fun b hb =>
    plain_of_mem_names h (hblocks b.name (List.mem_map_of_mem hb)).1
  have hfeed : ∀ b ∈ blocks, ∀ l ∈ b.body, '\n' ∉ l.toList := by
    intro b hb l hl
    have hunder : l ∈ f.linesUnder b.name :=
      (hblocks b.name (List.mem_map_of_mem hb)).2 ▸ mem_bodies hb hl
    have hmem : l ∈ f.lines := mem_of_mem_linesUnder hunder
    obtain ⟨_, -, rfl⟩ := parse_eq_ok h
    exact Text.feed_not_mem_lines hmem
  have hlines : ∀ name, ∃ s, (⟨name, []⟩ : Section).lines? (bodies name blocks) = some s := by
    intro name
    by_cases hname : name ∈ blocks.map Block.name
    · obtain ⟨hmem, hbodies⟩ := hblocks name hname
      obtain ⟨s, hs, rfl⟩ := List.mem_map.1 hmem
      rw [hbodies]
      exact ⟨s, ((mem_sections_iff_lines? h).1 hs).2⟩
    · rw [bodies_eq_nil hname]
      exact ⟨_, rfl⟩
  obtain ⟨g, hg, hsections⟩ := exists_parse_blocks label hnames hfeed hlines
  refine ⟨g, hg, fun s => ?_⟩
  rw [hsections, mem_sections_iff_lines? h]
  refine and_congr_right fun hname => ?_
  obtain ⟨hmem, hbodies⟩ := hblocks s.name hname
  rw [hbodies, and_iff_right hmem]

/-- A section has the same entries if its own lines stand behind one header of its name, and nothing
else is in the text. So the lines of all sections may be split under any number of headers and mixed
in any way. -/
theorem sections_apart {label text : String} {f : File} (h : parse label text = .ok f) :
    (∀ s ∈ f.sections, ∃ g,
        parse label (Text.unlines (("[" ++ s.name ++ "]") :: f.linesUnder s.name)) = .ok g ∧
          g.sections = [s]) ∧
      ∀ blocks : List Block,
        (∀ name, name ∈ blocks.map Block.name ↔ name ∈ f.sections.map Section.name) →
        (∀ s ∈ f.sections, bodies s.name blocks = f.linesUnder s.name) →
        ∃ g, parse label (Text.unlines (blocks.flatMap Block.lines)) = .ok g ∧
          g.sections.Perm f.sections := by
  have hnodup : ∀ {text : String} {g : File}, parse label text = .ok g → g.sections.Nodup :=
    fun hg => (names_nodup hg).of_map Section.name
  constructor
  · intro s hs
    have hone : ∀ name ∈ [(⟨s.name, f.linesUnder s.name⟩ : Block)].map Block.name,
        name ∈ f.sections.map Section.name ∧
          bodies name [⟨s.name, f.linesUnder s.name⟩] = f.linesUnder name := by
      intro name hname
      obtain rfl := List.mem_singleton.1 hname
      exact ⟨List.mem_map_of_mem hs, by simp [bodies]⟩
    obtain ⟨g, hg, hsections⟩ := exists_parse_parts h hone
    refine ⟨g, by simpa [Block.lines] using hg, List.perm_singleton.1 ?_⟩
    rw [List.perm_ext_iff_of_nodup (hnodup hg) (List.nodup_singleton s)]
    intro t
    rw [hsections, List.map_singleton, List.mem_singleton, List.mem_singleton]
    constructor
    · rintro ⟨hname, ht⟩
      exact List.inj_on_of_nodup_map (names_nodup h) ht hs hname
    · rintro rfl
      exact ⟨rfl, hs⟩
  · intro blocks hnames hbodies
    have hparts : ∀ name ∈ blocks.map Block.name,
        name ∈ f.sections.map Section.name ∧ bodies name blocks = f.linesUnder name := by
      intro name hname
      obtain ⟨s, hs, rfl⟩ := List.mem_map.1 ((hnames name).1 hname)
      exact ⟨List.mem_map_of_mem hs, hbodies s hs⟩
    obtain ⟨g, hg, hsections⟩ := exists_parse_parts h hparts
    refine ⟨g, hg, (List.perm_ext_iff_of_nodup (hnodup hg) (hnodup h)).2 fun s => ?_⟩
    rw [hsections, hnames]
    exact and_iff_right_of_imp List.mem_map_of_mem

/-- The loom again, with its lines taken apart. -/
def loomFile : File :=
  ⟨"loom.ini", loomLines ++ ["  fine"],
    [⟨"LOOM", [⟨"warp", "1\nfine"⟩]⟩, ⟨"DYE", [⟨"hue", "red"⟩]⟩]⟩

def loomBlocks : List Block :=
  [⟨"DYE", []⟩, ⟨"LOOM", ["warp = 1", "  fine"]⟩, ⟨"DYE", ["hue = red"]⟩]

theorem loom_apart :
    parse "loom.ini" (Text.unlines loomFile.lines) = .ok loomFile ∧
      (∃ g, parse "loom.ini" (Text.unlines ["[LOOM]", "warp = 1", "  fine"]) = .ok g ∧
        g.sections = [⟨"LOOM", [⟨"warp", "1\nfine"⟩]⟩]) ∧
      ∃ g, parse "loom.ini" (Text.unlines
          ["[DYE]", "[LOOM]", "warp = 1", "  fine", "[DYE]", "hue = red"]) = .ok g ∧
        g.sections.Perm loomFile.sections := by
  have hparse : parse "loom.ini" (Text.unlines loomFile.lines) = .ok loomFile :=
    parse_unlines (by repeat constructor) (by decide +kernel) (by decide +kernel)
  have hloom : loomFile.linesUnder "LOOM" = ["warp = 1", "  fine"] := by decide +kernel
  have hdye : loomFile.linesUnder "DYE" = ["hue = red"] := by decide +kernel
  obtain ⟨halone, hmixed⟩ := sections_apart hparse
  refine ⟨hparse, ?_, hmixed loomBlocks ?_ ?_⟩
  · have h := halone ⟨"LOOM", [⟨"warp", "1\nfine"⟩]⟩ List.mem_cons_self
    dsimp only at h
    rwa [hloom] at h
  · intro name
    simp [loomBlocks, loomFile, or_comm]
  · intro s hs
    rcases List.mem_pair.1 hs with rfl | rfl
    · exact hloom.symm
    · exact hdye.symm

end File

end Statechart.Design
