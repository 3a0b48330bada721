import Statechart.Proofs.Design.Written
import Statechart.Proofs.Work

/-!
Lines read character by character.

The reader of lines cuts texts and puts their parts together again at every step. Here the
characters of a line stay a list until a name, a key or a value is made of them, which reads the
same. So a design that is written out line by line can be read by evaluation.
-/
set_option autoImplicit false

namespace Statechart.Design

inductive Spelled : List String → List (List Char) → Prop where
  | nil : Spelled [] []
  | cons {cs : List Char} {ls : List String} {css : List (List Char)} :
      Spelled ls css → Spelled (String.ofList cs :: ls) (cs :: css)
  | joined {cs ds : List Char} {ls : List String} {css : List (List Char)} :
      Spelled ls css → Spelled ((String.ofList cs ++ String.ofList ds) :: ls) ((cs ++ ds) :: css)

theorem Spelled.eq_map {ls : List String} {css : List (List Char)} (h : Spelled ls css) :
    ls = css.map String.ofList := by
  induction h with
  | nil => rfl
  | cons h ih => rw [ih, List.map_cons]
  | joined h ih => rw [ih, List.map_cons, String.ofList_append]

namespace Line

def headerOf (rest : List Char) : Line :=
  match Text.dropHeadChars? [']'] rest.reverse with
  | some name => header (String.ofList (Text.trimChars name.reverse))
  | none => faulty .unclosedHeader

def entryOf (cs : List Char) : Line :=
  match Text.cutChars? (fun c => c = ':' || c = '=') cs with
  | some (key, value) =>
    let key := (Text.trimChars key).map Text.lowerChar
    if key.isEmpty then faulty .emptyKey
    else entry (String.ofList key) (String.ofList (Text.trimChars value))
  | none => faulty .noSeparator

def ofChars (cs : List Char) : Line :=
  match Text.dropHeadChars? ['['] cs with
  | some rest => headerOf rest
  | none => entryOf cs

theorem ofHeader_ofList (rest : List Char) : ofHeader (String.ofList rest) = headerOf rest := by
  rw [ofHeader, headerOf, Text.dropTail?, String.toList_ofList, String.toList_ofList,
    List.reverse_singleton]
  cases Text.dropHeadChars? [']'] rest.reverse with
  | none => rfl
  | some name => simp only [Option.map_some, Text.trim, String.toList_ofList]

theorem ofEntry_ofList (cs : List Char) : ofEntry (String.ofList cs) = entryOf cs := by
  rw [ofEntry, entryOf, Text.cut?, String.toList_ofList]
  cases Text.cutChars? (fun c => c = ':' || c = '=') cs with
  | none => rfl
  | some sides =>
    obtain ⟨key, value⟩ := sides
    simp only [Option.map_some, Text.trim, Text.lower, String.toList_ofList, String.isEmpty_iff,
      String.ofList_eq_empty_iff, List.isEmpty_iff]

theorem ofText_ofList (cs : List Char) : ofText (String.ofList cs) = ofChars cs := by
  rw [ofText, ofChars, Text.dropHead?, String.toList_ofList, String.toList_ofList]
  cases Text.dropHeadChars? ['['] cs with
  | none => exact ofEntry_ofList cs
  | some rest => exact ofHeader_ofList rest

end Line

namespace Progress

def lineOf (r : Progress) (cs : List Char) : Except LineFault Progress :=
  if cs.all Text.isBlank || decide (cs.head? = some '#' ∨ cs.head? = some ';') then .ok r
  else
    match if cs.head?.any Text.isBlank then r.continued? else none with
    | some name => .ok (r.update name (·.continueLast (String.ofList (Text.trimChars cs))))
    | none => r.take (Line.ofChars (Text.trimChars cs))

def linesOf? : Progress → List (List Char) → Option Progress
  | r, [] => some r
  | r, cs :: css => (r.lineOf cs).toOption.bind fun r' => linesOf? r' css

theorem line_ofList (r : Progress) (cs : List Char) : r.line (String.ofList cs) = r.lineOf cs := by
  rewrite [line, lineOf, isComment_eq, isIndented, Text.isBlankText, Text.trim,
    String.toList_ofList, Line.ofText_ofList]
  rfl

theorem lines_of_linesOf? {label : String} {n : Nat} {r last : Progress} {css : List (List Char)}
    (h : r.linesOf? css = some last) :
    lines label n r (css.map String.ofList) = .ok last := by
  induction css generalizing n r with
  | nil => exact congrArg _ (Option.some.inj h)
  | cons cs css ih =>
    obtain ⟨r', hline, hrest⟩ := Option.bind_eq_some_iff.1 h
    rw [List.map_cons, lines, line_ofList, ok_of_toOption hline]
    exact ih hrest

end Progress

theorem File.parse_unlines {label : String} {lines : List String} {css : List (List Char)}
    {sections : List Section} (hspelled : Spelled lines css)
    (hplain : (∀ cs ∈ css, '\n' ∉ cs ∧ '\r' ∉ cs) ∧ ∀ cs ∈ css.getLast?, cs ≠ [])
    (hread : (Progress.start.linesOf? css).map Progress.sections = some sections) :
    File.parse label (Text.unlines lines) = .ok ⟨label, lines, sections⟩ := by
  obtain rfl := hspelled.eq_map
  obtain ⟨last, hlines, rfl⟩ := Option.map_eq_some_iff.1 hread
  rw [File.parse, Text.lines_unlines, Progress.lines_of_linesOf? hlines]
  · rfl
  · intro l hl
    obtain ⟨cs, hcs, rfl⟩ := List.mem_map.1 hl
    rw [String.toList_ofList]
    exact hplain.1 cs hcs
  · intro l hl
    rw [List.getLast?_map] at hl
    obtain ⟨cs, hcs, rfl⟩ := Option.map_eq_some_iff.1 hl
    exact fun hempty => hplain.2 cs hcs (String.ofList_eq_empty_iff.1 hempty)

end Statechart.Design
