import Statechart.Chart.Callback
import Statechart.Proofs.Design.Written

/-!
Callbacks in brackets that are written down and read again.

The name ends at the first comma, the pieces at the semicolons, and only the last bracket closes.
So a piece may hold commas, parentheses, quotes and brackets of its own, and a blank may be a line
feed instead, as it is where the value of an entry goes on in further lines.
-/
set_option autoImplicit false

namespace Statechart.Callback

structure IsHead (name : String) : Prop extends Design.Plain name where
  comma : ',' ∉ name.toList

structure IsPiece (piece : String) : Prop extends Design.Plain piece where
  nonempty : piece ≠ ""
  semicolon : ';' ∉ piece.toList

/-- What stands in the brackets: a call, and the pieces behind a comma if there are any. -/
def inner (name : String) (pieces : List String) : String :=
  name ++ "()" ++ if pieces.isEmpty then "" else ", " ++ "; ".intercalate pieces

def written (name : String) (pieces : List String) : String :=
  "[" ++ inner name pieces ++ "]"

def Breaks (c d : Char) : Prop :=
  d = c ∨ c = ' ' ∧ d = '\n'

instance : DecidableRel Breaks := fun c d =>
  inferInstanceAs (Decidable (d = c ∨ c = ' ' ∧ d = '\n'))

/-- The same text, where any of the blanks may be line feeds. -/
def Broken (text broken : String) : Prop :=
  List.Forall₂ Breaks text.toList broken.toList

instance (text broken : String) : Decidable (Broken text broken) :=
  inferInstanceAs (Decidable (List.Forall₂ Breaks text.toList broken.toList))

theorem flatten_eq_self {cs : List Char} (h : '\n' ∉ cs) : flatten cs = cs := by
  rw [flatten]
  conv_rhs => rw [← List.map_id cs]
  apply List.map_congr_left
  intro c hc
  have hne : c ≠ '\n' := fun heq => h (heq ▸ hc)
  simp [hne]

theorem flatten_of_breaks {cs ds : List Char} (h : List.Forall₂ Breaks cs ds) :
    flatten ds = flatten cs := by
  induction h with
  | nil => rfl
  | @cons c d cs ds hcd _ ih =>
    have hsame : flatten [d] = flatten [c] := by
      obtain rfl | ⟨rfl, rfl⟩ := hcd
      · rfl
      · decide
    change flatten [d] ++ flatten ds = flatten [c] ++ flatten cs
    rw [hsame, ih]

theorem ofBody_congr {body body' : String} (h : flatten body'.toList = flatten body.toList) :
    ofBody body' = ofBody body := by
  rw [ofBody, ofBody, h]

/-- Brackets are no blanks, so they stay where they are. -/
theorem Broken.brackets {body text : String} (h : Broken ("[" ++ body ++ "]") text) :
    ∃ body', text = "[" ++ body' ++ "]" ∧ Broken body body' := by
  have hopen : ∀ d, Breaks '[' d → d = '[' := by
    rintro d (rfl | ⟨hblank, -⟩)
    · rfl
    · exact absurd hblank (by decide)
  have hclose : ∀ d, Breaks ']' d → d = ']' := by
    rintro d (rfl | ⟨hblank, -⟩)
    · rfl
    · exact absurd hblank (by decide)
  have hchars : ("[" ++ body ++ "]").toList = '[' :: (body.toList ++ [']']) := by simp
  rw [Broken, hchars] at h
  obtain ⟨d, ds, hd, hds, htext⟩ := List.forall₂_cons_left_iff.1 h
  obtain ⟨inside, behind, rfl, hinside, hbehind⟩ := forall₂_append_left.1 hds
  obtain ⟨e, es, he, hes, rfl⟩ := List.forall₂_cons_left_iff.1 hbehind
  obtain rfl := List.forall₂_nil_left_iff.1 hes
  refine ⟨String.ofList inside, ?_, by rwa [Broken, String.toList_ofList]⟩
  rw [← String.toList_inj, htext, hopen d hd, hclose e he]
  simp

theorem ofText_brackets (body : String) : ofText ("[" ++ body ++ "]") = ofBody body := by
  have habsent : Design.isAbsent ("[" ++ body ++ "]") = false := by
    have hnone : "[" ++ body ++ "]" ≠ "None" := by
      intro heq
      have hchars := congrArg (fun s : String => s.toList.head?) heq
      simp at hchars
    rw [Design.isAbsent, Text.trim_brackets]
    simp [hnone]
  have hdrop : Text.dropHead? "[" ("[" ++ body ++ "]") = some (body ++ "]") := by
    rw [String.append_assoc, Text.dropHead?_append]
  simp only [ofText, Text.trim_brackets, habsent, Bool.false_eq_true, if_false, hdrop,
    Text.dropTail?_append, Option.getD_some]

theorem dropCall_call {name : String} (h : IsHead name) :
    dropCall (Text.trim (name ++ "()")) = name := by
  have hcall : name ++ "()" = name ++ String.singleton '(' ++ ")" := by
    rw [← String.toList_inj]
    simp
  have htrim : Text.trim (name ++ "()") = name ++ "()" := by
    rw [hcall]
    exact Text.trim_around h.trimmed (by decide) (by decide)
  rw [htrim, dropCall, Text.dropTail?_append, Option.getD_some, h.trimmed]

/-- Pieces that were joined are told apart again, each with the blank in front of it. -/
theorem splitChars_joined {pieces : List String} (h : ∀ p ∈ pieces, IsPiece p) (hne : pieces ≠ []) :
    Text.splitChars ';' (' ' :: ("; ".intercalate pieces).toList) =
      pieces.map fun p => ' ' :: p.toList := by
  have hpiece : ∀ p, IsPiece p → ';' ∉ ' ' :: p.toList := by
    intro p hp
    simpa using hp.semicolon
  induction pieces with
  | nil => exact absurd rfl hne
  | cons p pieces ih =>
    obtain ⟨hp, hpieces⟩ := List.forall_mem_cons.1 h
    cases pieces with
    | nil =>
      rw [String.intercalate_singleton, Text.splitChars_of_not_mem (hpiece p hp)]
      rfl
    | cons q pieces =>
      have hjoin : ' ' :: ("; ".intercalate (p :: q :: pieces)).toList =
          (' ' :: p.toList) ++ ';' :: (' ' :: ("; ".intercalate (q :: pieces)).toList) := by
        simp [String.intercalate_cons_cons]
      rw [hjoin, Text.splitChars_append, Text.splitChars_of_not_mem (hpiece p hp),
        ih hpieces (by simp)]
      rfl

theorem pieces_joined {ps : List String} (h : ∀ p ∈ ps, IsPiece p) (hne : ps ≠ []) :
    pieces (" " ++ "; ".intercalate ps) = ps := by
  have hchars : (" " ++ "; ".intercalate ps).toList = ' ' :: ("; ".intercalate ps).toList := by simp
  have htrim : ∀ p ∈ ps, Text.trim (String.ofList (' ' :: p.toList)) = p := by
    intro p hp
    have hpad := Text.trimChars_pad (l := [' ']) (r := []) (h p hp).toPlain.trimChars
      Design.isBlank_space (by simp)
    rw [← String.toList_inj]
    simpa using hpad
  have hsplit : (Text.split ';' (" " ++ "; ".intercalate ps)).map Text.trim = ps := by
    rw [Text.split, hchars, splitChars_joined h hne, List.map_map, List.map_map]
    conv_rhs => rw [← List.map_id ps]
    exact List.map_congr_left htrim
  rw [pieces, hsplit, List.filter_eq_self]
  intro p hp
  simpa using (h p hp).nonempty

theorem feed_not_mem_inner {name : String} {pieces : List String} (hname : IsHead name)
    (hpieces : ∀ p ∈ pieces, IsPiece p) : '\n' ∉ (inner name pieces).toList := by
  have hjoined : '\n' ∉ ("; ".intercalate pieces).toList := by
    induction pieces with
    | nil => simp
    | cons p pieces ih =>
      obtain ⟨hp, hpieces⟩ := List.forall_mem_cons.1 hpieces
      cases pieces with
      | nil => simpa using hp.feed
      | cons q pieces => simpa [String.intercalate_cons_cons, hp.feed] using ih hpieces
  unfold inner
  split
  · simp [hname.feed]
  · simpa [hname.feed] using hjoined

theorem ofBody_inner {name : String} {pieces : List String} (hname : IsHead name)
    (hpieces : ∀ p ∈ pieces, IsPiece p) :
    ofBody (inner name pieces) = .structured name pieces := by
  have hcomma : Text.containsChar ',' (name ++ "()") = false := by
    simp [Text.containsChar, hname.comma]
  rw [ofBody, flatten_eq_self (feed_not_mem_inner hname hpieces), String.ofList_toList]
  cases pieces with
  | nil =>
    have hinner : inner name [] = name ++ "()" := by simp [inner]
    have hcut : Text.cut? (· = ',') (inner name []) = none := by
      rw [← Option.not_isSome_iff_eq_none, Text.isSome_cut?, hinner, hcomma]
      exact Bool.false_ne_true
    simp only [hcut]
    rw [hinner, dropCall_call hname]
  | cons p pieces =>
    have hinner : inner name (p :: pieces) =
        name ++ "()" ++ String.singleton ',' ++ (" " ++ "; ".intercalate (p :: pieces)) := by
      rw [← String.toList_inj]
      simp [inner]
    have hcut : Text.cut? (· = ',') (inner name (p :: pieces)) =
        some (name ++ "()", " " ++ "; ".intercalate (p :: pieces)) := by
      rw [hinner, Text.cut?_around hcomma]
    simp only [hcut]
    rw [dropCall_call hname, pieces_joined hpieces (by simp)]

/-- A callback in brackets is read as it was written, whichever of its blanks are line feeds. -/
theorem ofText_written {name : String} {pieces : List String} (hname : IsHead name)
    (hpieces : ∀ p ∈ pieces, IsPiece p) :
    ofText (written name pieces) = .structured name pieces ∧
      ∀ text, Broken (written name pieces) text → ofText text = .structured name pieces := by
  constructor
  · rw [written, ofText_brackets, ofBody_inner hname hpieces]
  · intro text htext
    obtain ⟨body, rfl, hbody⟩ := htext.brackets
    rw [ofText_brackets, ofBody_congr (flatten_of_breaks hbody), ofBody_inner hname hpieces]

theorem tick_written :
    IsHead "tick" ∧ (∀ p ∈ ["put(a[0], \"x]\")", "b]"], IsPiece p) ∧
      ofText "[tick(), put(a[0], \"x]\"); b]]" =
        .structured "tick" ["put(a[0], \"x]\")", "b]"] ∧
      ofText "[tick(), put(a[0], \"x]\");\nb]]" =
        .structured "tick" ["put(a[0], \"x]\")", "b]"] := by
  have hname : IsHead "tick" := ⟨⟨by decide, by decide⟩, by decide⟩
  have hpieces : ∀ p ∈ ["put(a[0], \"x]\")", "b]"], IsPiece p := by
    intro p hp
    rcases List.mem_pair.1 hp with rfl | rfl
    · exact ⟨⟨by decide, by decide⟩, by decide, by decide⟩
    · exact ⟨⟨by decide, by decide⟩, by decide, by decide⟩
  have hwritten : written "tick" ["put(a[0], \"x]\")", "b]"] =
      "[tick(), put(a[0], \"x]\"); b]]" := by
    decide +kernel
  obtain ⟨hread, hbroken⟩ := ofText_written hname hpieces
  rw [hwritten] at hread hbroken
  exact ⟨hname, hpieces, hread, hbroken _ (by decide +kernel)⟩

end Statechart.Callback
