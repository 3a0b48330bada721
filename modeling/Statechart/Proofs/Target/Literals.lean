import Statechart.Target.Literal
import Statechart.Target.Fragment
import Statechart.Text.Letter

/-!
Literals and their values.

A number is read back from its digits. So is a text that was quoted, whatever its characters: each
of them is written as itself, behind a backslash, or by its number, and a reader can tell which.
-/
set_option autoImplicit false

namespace Statechart.Target.Literal

open Text (escapeChar escapeChars hexDigit hexDigits hasVisibleForm numbered quoted)

def number? (text : String) : Option Nat :=
  Text.decimalFrom? 0 text.toList

theorem decimalFrom?_digits {n : Nat} {cs : List Char} (h : ∀ c ∈ cs, c.isDigit = true) :
    Text.decimalFrom? n cs = some (Nat.ofDigitChars 10 cs n) := by
  induction cs generalizing n with
  | nil => rfl
  | cons c cs ih =>
    obtain ⟨hc, hcs⟩ := List.forall_mem_cons.1 h
    have hdigit : Text.isDigit c = true := by
      simpa [Text.isDigit, Char.isDigit, Char.le_def] using hc
    rw [Text.decimalFrom?, if_pos hdigit, ih hcs]
    rfl

theorem number?_toString (n : Nat) : number? (toString n) = some n := by
  have hdigits : (toString n).toList = Nat.toDigits 10 n := Nat.toList_repr
  rw [number?, hdigits, decimalFrom?_digits, Nat.ofDigitChars_toDigits (by decide) (by decide)]
  intro c hc
  exact Nat.isDigit_of_mem_toDigits (by decide) (by decide) hc

theorem hexDigit?_hexDigit : ∀ n < 16, hexDigit? (hexDigit n) = some n := by decide

theorem hexDigit_ne_closing : ∀ n < 16, hexDigit n ≠ '\x7d' := by decide

theorem hexValue_snoc (cs : List Char) {n : Nat} (h : n < 16) :
    hexValue (cs ++ [hexDigit n]) = 16 * hexValue cs + n := by
  simp [hexValue, hexDigit?_hexDigit n h]

theorem hexValue_hexDigits {width n : Nat} (h : n < Nat.pow 16 width) :
    hexValue (hexDigits width n) = n := by
  induction width generalizing n with
  | zero =>
    obtain rfl : n = 0 := Nat.lt_one_iff.1 h
    rfl
  | succ width ih =>
    have hpow : Nat.pow 16 (width + 1) = Nat.pow 16 width * 16 := rfl
    rw [hexDigits]
    split
    · rename_i hlt
      simpa [hexValue] using hexValue_snoc [] hlt
    · rw [hexValue_snoc _ (Nat.mod_lt _ (by decide)), ih (by omega)]
      omega

theorem mem_hexDigits {width n : Nat} {c : Char} (h : c ∈ hexDigits width n) :
    ∃ d < 16, c = hexDigit d := by
  induction width generalizing n with
  | zero => simp [hexDigits] at h
  | succ width ih =>
    rw [hexDigits] at h
    split at h
    · rename_i hlt
      exact ⟨n, hlt, by simpa using h⟩
    · rcases List.mem_append.1 h with h | h
      · exact ih h
      · exact ⟨n % 16, Nat.mod_lt _ (by decide), by simpa using h⟩

theorem toNat_lt (c : Char) : c.toNat < Nat.pow 16 8 := by
  have hvalid : c.toNat < 0x110000 := by
    rcases c.valid with h | h
    · exact Nat.lt_trans h (by decide)
    · exact h.2
  exact Nat.lt_trans hvalid (by decide)

theorem cooked_numbered (fuel : Nat) (c : Char) (rest : List Char) :
    cooked (fuel + 1) (numbered c ++ rest) = (cooked fuel rest).map (c :: ·) := by
  have hdigits : ∀ x ∈ '\x7b' :: hexDigits 8 c.toNat, decide (x ≠ '\x7d') = true := by
    intro x hx
    rcases List.mem_cons.1 hx with rfl | hx
    · decide
    · obtain ⟨d, hd, rfl⟩ := mem_hexDigits hx
      exact decide_eq_true (hexDigit_ne_closing d hd)
  have htake : (('\x7b' :: hexDigits 8 c.toNat) ++ '\x7d' :: rest).takeWhile
      (fun x => decide (x ≠ '\x7d')) = '\x7b' :: hexDigits 8 c.toNat := by
    rw [List.takeWhile_append_of_pos hdigits]
    simp
  have hvalue : hexValue ('\x7b' :: hexDigits 8 c.toNat) = c.toNat := by
    have hskip : hexValue ('\x7b' :: hexDigits 8 c.toNat) = hexValue (hexDigits 8 c.toNat) := rfl
    rw [hskip, hexValue_hexDigits (toNat_lt c)]
  have hshape : numbered c ++ rest =
      '\\' :: 'u' :: (('\x7b' :: hexDigits 8 c.toNat) ++ '\x7d' :: rest) := by
    simp [numbered]
  rw [hshape, cooked, htake, hvalue]
  simp

theorem cooked_plain (fuel : Nat) {c : Char} (rest : List Char) (hreturn : c ≠ '\r')
    (hquote : c ≠ '"') (hslash : c ≠ '\\') :
    cooked (fuel + 1) (c :: rest) = (cooked fuel rest).map (c :: ·) := by
  rw [cooked]
  all_goals simp_all

theorem cooked_escapeChar (fuel : Nat) (c : Char) (rest : List Char) :
    cooked (fuel + 1) (escapeChar c ++ rest) = (cooked fuel rest).map (c :: ·) := by
  by_cases htab : c = '\t'
  · subst htab
    rfl
  by_cases hreturn : c = '\r'
  · subst hreturn
    rfl
  by_cases hfeed : c = '\n'
  · subst hfeed
    rfl
  by_cases hquote : c = '"'
  · subst hquote
    rfl
  by_cases hslash : c = '\\'
  · subst hslash
    rfl
  rw [escapeChar, if_neg htab, if_neg hreturn, if_neg hfeed, if_neg hquote, if_neg hslash]
  cases hasVisibleForm c with
  | true => exact cooked_plain fuel rest hreturn hquote hslash
  | false => exact cooked_numbered fuel c rest

/-- A null has two spellings; after either of them the rest is read as it stands. -/
theorem cooked_null (fuel : Nat) {c : Char} (h : c.toNat = 0) (spelling rest : List Char)
    (hs : spelling = ['\\', 'x', '0', '0'] ∨ spelling = ['\\', '0']) :
    cooked (fuel + 1) (spelling ++ rest) = (cooked fuel rest).map (c :: ·) := by
  obtain rfl : c = Char.ofNat 0 := by rw [← h, Char.ofNat_toNat]
  rcases hs with rfl | rfl
  · rfl
  · rfl

theorem escapeChars_cons (c : Char) (cs : List Char) :
    ∃ spelling, escapeChars (c :: cs) = spelling ++ escapeChars cs ∧
      (spelling = escapeChar c ∨
        c.toNat = 0 ∧ (spelling = ['\\', 'x', '0', '0'] ∨ spelling = ['\\', '0'])) := by
  by_cases hnull : c.toNat = 0
  · cases cs with
    | nil => exact ⟨_, by simp [escapeChars, hnull], .inr ⟨hnull, .inr rfl⟩⟩
    | cons d ds =>
      by_cases hoctal : '0' ≤ d ∧ d ≤ '7'
      · refine ⟨['\\', 'x', '0', '0'], ?_, .inr ⟨hnull, .inl rfl⟩⟩
        rw [escapeChars, if_pos hnull]
        simp only [if_pos hoctal]
      · refine ⟨['\\', '0'], ?_, .inr ⟨hnull, .inr rfl⟩⟩
        rw [escapeChars, if_pos hnull]
        simp only [if_neg hoctal]
  · refine ⟨escapeChar c, ?_, .inl rfl⟩
    cases cs <;> simp [escapeChars, hnull]

theorem cooked_escapeChars {fuel : Nat} {cs : List Char} (rest : List Char)
    (h : cs.length < fuel) : cooked fuel (escapeChars cs ++ '"' :: rest) = some cs := by
  induction cs generalizing fuel with
  | nil =>
    obtain ⟨fuel, rfl⟩ := Nat.exists_eq_add_one_of_ne_zero (Nat.ne_of_gt h)
    rfl
  | cons c cs ih =>
    obtain ⟨fuel, rfl⟩ := Nat.exists_eq_add_one_of_ne_zero (Nat.ne_of_gt (Nat.zero_lt_of_lt h))
    have hrest := ih (Nat.lt_of_succ_lt_succ h)
    obtain ⟨spelling, hcons, hspelling⟩ := escapeChars_cons c cs
    rw [hcons, List.append_assoc]
    rcases hspelling with rfl | ⟨hnull, hspelling⟩
    · rw [cooked_escapeChar, hrest, Option.map_some]
    · rw [cooked_null fuel hnull spelling _ hspelling, hrest, Option.map_some]

theorem escapeChar_ne_nil (c : Char) : escapeChar c ≠ [] := by
  unfold escapeChar
  repeat' split
  all_goals simp [numbered]

theorem length_le_escapeChars (cs : List Char) : cs.length ≤ (escapeChars cs).length := by
  induction cs with
  | nil => exact Nat.le_refl _
  | cons c cs ih =>
    obtain ⟨spelling, hcons, hspelling⟩ := escapeChars_cons c cs
    have hpos : 0 < spelling.length := by
      rcases hspelling with rfl | ⟨-, rfl | rfl⟩
      · exact List.length_pos_iff.2 (escapeChar_ne_nil c)
      · decide
      · decide
    rw [hcons, List.length_cons, List.length_append]
    omega

/-- The value of a quoted text is the text. -/
theorem string?_quoted (s : String) : string? (quoted s) = some s := by
  have hchars : (quoted s).toList = '"' :: (escapeChars s.toList ++ ['"']) := by
    simp [quoted]
  have hlen : s.toList.length < (escapeChars s.toList ++ ['"']).length + 1 := by
    have hle := length_le_escapeChars s.toList
    rw [List.length_append]
    omega
  rw [string?, hchars]
  simp only [cooked_escapeChars [] hlen, Option.map_some, String.ofList_toList]

end Statechart.Target.Literal
