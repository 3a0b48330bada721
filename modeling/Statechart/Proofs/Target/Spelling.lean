import Statechart.Proofs.Target.Source
import Statechart.Target.Fragment

/-!
Spellings of identifiers and templates.

The identifiers among the tokens of a text are words, perhaps after a raw mark. Such a spelling,
read alone, is that identifier again. A template is a literal, and its tokens are those of its
characters.
-/
set_option autoImplicit false

namespace Statechart.Target

namespace Lexer

open Statechart.Text

def IsWord (cs : List Char) : Prop :=
  ∃ c rest, cs = c :: rest ∧ isIdentStart c = true ∧ ∀ d ∈ rest, isIdentContinue d = true

def Spelled (text : String) : Prop :=
  IsWord text.toList ∨ ∃ cs, text.toList = 'r' :: '#' :: cs ∧ IsWord cs ∧
    neverRaw.contains (String.ofList cs) = false

theorem isIdentContinue_of_isIdentStart {c : Char} (h : isIdentStart c = true) :
    isIdentContinue c = true := by
  unfold isIdentContinue
  unfold isIdentStart at h ⊢
  split
  · rename_i hascii
    rw [if_pos hascii] at h
    simp [h]
  · rename_i hascii
    rw [if_neg hascii] at h
    simp [h]

theorem ne_of_isIdentContinue {c k : Char} (h : isIdentContinue c = true)
    (hk : isIdentContinue k = false) : c ≠ k := by
  intro hc
  rw [hc, hk] at h
  cases h

theorem ne_of_isIdentStart {c k : Char} (h : isIdentStart c = true)
    (hk : isIdentStart k = false) : c ≠ k := by
  intro hc
  rw [hc, hk] at h
  cases h

theorem IsWord.not_mem {cs : List Char} (h : IsWord cs) {k : Char}
    (hk : isIdentContinue k = false) : k ∉ cs := by
  obtain ⟨c, rest, rfl, hc, hrest⟩ := h
  intro hmem
  obtain rfl | hmem := List.mem_cons.1 hmem
  · exact ne_of_isIdentContinue (isIdentContinue_of_isIdentStart hc) hk rfl
  · exact ne_of_isIdentContinue (hrest k hmem) hk rfl

theorem identPlain_eq_some {cs rest : List Char} (h : identPlain cs = some rest) :
    ∃ word, IsWord word ∧ cs = word ++ rest := by
  cases cs with
  | nil => cases h
  | cons c cs =>
    rw [identPlain] at h
    split at h
    · rename_i hc
      obtain rfl := Option.some.inj h
      refine ⟨c :: cs.takeWhile isIdentContinue, ⟨c, _, rfl, hc, ?_⟩, ?_⟩
      · intro d hd
        exact List.mem_takeWhile_imp hd
      · rw [List.cons_append, List.takeWhile_append_dropWhile]
    · cases h

theorem consumed_append (word rest : List Char) :
    consumed (word ++ rest) rest = String.ofList word := by
  simp [consumed]

theorem spelled_of_ident {cs rest : List Char} (h : ident cs = some rest) :
    Spelled (consumed cs rest) := by
  unfold ident at h
  split at h
  · cases h
  · unfold identAny at h
    split at h
    · rename_i after
      split at h
      · rename_i found hplain
        split at h
        · cases h
        · rename_i hraw
          obtain rfl := Option.some.inj h
          obtain ⟨word, hword, rfl⟩ := identPlain_eq_some hplain
          rw [consumed_append] at hraw
          rw [← List.cons_append, ← List.cons_append, consumed_append]
          exact .inr ⟨word, String.toList_ofList, hword, by simpa using hraw⟩
      · cases h
    · obtain ⟨word, hword, rfl⟩ := identPlain_eq_some h
      rw [consumed_append]
      exact .inl (by simpa using hword)

/-- The identifiers of a stream, those inside its groups apart, are spelled. -/
def AllSpelled (ts : List Token) : Prop :=
  ∀ i, .ident i ∈ ts → Spelled i

theorem punct?_eq_some {cs rest : List Char} {t : Token} (h : punct? cs = some (t, rest)) :
    ∃ c joint, t = .punct c joint := by
  unfold punct? at h
  split at h
  · split at h
    · split at h
      · cases h
      · split at h
        · cases h
          exact ⟨_, _, rfl⟩
        · cases h
      · cases h
        exact ⟨_, _, rfl⟩
    · cases h
  · split at h
    · cases h
      exact ⟨_, _, rfl⟩
    · cases h
  · cases h

theorem spelled_of_leaf? {cs rest : List Char} {i : String}
    (h : leaf? cs = some (.ident i, rest)) : Spelled i := by
  unfold leaf? at h
  split at h
  · cases h
  · split at h
    · rename_i hpunct
      obtain ⟨_, _, hno⟩ := punct?_eq_some (hpunct.trans h)
      cases hno
    · split at h
      · rename_i hident
        cases h
        exact spelled_of_ident hident
      · cases h

theorem not_mem_docTokens (i : String) (text : List Char) (inner : Bool) :
    Token.ident i ∉ docTokens text inner := by
  cases inner <;> simp [docTokens, Token.op, Token.opChars, Token.brackets]

theorem spelled_of_advance {frames frames' : List Frame} {done done' : List Token}
    {cs cs' : List Char} (h : advance frames done cs = .inr (frames', done', cs'))
    (hdone : AllSpelled done) (hframes : ∀ f ∈ frames, AllSpelled f.1) :
    AllSpelled done' ∧ ∀ f ∈ frames', AllSpelled f.1 := by
  unfold advance at h
  split at h
  · rename_i text inner _ _
    split at h
    · cases h
      refine ⟨?_, hframes⟩
      intro i hi
      obtain hi | hi := List.mem_append.1 hi
      · exact absurd (List.mem_reverse.1 hi) (not_mem_docTokens i text inner)
      · exact hdone i hi
    · cases h
  · split at h
    · cases h
    · split at h
      · cases h
        refine ⟨by simp [AllSpelled], ?_⟩
        exact List.forall_mem_cons.2 ⟨hdone, hframes⟩
      · split at h
        · split at h
          · split at h
            · cases h
              obtain ⟨hbefore, houter⟩ := List.forall_mem_cons.1 hframes
              refine ⟨?_, houter⟩
              intro i hi
              exact hbefore i (by simpa using hi)
            · cases h
          · cases h
        · split at h
          · rename_i t rest hleaf
            cases h
            refine ⟨?_, hframes⟩
            intro i hi
            obtain rfl | hi := List.mem_cons.1 hi
            · exact spelled_of_leaf? hleaf
            · exact hdone i hi
          · cases h

theorem spelled_of_run {n : Nat} {frames : List Frame} {done ts : List Token} {cs : List Char}
    (h : run n frames done cs = some ts) (hdone : AllSpelled done)
    (hframes : ∀ f ∈ frames, AllSpelled f.1) : AllSpelled ts := by
  induction n generalizing frames done cs with
  | zero => cases h
  | succ n ih =>
    rw [run_eq] at h
    cases hstep : advance frames done (skip (cs.length + 1) cs) with
    | inr next =>
      rw [hstep] at h
      obtain ⟨hdone', hframes'⟩ := spelled_of_advance hstep hdone hframes
      exact ih h hdone' hframes'
    | inl result =>
      -- the lexer stops with what it has read
      have hresult : result = none ∨ result = some done.reverse := by
        unfold advance at hstep
        grind
      rw [hstep] at h
      obtain rfl | rfl := hresult
      · cases h
      · obtain rfl := Option.some.inj h
        intro i hi
        exact hdone i (List.mem_reverse.1 hi)

theorem spelled_of_tokens? {text : String} {ts : List Token} (h : tokens? text = some ts) :
    AllSpelled ts :=
  spelled_of_run h (by simp [AllSpelled]) (by simp)

theorem hasHead_eq_false {head : String} {cs : List Char} {k : Char} (hk : k ∈ head.toList)
    (h : k ∉ cs) : hasHead head cs = false := by
  cases hh : hasHead head cs with
  | false => rfl
  | true =>
    obtain ⟨rest, rfl⟩ := eq_append_of_hasHead hh
    exact absurd (List.mem_append_left rest hk) h

theorem docComment?_of_ne {c : Char} (h : c ≠ '/') (cs : List Char) :
    docComment? (c :: cs) = none := by
  have hhead : ∀ head : String, head.toList.head? = some '/' → hasHead head (c :: cs) = false := by
    intro head hslash
    cases hh : hasHead head (c :: cs) with
    | false => rfl
    | true =>
      obtain ⟨rest, hcs⟩ := eq_append_of_hasHead hh
      cases hchars : head.toList with
      | nil => simp [hchars] at hslash
      | cons k ks =>
        rw [hchars] at hcs hslash
        exact absurd ((List.cons.inj hcs).1.trans (Option.some.inj hslash)) h
  unfold docComment?
  simp [hhead "//!" (by decide), hhead "/*!" (by decide), hhead "///" (by decide),
    hhead "/**" (by decide)]

theorem rawOpening_eq_none {n : Nat} {cs : List Char} (h : '"' ∉ cs) : rawOpening n cs = none := by
  induction cs generalizing n with
  | nil => rfl
  | cons c cs ih =>
    obtain ⟨hc, hcs⟩ := not_or.1 (mt List.mem_cons.2 h)
    unfold rawOpening
    split
    · rename_i heq
      obtain ⟨-, rfl⟩ := List.cons.inj heq
      exact ih hcs
    · rename_i heq
      exact absurd (List.cons.inj heq).1.symm hc
    · rfl

theorem isDecimal_eq_false {c : Char} (hc : isIdentStart c = true) : isDecimal c = false := by
  unfold isIdentStart at hc
  by_contra hd
  have hrange : 48 ≤ c.val.toNat ∧ c.val.toNat ≤ 57 := by
    simpa [isDecimal, Char.le_def, UInt32.le_iff_toNat_le] using hd
  rw [if_pos (show c.toNat < 128 by unfold Char.toNat; omega)] at hc
  simp only [Char.le_def, UInt32.le_iff_toNat_le, Bool.or_eq_true, Bool.and_eq_true,
    decide_eq_true_eq, beq_iff_eq] at hc
  obtain (⟨h, -⟩ | ⟨h, -⟩) | rfl := hc
  · have : 'a'.val.toNat = 97 := rfl
    omega
  · have : 'A'.val.toNat = 65 := rfl
    omega
  · exact absurd hrange (by decide)

theorem digits_eq_none {c : Char} {cs : List Char} (hc : isIdentStart c = true) :
    digits 10 false (c :: cs) = none := by
  unfold digits
  rw [if_neg (by simp [isDecimal_eq_false hc])]
  by_cases hhex : isHex c = true
  · have hbase : 10 ≤ hexValue c := by
      unfold hexValue
      unfold isHex at hhex
      have hd := isDecimal_eq_false hc
      unfold isDecimal at hd
      simp only [hd, Bool.false_or, Bool.false_eq_true, if_false, Bool.or_eq_true] at hhex ⊢
      by_cases hlow : ('a' ≤ c && c ≤ 'f') = true
      · rw [if_pos hlow]
        have hbounds : 97 ≤ c.toNat ∧ c.toNat ≤ 102 := by
          simpa [Char.le_def, UInt32.le_iff_toNat_le] using hlow
        omega
      · have hup := hhex.resolve_left hlow
        rw [if_neg hlow]
        have hbounds : 65 ≤ c.toNat ∧ c.toNat ≤ 70 := by
          simpa [Char.le_def, UInt32.le_iff_toNat_le] using hup
        omega
    simp [hhex, hbase]
  · by_cases hline : c = '_'
    · have hno : isHex '_' = false := by decide
      simp [hline, hno]
    · simp [hhex, hline]

theorem rawQuoted_eq_none {form : Form} {cs : List Char} (h : '"' ∉ cs) :
    rawQuoted form cs = none := by
  rw [rawQuoted, rawOpening_eq_none h]
  rfl

theorem literal_eq_none {c : Char} {cs : List Char} (hc : isIdentStart c = true)
    (hquote : '"' ∉ c :: cs) (htick : '\'' ∉ c :: cs) : literal (c :: cs) = none := by
  have hraw : ∀ form : Form, ∀ cs' : List Char, cs' <:+ c :: cs → rawQuoted form cs' = none :=
    fun form cs' hcs => rawQuoted_eq_none fun hmem => hquote (hcs.subset hmem)
  have hstring : string (c :: cs) = none := by
    unfold string
    split
    · rename_i heq
      exact absurd (heq ▸ by simp) hquote
    · rename_i heq
      exact hraw _ _ ⟨['r'], heq.symm⟩
    · rfl
  have hbytes : byteString (c :: cs) = none := by
    unfold byteString
    split
    · rename_i heq
      exact absurd (heq ▸ by simp) hquote
    · rename_i heq
      exact hraw _ _ ⟨['b', 'r'], heq.symm⟩
    · rfl
  have hnull : nullString (c :: cs) = none := by
    unfold nullString
    split
    · rename_i heq
      exact absurd (heq ▸ by simp) hquote
    · rename_i heq
      exact hraw _ _ ⟨['c', 'r'], heq.symm⟩
    · rfl
  have hbyte : byte (c :: cs) = none := by
    unfold byte
    split
    · rename_i heq
      exact absurd (heq ▸ by simp) htick
    · rfl
  have hchar : character (c :: cs) = none := by
    unfold character
    split
    · rename_i heq
      exact absurd (heq ▸ by simp) htick
    · rfl
  have hfloat : float (c :: cs) = none := by
    simp [float, floatDigits, isDecimal_eq_false hc]
  have hint : int (c :: cs) = none := by
    have hzero : c ≠ '0' := by
      intro h
      subst h
      exact absurd hc (by decide)
    unfold int
    split
    all_goals first
      | (rename_i heq; exact absurd (List.cons.inj heq).1 hzero)
      | simp [digits_eq_none hc]
  simp [literal, firstOf, hstring, hbytes, hnull, hbyte, hchar, hfloat, hint]

theorem punct?_eq_none {c : Char} {cs : List Char} (hc : isIdentStart c = true) :
    punct? (c :: cs) = none := by
  have hpunct : isPunct (c :: cs) = false := by
    have hno : punctuation.all (!isIdentStart ·) = true := by decide
    have hmem : c ∉ punctuation := by
      intro hmem
      have hstart := List.all_eq_true.1 hno c hmem
      simp [hc] at hstart
    simp [isPunct, hmem]
  unfold punct?
  split
  · rename_i heq
    exact absurd (List.cons.inj heq).1 (ne_of_isIdentStart hc (by decide))
  · rename_i heq
    obtain ⟨rfl, rfl⟩ := List.cons.inj heq
    simp [hpunct]
  · rfl

theorem identPlain_word {cs : List Char} (h : IsWord cs) : identPlain cs = some [] := by
  obtain ⟨c, rest, rfl, hc, hrest⟩ := h
  rw [identPlain, if_pos hc, List.dropWhile_eq_nil_iff.2 hrest]

theorem ident_spelled {text : String} (h : Spelled text) : ident text.toList = some [] := by
  obtain hword | ⟨cs, htext, hword, hraw⟩ := h
  · have hopenings : quotedOpenings.any (hasHead · text.toList) = false := by
      have hmarks : quotedOpenings.all (·.toList.any (!isIdentContinue ·)) = true := by decide
      refine List.any_eq_false.2 fun o ho => ?_
      obtain ⟨k, hk, hno⟩ := List.any_eq_true.1 (List.all_eq_true.1 hmarks o ho)
      simp [hasHead_eq_false hk (hword.not_mem (by simpa using hno))]
    have hany : identAny text.toList = identPlain text.toList := by
      unfold identAny
      split
      · rename_i heq
        exact absurd (heq ▸ by simp) (hword.not_mem (by decide : isIdentContinue '#' = false))
      · rfl
    rw [ident, if_neg (by simp [hopenings]), hany, identPlain_word hword]
  · obtain ⟨c, rest, rfl, hc, hrest⟩ := hword
    have hquote : '"' ≠ c := (ne_of_isIdentStart hc (by decide)).symm
    have hmark : '#' ≠ c := (ne_of_isIdentStart hc (by decide)).symm
    have hopenings : quotedOpenings.any (hasHead · text.toList) = false := by
      simp [htext, quotedOpenings, hasHead, Text.dropHeadChars?, hquote, hmark]
    have hword : IsWord (c :: rest) := ⟨c, rest, rfl, hc, hrest⟩
    have hconsumed : consumed (c :: rest) [] = String.ofList (c :: rest) := by simp [consumed]
    rw [ident, if_neg (by simp [hopenings]), htext, identAny]
    simp only [identPlain_word hword, hconsumed, hraw]
    rfl

theorem Spelled.begins {text : String} (h : Spelled text) :
    ∃ c cs, text.toList = c :: cs ∧ isIdentStart c = true ∧ '"' ∉ c :: cs ∧ '\'' ∉ c :: cs := by
  obtain hword | ⟨cs, htext, hword, -⟩ := h
  · have hquote := hword.not_mem (by decide : isIdentContinue '"' = false)
    have htick := hword.not_mem (by decide : isIdentContinue '\'' = false)
    obtain ⟨c, rest, htext, hc, -⟩ := hword
    rw [htext] at hquote htick
    exact ⟨c, rest, htext, hc, hquote, htick⟩
  · have hquote := hword.not_mem (by decide : isIdentContinue '"' = false)
    have htick := hword.not_mem (by decide : isIdentContinue '\'' = false)
    exact ⟨'r', '#' :: cs, htext, by decide, by simp [hquote], by simp [htick]⟩

theorem leaf?_spelled {text : String} (h : Spelled text) :
    leaf? text.toList = some (.ident text, []) := by
  have hident := ident_spelled h
  obtain ⟨c, cs, htext, hc, hquote, htick⟩ := h.begins
  have hconsumed : consumed text.toList [] = text := by simp [consumed]
  rw [htext] at hident hconsumed
  rw [htext, leaf?]
  simp only [literal_eq_none hc hquote htick, punct?_eq_none hc, hident, hconsumed]

theorem isSeparator_eq_false {c : Char} (hc : isIdentContinue c = true) :
    isSeparator c = false := by
  have hlow : ∀ n < 0x21, isIdentContinue (Char.ofNat n) = false := by decide +kernel
  have hhigh : ∀ n ∈ [0x85, 0xA0, 0x1680, 0x200E, 0x200F, 0x2028, 0x2029, 0x202F, 0x205F, 0x3000],
      isIdentContinue (Char.ofNat n) = false := by decide +kernel
  have hspaces : ∀ n < 0xB, isIdentContinue (Char.ofNat (0x2000 + n)) = false := by decide +kernel
  cases hsep : isSeparator c with
  | false => rfl
  | true =>
    have hcases : c.toNat < 0x21 ∨
        c.toNat ∈ [0x85, 0xA0, 0x1680, 0x200E, 0x200F, 0x2028, 0x2029, 0x202F, 0x205F, 0x3000] ∨
        ∃ n < 0xB, c.toNat = 0x2000 + n := by
      simp only [isSeparator, isBlank, Bool.or_eq_true, Bool.and_eq_true, decide_eq_true_eq,
        beq_iff_eq] at hsep
      by_cases hspace : 0x2000 ≤ c.toNat ∧ c.toNat < 0x200B
      · exact .inr (.inr ⟨c.toNat - 0x2000, by omega, by omega⟩)
      · simp only [List.mem_cons, List.not_mem_nil, or_false]
        omega
    rw [← Char.ofNat_toNat c] at hc
    obtain h | h | ⟨n, hn, h⟩ := hcases
    · rw [hlow _ h] at hc
      cases hc
    · rw [hhigh _ h] at hc
      cases hc
    · rw [h, hspaces n hn] at hc
      cases hc

theorem advance_of_isIdentStart {c : Char} {cs : List Char} (hc : isIdentStart c = true)
    {t : Token} {rest : List Char} (hleaf : leaf? (c :: cs) = some (t, rest)) (n : Nat)
    (frames : List Frame) (done : List Token) :
    advance frames done (skip (n + 1) (c :: cs)) = .inr (frames, t :: done, rest) := by
  have hslash : c ≠ '/' := ne_of_isIdentStart hc (by decide)
  have hsep : isSeparator c = false := isSeparator_eq_false (isIdentContinue_of_isIdentStart hc)
  have hopens : opens c = none := by
    unfold opens
    split
    · exact absurd hc (by decide)
    · exact absurd hc (by decide)
    · exact absurd hc (by decide)
    · rfl
  have hcloses : closes c = none := by
    unfold closes
    split
    · exact absurd hc (by decide)
    · exact absurd hc (by decide)
    · exact absurd hc (by decide)
    · rfl
  rw [skip_cons (plainComment_of_ne hslash cs), if_neg (by simp [hsep]), advance,
    docComment?_of_ne hslash]
  simp only [hopens, hcloses, hleaf]

theorem tokens?_spelled {text : String} (h : Spelled text) :
    tokens? text = some [.ident text] := by
  have hleaf := leaf?_spelled h
  obtain ⟨c, cs, htext, hc, -, -⟩ := h.begins
  rw [htext] at hleaf
  have hmark : c.toNat ≠ 0xFEFF := by
    intro hmark
    obtain rfl : c = '\uFEFF' := Char.toNat_inj.1 hmark
    exact absurd hc (by decide +kernel)
  rw [tokens?, htext]
  simp only [hmark, if_false]
  rw [run_eq, List.length_cons, advance_of_isIdentStart hc hleaf]
  rfl

theorem not_blank_of_spelled {text : String} (h : Spelled text) :
    ∀ c ∈ text.toList, isBlank c = false := by
  have hword : ∀ cs, IsWord cs → ∀ c ∈ cs, isBlank c = false := by
    intro cs hcs c hc
    cases hcont : isIdentContinue c with
    | false => exact absurd hc (hcs.not_mem hcont)
    | true =>
      have hsep := isSeparator_eq_false hcont
      simp only [isSeparator, Bool.or_eq_false_iff] at hsep
      exact hsep.1.1
  obtain hw | ⟨cs, htext, hw, -⟩ := h
  · exact hword _ hw
  · rw [htext]
    refine List.forall_mem_cons.2 ⟨by decide, List.forall_mem_cons.2 ⟨by decide, hword cs hw⟩⟩

theorem trim_spelled {text : String} (h : Spelled text) : trim text = text := by
  have hblank := not_blank_of_spelled h
  rw [← String.toList_inj, toList_trim, trimChars_eq_self_iff]
  exact ⟨fun c hc => hblank c (List.mem_of_mem_head? hc),
    fun c hc => hblank c (List.mem_of_getLast? hc)⟩

end Lexer

theorem Ident.text_ofText (text : String) : (Ident.ofText text).text = text := by
  unfold Ident.ofText
  split
  · rename_i cs h
    rw [Ident.text, if_pos rfl, ← String.toList_inj]
    simp [h]
  · rfl

namespace Fragment

theorem tokens_of_ident? {text : String} {i : Ident} (h : ident? text = some i) :
    Lexer.tokens? text = some [.ident i.text] ∧ isIdentifier i.text = true := by
  unfold ident? at h
  generalize Lexer.tokens? text = found at h ⊢
  split at h
  · rename_i t
    by_cases ht : isIdentifier t = true
    · rw [if_pos ht] at h
      obtain rfl := Option.some.inj h
      rw [Ident.text_ofText]
      exact ⟨rfl, ht⟩
    · rw [if_neg ht] at h
      cases h
  · cases h

theorem ofText_text {text : String} {i : Ident} (h : ident? text = some i) :
    Ident.ofText i.text = i := by
  obtain ⟨htokens, hident⟩ := tokens_of_ident? h
  unfold ident? at h
  rw [htokens] at h
  dsimp only at h
  rw [if_pos hident] at h
  exact Option.some.inj h

theorem isIdentifier_text {text : String} {i : Ident} (h : ident? text = some i) :
    isIdentifier i.text = true :=
  (tokens_of_ident? h).2

theorem spelled_text {text : String} {i : Ident} (h : ident? text = some i) :
    Lexer.Spelled i.text :=
  Lexer.spelled_of_tokens? (tokens_of_ident? h).1 i.text List.mem_cons_self

theorem ident?_spelled {text : String} (h : Lexer.Spelled text) (hi : isIdentifier text = true) :
    ident? text = some (Ident.ofText text) := by
  unfold ident?
  rw [Lexer.tokens?_spelled h]
  exact if_pos hi

end Fragment

/-- The characters of a literal are decoded from its bytes, which takes long for a long one. Its
tokens are computed from the characters instead, as they are written out. -/
def lexed (cs : List Char) : List Token :=
  (Lexer.run ((Fragment.dropMark cs).length + 1) [] [] (Fragment.dropMark cs)).getD []

theorem code_ofList (cs : List Char) : code (String.ofList cs) = lexed cs := by
  rw [code, Lexer.tokens?, String.toList_ofList]
  cases cs <;> rfl

theorem code_ofList_append (cs ds : List Char) :
    code (String.ofList cs ++ String.ofList ds) = lexed (cs ++ ds) := by
  rw [← String.ofList_append, code_ofList]

end Statechart.Target
