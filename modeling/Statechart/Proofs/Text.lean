import Mathlib.Data.List.DropRight
import Statechart.Text.Blank
import Statechart.Text.Letter
import Statechart.Text.Split

/-!
Trimmed texts, texts put together from two sides of a character, texts made of lines, and texts that
begin or end with others or hold them.
-/
set_option autoImplicit false

namespace Statechart.Text

theorem trimChars_eq (cs : List Char) :
    trimChars cs = (cs.dropWhile isBlank).rdropWhile isBlank := rfl

/-- What trimming leaves has no blank at either end. -/
theorem trimChars_eq_self_iff {cs : List Char} :
    trimChars cs = cs ↔
      (∀ c ∈ cs.head?, isBlank c = false) ∧ (∀ c ∈ cs.getLast?, isBlank c = false) := by
  rw [trimChars_eq]
  constructor
  · intro h
    have hl : (cs.dropWhile isBlank).length = cs.length := by
      have h₁ := (List.rdropWhile_prefix isBlank (cs.dropWhile isBlank)).length_le
      have h₂ := (List.dropWhile_suffix isBlank (l := cs)).length_le
      rw [h] at h₁
      omega
    have hd : cs.dropWhile isBlank = cs := (List.dropWhile_suffix isBlank).eq_of_length hl
    rw [hd] at h
    constructor
    · intro c hc
      have hn := List.head?_dropWhile_not isBlank cs
      rw [hd, Option.mem_def.1 hc] at hn
      simpa using hn
    · intro c hc
      have hne : cs ≠ [] := by rintro rfl; simp at hc
      rw [List.getLast?_eq_some_getLast hne, Option.mem_some] at hc
      simpa [hc] using List.rdropWhile_eq_self_iff.1 h hne
  · rintro ⟨hh, hl⟩
    have hd : cs.dropWhile isBlank = cs := by
      cases cs with
      | nil => rfl
      | cons c cs => simp [hh c rfl]
    rw [hd]
    refine List.rdropWhile_eq_self_iff.2 fun hne => ?_
    simp [hl _ (List.getLast?_eq_some_getLast hne)]

@[simp] theorem trimChars_trimChars (cs : List Char) : trimChars (trimChars cs) = trimChars cs := by
  rw [trimChars_eq_self_iff]
  constructor
  · intro c hc
    -- The head survives trimming at the end, since what is left is a beginning.
    have hp := List.rdropWhile_prefix isBlank (cs.dropWhile isBlank)
    have hc' : (cs.dropWhile isBlank).head? = some c := by
      obtain ⟨rest, h⟩ := hp
      rw [← h, List.head?_append, ← trimChars_eq, Option.mem_def.1 hc, Option.some_or]
    have hn := List.head?_dropWhile_not isBlank cs
    rw [hc'] at hn
    simpa using hn
  · intro c hc
    have hne : trimChars cs ≠ [] := by intro h; simp [h] at hc
    rw [List.getLast?_eq_some_getLast hne, Option.mem_some] at hc
    subst hc
    exact Bool.eq_false_iff.2 (List.rdropWhile_last_not isBlank (cs.dropWhile isBlank) hne)

@[simp] theorem trim_trim (s : String) : trim (trim s) = trim s := by
  rw [← String.toList_inj]
  simp

theorem mem_of_mem_trimChars {cs : List Char} {c : Char} (h : c ∈ trimChars cs) : c ∈ cs := by
  rw [trimChars_eq] at h
  exact (List.dropWhile_suffix isBlank).subset ((List.rdropWhile_prefix isBlank _).subset h)

theorem trim_around {a b : String} {c : Char} (ha : trim a = a) (hb : trim b = b)
    (hc : isBlank c = false) : trim (a ++ String.singleton c ++ b) = a ++ String.singleton c ++ b := by
  rw [← String.toList_inj] at ha hb ⊢
  simp only [toList_trim, trimChars_eq_self_iff, String.toList_append, String.toList_singleton]
    at ha hb ⊢
  constructor
  · intro d hd
    cases h : a.toList with
    | nil => simp_all
    | cons x xs => simp_all
  · intro d hd
    have hd' : d ∈ (c :: b.toList).getLast? := by simpa using hd
    rw [List.getLast?_cons, Option.mem_some] at hd'
    cases h : b.toList.getLast? with
    | none => simp_all
    | some x => simp_all

theorem trim_brackets (s : String) : trim ("[" ++ s ++ "]") = "[" ++ s ++ "]" := by
  have hchars : ("[" ++ s ++ "]").toList = '[' :: (s.toList ++ [']']) := by simp
  rw [← String.toList_inj, toList_trim, trimChars_eq_self_iff, hchars]
  constructor
  · intro c hc
    obtain rfl : '[' = c := by simpa using hc
    decide
  · intro c hc
    rw [← List.cons_append, List.getLast?_concat] at hc
    obtain rfl : ']' = c := by simpa using hc
    decide

theorem any_trimChars {p : Char → Bool} (hp : ∀ c, isBlank c = true → p c = false)
    (cs : List Char) : (trimChars cs).any p = cs.any p := by
  have hdrop : ∀ cs : List Char, (cs.dropWhile isBlank).any p = cs.any p := by
    intro cs
    induction cs with
    | nil => rfl
    | cons c cs ih =>
      cases hc : isBlank c with
      | false => simp [hc]
      | true => simp [hc, hp c hc, ih]
  rw [trimChars, trimEndChars, List.any_reverse, hdrop, List.any_reverse, trimStartChars, hdrop]

theorem containsChar_trim {c : Char} (hc : isBlank c = false) (s : String) :
    containsChar c (trim s) = containsChar c s := by
  simp only [containsChar, List.contains_eq_any_beq, toList_trim]
  refine any_trimChars (fun d hd => ?_) s.toList
  rw [beq_eq_false_iff_ne]
  rintro rfl
  simp [hc] at hd

theorem isSome_cut? (c : Char) (s : String) : (cut? (· = c) s).isSome = containsChar c s := by
  have hchars : ∀ cs : List Char, (cutChars? (· = c) cs).isSome = cs.contains c := by
    intro cs
    induction cs with
    | nil => rfl
    | cons d ds ih =>
      by_cases hd : d = c
      · simp [cutChars?, hd]
      · simp [cutChars?, hd, ih, Ne.symm hd]
  simp [cut?, containsChar, hchars]

theorem cutChars?_around {p : Char → Bool} {xs ys : List Char} {c : Char}
    (hx : ∀ x ∈ xs, p x = false) (hc : p c = true) :
    cutChars? p (xs ++ c :: ys) = some (xs, ys) := by
  induction xs with
  | nil => simp [cutChars?, hc]
  | cons x xs ih =>
    have h := ih fun y hy => hx y (by simp [hy])
    simp [cutChars?, hx x, h]

/-- A text is cut where it was joined, if the first side has no such character. -/
theorem cut?_around {a b : String} {c : Char} (ha : containsChar c a = false) :
    cut? (· = c) (a ++ String.singleton c ++ b) = some (a, b) := by
  have hx : ∀ x ∈ a.toList, decide (x = c) = false := by
    intro x hx
    simp only [containsChar, List.contains_eq_mem, decide_eq_false_iff_not] at ha
    simp only [decide_eq_false_iff_not]
    rintro rfl
    exact ha hx
  have h : cutChars? (· = c) (a.toList ++ c :: b.toList) = some (a.toList, b.toList) :=
    cutChars?_around hx (decide_eq_true rfl)
  simp [cut?, h]

theorem eq_of_cutChars? {p : Char → Bool} {cs xs ys : List Char}
    (h : cutChars? p cs = some (xs, ys)) :
    (∀ x ∈ xs, p x = false) ∧ ∃ c, p c = true ∧ cs = xs ++ c :: ys := by
  induction cs generalizing xs with
  | nil => simp [cutChars?] at h
  | cons c cs ih =>
    rw [cutChars?] at h
    split at h
    · rename_i hc
      cases h
      exact ⟨by simp, c, hc, rfl⟩
    · rename_i hc
      obtain ⟨⟨xs', ys'⟩, hcut, heq⟩ := Option.map_eq_some_iff.1 h
      obtain ⟨rfl, rfl⟩ := Prod.mk.inj heq
      obtain ⟨hx, d, hd, rfl⟩ := ih hcut
      refine ⟨?_, d, hd, rfl⟩
      intro x hmem
      rcases List.mem_cons.1 hmem with rfl | hmem
      · simpa using hc
      · exact hx x hmem

theorem cut?_eq_some {c : Char} {s a b : String} :
    cut? (· = c) s = some (a, b) ↔
      containsChar c a = false ∧ s = a ++ String.singleton c ++ b := by
  constructor
  · intro h
    obtain ⟨⟨xs, ys⟩, hcut, heq⟩ := Option.map_eq_some_iff.1 h
    obtain ⟨rfl, rfl⟩ := Prod.mk.inj heq
    obtain ⟨hx, d, hd, hs⟩ := eq_of_cutChars? hcut
    obtain rfl : d = c := of_decide_eq_true hd
    constructor
    · simp only [containsChar, String.toList_ofList, List.contains_eq_mem,
        decide_eq_false_iff_not]
      intro hmem
      simpa using hx d hmem
    · rw [← String.toList_inj]
      simpa using hs
  · rintro ⟨ha, rfl⟩
    exact cut?_around ha

/-- The two sides of the first occurrence of a character can be told from the whole. -/
theorem around_inj {a b a' b' : String} {c : Char} (ha : containsChar c a = false)
    (ha' : containsChar c a' = false)
    (h : a ++ String.singleton c ++ b = a' ++ String.singleton c ++ b') : a = a' ∧ b = b' := by
  have hcut := cut?_around (b := b) ha
  rw [h, cut?_around ha'] at hcut
  simpa [eq_comm] using hcut

theorem dropHeadChars?_append (xs ys : List Char) : dropHeadChars? xs (xs ++ ys) = some ys := by
  induction xs with
  | nil => rfl
  | cons x xs ih => simp [dropHeadChars?, ih]

@[simp] theorem dropHead?_append (a b : String) : dropHead? a (a ++ b) = some b := by
  simp [dropHead?, dropHeadChars?_append]

@[simp] theorem dropTail?_append (a b : String) : dropTail? b (a ++ b) = some a := by
  simp [dropTail?, dropHeadChars?_append]

theorem startsWith_char {head s : String} {c : Char} (h : head.toList = [c]) :
    startsWith head s = decide (s.toList.head? = some c) := by
  rw [startsWith, dropHead?, h, Option.isSome_map]
  cases s.toList with
  | nil => rfl
  | cons d ds =>
    by_cases hd : c = d
    · simp [dropHeadChars?, hd]
    · simp [dropHeadChars?, hd, Ne.symm hd]

theorem dropHead?_eq_none {head s : String} {c : Char} (h : head.toList = [c])
    (hs : s.toList.head? ≠ some c) : dropHead? head s = none := by
  have hno : (dropHead? head s).isSome = false := by
    rw [← startsWith, startsWith_char h]
    simpa using hs
  simpa using hno

theorem linesFrom_append {line cs rest : List Char} (h : '\n' ∉ cs) :
    linesFrom line (cs ++ '\n' :: rest) =
      dropReturn (line.reverse ++ cs) :: linesFrom [] rest := by
  induction cs generalizing line with
  | nil => simp [linesFrom]
  | cons c cs ih =>
    obtain ⟨hc, hcs⟩ := not_or.1 (mt List.mem_cons.2 h)
    simp [linesFrom, Ne.symm hc, ih hcs]

theorem linesFrom_last {line cs : List Char} (h : '\n' ∉ cs) (hne : line.reverse ++ cs ≠ []) :
    linesFrom line cs = [line.reverse ++ cs] := by
  induction cs generalizing line with
  | nil => simpa [linesFrom] using hne
  | cons c cs ih =>
    obtain ⟨hc, hcs⟩ := not_or.1 (mt List.mem_cons.2 h)
    simp [linesFrom, Ne.symm hc, ih hcs]

theorem dropReturn_eq_self {cs : List Char} (h : '\r' ∉ cs) : dropReturn cs = cs := by
  rw [dropReturn]
  split
  · rename_i rest hr
    have : '\r' ∈ cs.reverse := by simp [hr]
    simp [h] at this
  · rfl

theorem dropReturn_of_getLast? {cs : List Char} (h : cs.getLast? ≠ some '\r') :
    dropReturn cs = cs := by
  rw [dropReturn]
  split
  · rename_i rest hr
    rw [← List.head?_reverse, hr] at h
    simp at h
  · rfl

theorem dropReturn_cases (cs : List Char) :
    dropReturn cs = cs ∨ cs = dropReturn cs ++ ['\r'] := by
  rw [dropReturn]
  split
  · rename_i rest hr
    refine .inr ?_
    rw [← List.reverse_inj, hr]
    simp
  · exact .inl rfl

theorem mem_of_mem_dropReturn {cs : List Char} {c : Char} (h : c ∈ dropReturn cs) : c ∈ cs := by
  obtain hsame | hdropped := dropReturn_cases cs
  · rwa [hsame] at h
  · rw [hdropped]
    exact List.mem_append_left _ h

theorem feed_not_mem_linesFrom {line cs : List Char} (hline : '\n' ∉ line) :
    ∀ l ∈ linesFrom line cs, '\n' ∉ l := by
  induction cs generalizing line with
  | nil =>
    intro l hl
    rw [linesFrom] at hl
    split at hl
    · cases hl
    · obtain rfl := List.mem_singleton.1 hl
      simpa using hline
  | cons c cs ih =>
    intro l hl
    rw [linesFrom] at hl
    split at hl
    · obtain rfl | hl := List.mem_cons.1 hl
      · exact fun hfeed => hline (by simpa using mem_of_mem_dropReturn hfeed)
      · exact ih List.not_mem_nil l hl
    · rename_i hc
      exact ih (List.not_mem_cons_of_ne_of_not_mem (Ne.symm hc) hline) l hl

theorem feed_not_mem_lines {s l : String} (h : l ∈ lines s) : '\n' ∉ l.toList := by
  obtain ⟨cs, hcs, rfl⟩ := List.mem_map.1 h
  rw [String.toList_ofList]
  exact feed_not_mem_linesFrom List.not_mem_nil cs hcs

theorem lines_unlines_singleton {l : String} (h : '\n' ∉ l.toList) :
    lines (unlines [l]) = if l = "" then [] else [l] := by
  rw [lines, unlines, String.intercalate_singleton]
  by_cases hl : l = ""
  · simp [hl, linesFrom]
  · have hne : ([] : List Char).reverse ++ l.toList ≠ [] := by simpa using hl
    rw [linesFrom_last h hne]
    simp [hl]

theorem lines_unlines_cons {l m : String} {ls : List String} (h : '\n' ∉ l.toList) :
    lines (unlines (l :: m :: ls)) =
      String.ofList (dropReturn l.toList) :: lines (unlines (m :: ls)) := by
  have hjoin : (unlines (l :: m :: ls)).toList = l.toList ++ '\n' :: (unlines (m :: ls)).toList := by
    simp [unlines, String.toList_intercalate]
  rw [lines, hjoin, linesFrom_append h, List.map_cons, ← lines]
  simp

theorem lines_unlines {ls : List String} (h : ∀ l ∈ ls, '\n' ∉ l.toList ∧ '\r' ∉ l.toList)
    (hlast : ∀ l ∈ ls.getLast?, l ≠ "") : lines (unlines ls) = ls := by
  induction ls with
  | nil => rfl
  | cons l ls ih =>
    obtain ⟨⟨hfeed, hreturn⟩, hls⟩ := List.forall_mem_cons.1 h
    cases ls with
    | nil =>
      have hne : l ≠ "" := by simpa using hlast
      rw [lines_unlines_singleton hfeed, if_neg hne]
    | cons l' ls =>
      rw [lines_unlines_cons hfeed, ih hls (by simpa using hlast), dropReturn_eq_self hreturn,
        String.ofList_toList]

theorem unlines_snoc {ls : List String} (hne : ls ≠ []) (l : String) :
    unlines (ls ++ [l]) = unlines ls ++ "\n" ++ l := by
  induction ls with
  | nil => exact absurd rfl hne
  | cons k ls ih =>
    cases ls with
    | nil => simp [unlines, String.intercalate_cons_cons]
    | cons m ls =>
      have hrest := ih (by simp)
      simp only [unlines, List.cons_append, String.intercalate_cons_cons] at hrest ⊢
      rw [hrest]
      simp [String.append_assoc]

theorem trimChars_pad {l cs r : List Char} (hcs : trimChars cs = cs)
    (hl : ∀ c ∈ l, isBlank c = true) (hr : ∀ c ∈ r, isBlank c = true) :
    trimChars (l ++ cs ++ r) = cs := by
  obtain ⟨hhead, hlast⟩ := trimChars_eq_self_iff.1 hcs
  rw [trimChars_eq]
  cases cs with
  | nil =>
    have hblank : (l ++ [] ++ r).dropWhile isBlank = [] := by
      rw [List.dropWhile_eq_nil_iff]
      intro c hc
      rw [List.append_nil] at hc
      exact (List.mem_append.1 hc).elim (hl c) (hr c)
    rw [hblank, List.rdropWhile_nil]
  | cons c cs =>
    have hfront : (l ++ (c :: cs) ++ r).dropWhile isBlank = (c :: cs) ++ r := by
      rw [List.append_assoc, List.dropWhile_append_of_pos hl]
      simp [hhead c rfl]
    have hback : ∀ d ∈ r.reverse, isBlank d = true := by
      intro d hd
      exact hr d (List.mem_reverse.1 hd)
    have hself : (c :: cs).rdropWhile isBlank = c :: cs := by
      rw [List.rdropWhile_eq_self_iff]
      intro hne
      simp [hlast _ (List.getLast?_eq_some_getLast hne)]
    rw [hfront, List.rdropWhile, List.reverse_append, List.dropWhile_append_of_pos hback,
      ← List.rdropWhile, hself]

theorem exists_trimStartChars (cs : List Char) :
    ∃ l, (∀ c ∈ l, isBlank c = true) ∧ cs = l ++ trimStartChars cs :=
  ⟨cs.takeWhile isBlank, fun _ hc => List.mem_takeWhile_imp hc, by simp [trimStartChars]⟩

theorem exists_trimEndChars (cs : List Char) :
    ∃ r, (∀ c ∈ r, isBlank c = true) ∧ cs = trimEndChars cs ++ r := by
  obtain ⟨l, hl, hcs⟩ := exists_trimStartChars cs.reverse
  refine ⟨l.reverse, fun c hc => hl c (List.mem_reverse.1 hc), ?_⟩
  rw [← List.reverse_inj, hcs]
  simp [trimEndChars, trimStartChars]

theorem trimChars_pad_eq {l r : List Char} (hl : ∀ c ∈ l, isBlank c = true)
    (hr : ∀ c ∈ r, isBlank c = true) (cs : List Char) :
    trimChars (l ++ cs ++ r) = trimChars cs := by
  obtain ⟨l', hl', hstart⟩ := exists_trimStartChars cs
  obtain ⟨r', hr', hend⟩ := exists_trimEndChars (trimStartChars cs)
  have hcs : cs = l' ++ trimChars cs ++ r' := by
    rw [trimChars, List.append_assoc, ← hend, ← hstart]
  have hpad : l ++ cs ++ r = (l ++ l') ++ trimChars cs ++ (r' ++ r) :=
    calc l ++ cs ++ r = l ++ (l' ++ trimChars cs ++ r') ++ r := by rw [← hcs]
      _ = (l ++ l') ++ trimChars cs ++ (r' ++ r) := by simp
  rw [hpad]
  exact trimChars_pad (trimChars_trimChars cs) (List.forall_mem_append.2 ⟨hl, hl'⟩)
    (List.forall_mem_append.2 ⟨hr', hr⟩)

@[simp] theorem trimChars_trimStartChars (cs : List Char) :
    trimChars (trimStartChars cs) = trimChars cs := by
  obtain ⟨l, hl, hcs⟩ := exists_trimStartChars cs
  have hpad := trimChars_pad_eq hl (r := []) (by simp) (trimStartChars cs)
  rw [List.append_nil, ← hcs] at hpad
  exact hpad.symm

@[simp] theorem trimChars_trimEndChars (cs : List Char) :
    trimChars (trimEndChars cs) = trimChars cs := by
  obtain ⟨r, hr, hcs⟩ := exists_trimEndChars cs
  have hpad := trimChars_pad_eq (l := []) (by simp) hr (trimEndChars cs)
  rw [List.nil_append, ← hcs] at hpad
  exact hpad.symm

theorem trimStartChars_around {c : Char} (hc : isBlank c = false) (as bs : List Char) :
    trimStartChars (as ++ c :: bs) = trimStartChars as ++ c :: bs := by
  induction as with
  | nil => simp [trimStartChars, hc]
  | cons a as ih =>
    cases ha : isBlank a with
    | false => simp [trimStartChars, ha]
    | true => simpa [trimStartChars, ha] using ih

theorem trimEndChars_around {c : Char} (hc : isBlank c = false) (as bs : List Char) :
    trimEndChars (as ++ c :: bs) = as ++ c :: trimEndChars bs := by
  have h := trimStartChars_around hc bs.reverse as.reverse
  simp only [trimStartChars] at h
  simp [trimEndChars, h]

theorem trimChars_around {c : Char} (hc : isBlank c = false) (as bs : List Char) :
    trimChars (as ++ c :: bs) = trimStartChars as ++ c :: trimEndChars bs := by
  rw [trimChars, trimStartChars_around hc, trimEndChars_around hc]

theorem cut?_trim_around {a b : String} {c : Char} (hc : isBlank c = false)
    (ha : containsChar c a = false) :
    ∃ a' b', cut? (· = c) (trim (a ++ String.singleton c ++ b)) = some (a', b') ∧
      trim a' = trim a ∧ trim b' = trim b := by
  have htrim : trim (a ++ String.singleton c ++ b) =
      trimStart a ++ String.singleton c ++ String.ofList (trimEndChars b.toList) := by
    rw [← String.toList_inj]
    simp [trimChars_around hc]
  have ha' : containsChar c (trimStart a) = false := by
    simp only [containsChar, List.contains_eq_mem, decide_eq_false_iff_not] at ha ⊢
    intro hmem
    rw [toList_trimStart] at hmem
    exact ha ((List.dropWhile_sublist isBlank).subset hmem)
  rw [htrim, cut?_around ha']
  refine ⟨_, _, rfl, ?_, ?_⟩
  · rw [← String.toList_inj]
    simp
  · rw [← String.toList_inj]
    simp

theorem exists_around {c : Char} {s : String} (h : containsChar c s = true) :
    ∃ a b, s = a ++ String.singleton c ++ b ∧ containsChar c a = false := by
  obtain ⟨as, bs, hs, has⟩ := List.eq_append_cons_of_mem (List.contains_iff_mem.1 h)
  refine ⟨String.ofList as, String.ofList bs, ?_, ?_⟩
  · rw [← String.toList_inj, hs]
    simp
  · simpa [containsChar] using has

section

variable {sep : Char} {cs : List Char}

theorem splitChars_ne_nil (sep : Char) (cs : List Char) : splitChars sep cs ≠ [] := by
  cases cs with
  | nil => simp [splitChars]
  | cons c cs =>
    unfold splitChars
    split
    · simp
    · split <;> simp

theorem splitChars_cons {c : Char} {piece : List Char} {pieces : List (List Char)} (hc : c ≠ sep)
    (h : splitChars sep cs = piece :: pieces) :
    splitChars sep (c :: cs) = (c :: piece) :: pieces := by
  simp [splitChars, hc, h]

theorem splitChars_of_not_mem (h : sep ∉ cs) : splitChars sep cs = [cs] := by
  induction cs with
  | nil => rfl
  | cons c cs ih =>
    simp only [List.mem_cons, not_or] at h
    obtain ⟨hc, hcs⟩ := h
    exact splitChars_cons (fun e => hc e.symm) (ih hcs)

theorem splitChars_append (xs ys : List Char) :
    splitChars sep (xs ++ sep :: ys) = splitChars sep xs ++ splitChars sep ys := by
  induction xs with
  | nil => simp [splitChars]
  | cons c xs ih =>
    by_cases hc : c = sep
    · simp [splitChars, hc, ih]
    · obtain ⟨piece, pieces, hxs⟩ := List.exists_cons_of_ne_nil (splitChars_ne_nil sep xs)
      rw [hxs, List.cons_append] at ih
      rw [List.cons_append, splitChars_cons hc ih, splitChars_cons hc hxs, List.cons_append]

end

theorem dropHeadChars?_eq_some {head cs rest : List Char} :
    dropHeadChars? head cs = some rest ↔ cs = head ++ rest := by
  constructor
  · intro h
    induction head generalizing cs with
    | nil => exact Option.some.inj h
    | cons c head ih =>
      cases cs with
      | nil => cases h
      | cons d cs =>
        rw [dropHeadChars?] at h
        split at h
        · rename_i hcd
          rw [hcd, ih h, List.cons_append]
        · cases h
  · intro h
    rw [h]
    exact dropHeadChars?_append head rest

theorem dropHead?_eq_some {head s rest : String} :
    dropHead? head s = some rest ↔ s.toList = head.toList ++ rest.toList := by
  rw [dropHead?, Option.map_eq_some_iff]
  constructor
  · intro h
    obtain ⟨cs, hcs, rfl⟩ := h
    rw [String.toList_ofList, dropHeadChars?_eq_some.1 hcs]
  · intro h
    exact ⟨rest.toList, dropHeadChars?_eq_some.2 h, String.ofList_toList⟩

theorem dropTail?_eq_some {tail s rest : String} :
    dropTail? tail s = some rest ↔ s.toList = rest.toList ++ tail.toList := by
  rw [dropTail?, Option.map_eq_some_iff]
  constructor
  · intro h
    obtain ⟨cs, hcs, rfl⟩ := h
    have hchars := congrArg List.reverse (dropHeadChars?_eq_some.1 hcs)
    simpa using hchars
  · intro h
    refine ⟨rest.toList.reverse, dropHeadChars?_eq_some.2 ?_, by simp⟩
    rw [h, List.reverse_append]

theorem isBlank_of_isDigit {c : Char} (h : isDigit c = true) : isBlank c = false := by
  simp only [isDigit, Bool.and_eq_true, decide_eq_true_eq, Char.le_def] at h
  obtain ⟨hlow, hhigh⟩ := h
  have hlow : 48 ≤ c.toNat := hlow
  have hhigh : c.toNat ≤ 57 := hhigh
  simp only [isBlank, Bool.or_eq_false_iff, Bool.and_eq_false_iff, decide_eq_false_iff_not,
    beq_eq_false_iff_ne]
  omega

theorem occursIn_iff {piece cs : List Char} : occursIn piece cs = true ↔ piece <:+: cs := by
  have hhead : ∀ cs : List Char, (dropHeadChars? piece cs).isSome = true ↔ piece <+: cs := by
    intro cs
    rw [Option.isSome_iff_exists]
    simp only [dropHeadChars?_eq_some]
    exact exists_congr fun _ => eq_comm
  induction cs with
  | nil => simp [occursIn]
  | cons c cs ih =>
    rw [occursIn, Bool.or_eq_true, hhead (c :: cs), List.infix_cons_iff]
    exact or_congr_right ih

theorem contains_iff {piece s : String} :
    contains piece s = true ↔ piece.toList <:+: s.toList :=
  occursIn_iff

end Statechart.Text
