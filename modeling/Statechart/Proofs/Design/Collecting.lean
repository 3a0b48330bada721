import Mathlib.Data.Prod.Lex
import Statechart.Proofs.Design.Headers

/-!
Families are collected without a limit.

The search for the sections of a family goes on up to a gap, and no bound is put on the numbers. It
ends since there are more numbers than sections. What it collects is told by the places of the
sections: the number of the chunk, which is zero for the first one, and the number within the chunk.
-/
set_option autoImplicit false

namespace Statechart.Design

/-- A search through the numbers `n`, `n + 1`, … that ends at the first gap and nowhere else. -/
inductive Searched {α : Type} (get : Nat → Option α) : Nat → List α → Prop where
  | gap {n : Nat} : get n = none → Searched get n []
  | found {n : Nat} {a : α} {as : List α} :
      get n = some a → Searched get (n + 1) as → Searched get n (a :: as)

section

variable {α : Type} {get : Nat → Option α}

/-- A limit does not matter if there is a gap below it. -/
theorem searched_runFrom {limit n m : Nat} (hgap : get m = none) (hn : n ≤ m)
    (hm : m ≤ n + limit) : Searched get n (runFrom get limit n) := by
  induction limit generalizing n with
  | zero =>
    obtain rfl : n = m := by omega
    exact .gap hgap
  | succ limit ih =>
    rw [runFrom]
    cases hget : get n with
    | none => exact .gap hget
    | some a =>
      have hne : n ≠ m := by
        rintro rfl
        rw [hgap] at hget
        cases hget
      exact .found hget (ih (by omega) (by omega))

theorem Searched.unique {n : Nat} {as bs : List α} (h : Searched get n as)
    (h' : Searched get n bs) : bs = as := by
  induction h generalizing bs with
  | gap hgap =>
    cases h' with
    | gap => rfl
    | found hget => simp [hgap] at hget
  | found hget _ ih =>
    cases h' with
    | gap hgap => simp [hgap] at hget
    | found hget' hrest =>
      obtain rfl := Option.some.inj (hget.symm.trans hget')
      rw [ih hrest]

theorem Searched.lt_length_iff {n : Nat} {as : List α} (h : Searched get n as) {k : Nat} :
    k < as.length ↔ ∀ m, n ≤ m → m ≤ n + k → (get m).isSome = true := by
  induction h generalizing k with
  | @gap n hgap =>
    constructor
    · intro hk
      cases hk
    · intro hall
      have hn := hall n (by omega) (by omega)
      rw [hgap] at hn
      cases hn
  | @found n a as hget _ ih =>
    rw [List.length_cons]
    constructor
    · intro hk m hnm hmk
      by_cases hm : m = n
      · rw [hm, hget]
        rfl
      · exact (ih (k := k - 1)).1 (by omega) m (by omega) (by omega)
    · intro hall
      cases k with
      | zero => exact Nat.succ_pos _
      | succ k => exact Nat.succ_lt_succ (ih.2 fun m hnm hmk => hall m (by omega) (by omega))

end

namespace File

def Has (f : File) (name : String) : Prop :=
  name ∈ f.sections.map Section.name

theorem has_iff {f : File} {name : String} :
    f.Has name ↔ (f.section? name).isSome = true := by
  simp [Has, section?, List.find?_isSome]

/-- Sections with different names cannot have all numbers. -/
theorem exists_gap (f : File) {name : Nat → String} (hname : Function.Injective name) :
    ∃ m, 1 ≤ m ∧ m ≤ f.sections.length + 1 ∧ f.section? (name m) = none := by
  by_contra hno
  have hsub : (List.range' 1 (f.sections.length + 1)).map name ⊆ f.sections.map Section.name := by
    intro x hx
    obtain ⟨m, hm, rfl⟩ := List.mem_map.1 hx
    obtain ⟨hlow, hhigh⟩ := List.mem_range'_1.1 hm
    refine has_iff.2 (Option.ne_none_iff_isSome.1 fun hnone => ?_)
    exact hno ⟨m, hlow, by omega, hnone⟩
  have hle := ((List.Nodup.map hname List.nodup_range').subperm hsub).length_le
  simp only [List.length_map, List.length_range'] at hle
  omega

theorem searched_numberedRun (f : File) {name : Nat → String} (hname : Function.Injective name) :
    Searched (fun n => f.section? (name n)) 1
      (numberedRun f.sections.length fun n => f.section? (name n)) := by
  obtain ⟨m, hlow, hhigh, hgap⟩ := f.exists_gap hname
  exact searched_runFrom hgap hlow (by omega)

theorem le_length_numberedRun_iff (f : File) {name : Nat → String}
    (hname : Function.Injective name) {n : Nat} :
    n ≤ (numberedRun f.sections.length fun n => f.section? (name n)).length ↔
      ∀ m, 1 ≤ m → m ≤ n → f.Has (name m) := by
  cases n with
  | zero =>
    simp only [Nat.zero_le, true_iff]
    intro m hlow hhigh
    omega
  | succ n =>
    rw [Nat.succ_le_iff, (f.searched_numberedRun hname).lt_length_iff]
    simp only [has_iff]
    constructor
    · intro hall m hlow hhigh
      exact hall m hlow (by omega)
    · intro hall m hlow hhigh
      exact hall m hlow (by omega)

def chunkName (family : String) : Nat → String
  | 0 => family
  | c + 1 => family ++ toString (c + 1) ++ "_"

def placeName (family : String) (p : Nat × Nat) : String :=
  chunkName family p.1 ++ toString p.2

theorem chunkName_of_pos {family : String} {c : Nat} (h : 1 ≤ c) :
    chunkName family c = family ++ toString c ++ "_" := by
  cases c with
  | zero => cases h
  | succ c => rfl

theorem placeName_injective (family : String) : Function.Injective (placeName family) := by
  -- a place of the first chunk has no underscore
  have hfirst : ∀ c m n : Nat, toString m ≠ toString c ++ "_" ++ toString n := by
    intro c m n heq
    have hm := containsChar_numeral m
    rw [heq] at hm
    simp [Text.containsChar] at hm
  rintro ⟨c, m⟩ ⟨d, n⟩ h
  cases c with
  | zero =>
    cases d with
    | zero =>
      have hnumber : toString m = toString n := (String.append_right_inj family).1 h
      rw [numeral_inj hnumber]
    | succ d =>
      have hplace : toString m = toString (d + 1) ++ "_" ++ toString n := by
        simpa [placeName, chunkName, String.append_assoc] using h
      exact absurd hplace (hfirst _ _ _)
  | succ c =>
    cases d with
    | zero =>
      have hplace : toString n = toString (c + 1) ++ "_" ++ toString m := by
        simpa [placeName, chunkName, String.append_assoc] using h.symm
      exact absurd hplace (hfirst _ _ _)
    | succ d =>
      have hplace : toString (c + 1) ++ "_" ++ toString m =
          toString (d + 1) ++ "_" ++ toString n := by
        simpa [placeName, chunkName, String.append_assoc] using h
      obtain ⟨hchunk, hnumber⟩ :=
        Text.around_inj (containsChar_numeral _) (containsChar_numeral _) hplace
      rw [numeral_inj hchunk, numeral_inj hnumber]

theorem place_injective (family : String) (c : Nat) :
    Function.Injective fun n => placeName family (c, n) := by
  intro m n h
  exact (Prod.mk.inj (placeName_injective family h)).2

theorem opening_injective (family : String) :
    Function.Injective fun c => placeName family (c, 1) := by
  intro c d h
  exact (Prod.mk.inj (placeName_injective family h)).1

variable (f : File) (family : String)

theorem searched_chunk (c : Nat) :
    Searched (fun n => f.section? (placeName family (c, n))) 1 (f.chunk (chunkName family c)) :=
  f.searched_numberedRun (place_injective family c)

theorem le_length_chunk_iff {c n : Nat} :
    n ≤ (f.chunk (chunkName family c)).length ↔
      ∀ m, 1 ≤ m → m ≤ n → f.Has (placeName family (c, m)) :=
  f.le_length_numberedRun_iff (place_injective family c)

theorem chunk_eq_nil_iff {c : Nat} :
    f.chunk (chunkName family c) = [] ↔ ¬ f.Has (placeName family (c, 1)) := by
  rw [← List.length_eq_zero_iff, ← Nat.lt_one_iff, ← Nat.not_le, le_length_chunk_iff, not_iff_not]
  constructor
  · intro hall
    exact hall 1 (Nat.le_refl 1) (Nat.le_refl 1)
  · intro hone m hlow hhigh
    rwa [Nat.le_antisymm hhigh hlow]

def chunkCount : Nat :=
  (numberedRun f.sections.length fun c => f.section? (placeName family (c, 1))).length

theorem le_chunkCount_iff {c : Nat} :
    c ≤ f.chunkCount family ↔ ∀ d, 1 ≤ d → d ≤ c → f.Has (placeName family (d, 1)) :=
  f.le_length_numberedRun_iff (opening_injective family)

theorem chunksFrom_eq {limit c : Nat} (hc : 1 ≤ c) :
    f.chunksFrom family limit c =
      (List.range' c
        (runFrom (fun d => f.section? (placeName family (d, 1))) limit c).length).flatMap
          fun d => f.chunk (chunkName family d) := by
  induction limit generalizing c with
  | zero => rfl
  | succ limit ih =>
    rw [chunksFrom_succ, ← chunkName_of_pos hc, runFrom]
    cases hopening : f.section? (placeName family (c, 1)) with
    | none =>
      have hnone : ¬ f.Has (placeName family (c, 1)) := by simp [has_iff, hopening]
      rw [(f.chunk_eq_nil_iff family).2 hnone]
      rfl
    | some s =>
      have hsome : f.Has (placeName family (c, 1)) := by simp [has_iff, hopening]
      have hne : f.chunk (chunkName family c) ≠ [] :=
        mt (f.chunk_eq_nil_iff family).1 (not_not.2 hsome)
      rw [List.length_cons, List.range'_succ, List.flatMap_cons, ← ih (by omega)]
      split
      · rename_i hnil
        exact absurd hnil hne
      · rfl

theorem family_eq :
    f.family family =
      (List.range (f.chunkCount family + 1)).flatMap fun c => f.chunk (chunkName family c) := by
  rw [File.family, chunksFrom_eq f family (Nat.le_refl 1), List.range_eq_range', List.range'_succ,
    List.flatMap_cons]
  rfl

/-- The chunks from `c` on, each of them searched to its end, up to the first that is empty. -/
inductive Collected : Nat → List Section → Prop where
  | stop {c : Nat} :
      Searched (fun n => f.section? (placeName family (c, n))) 1 [] → Collected c []
  | chunk {c : Nat} {found rest : List Section} :
      Searched (fun n => f.section? (placeName family (c, n))) 1 found → found ≠ [] →
        Collected (c + 1) rest → Collected c (found ++ rest)

/-- A search for the family that came to its end. Only the first chunk may be empty. -/
inductive Gathered : List Section → Prop where
  | mk {first rest : List Section} :
      Searched (fun n => f.section? (placeName family (0, n))) 1 first →
        Collected f family 1 rest → Gathered (first ++ rest)

variable {f family} in
theorem Collected.unique {c : Nat} {ss ts : List Section} (h : Collected f family c ss)
    (h' : Collected f family c ts) : ts = ss := by
  induction h generalizing ts with
  | stop hnone =>
    cases h' with
    | stop => rfl
    | chunk hfound hne => exact absurd (hnone.unique hfound) hne
  | chunk hfound hne _ ih =>
    cases h' with
    | stop hnone => exact absurd (hnone.unique hfound) hne
    | chunk hfound' _ hrest => rw [hfound.unique hfound', ih hrest]

theorem collected_flatMap {c k : Nat}
    (hopen : ∀ d, c ≤ d → d < c + k → f.chunk (chunkName family d) ≠ [])
    (hstop : f.chunk (chunkName family (c + k)) = []) :
    Collected f family c
      ((List.range' c k).flatMap fun d => f.chunk (chunkName family d)) := by
  induction k generalizing c with
  | zero =>
    have hempty := f.searched_chunk family c
    rw [Nat.add_zero] at hstop
    rw [hstop] at hempty
    exact .stop hempty
  | succ k ih =>
    rw [List.range'_succ, List.flatMap_cons]
    refine .chunk (f.searched_chunk family c) (hopen c (by omega) (by omega)) (ih ?_ ?_)
    · intro d hlow hhigh
      exact hopen d (by omega) (by omega)
    · rwa [Nat.add_assoc, Nat.add_comm 1 k]

/-- The search ends, and the family is what it has found. -/
theorem gathered_iff {found : List Section} :
    Gathered f family found ↔ found = f.family family := by
  have hopen : ∀ d, 1 ≤ d → d < 1 + f.chunkCount family → f.chunk (chunkName family d) ≠ [] := by
    intro d hlow hhigh
    have hd := (f.le_chunkCount_iff family).1 (show d ≤ f.chunkCount family by omega) d hlow
      (Nat.le_refl d)
    exact mt (f.chunk_eq_nil_iff family).1 (not_not.2 hd)
  have hstop : f.chunk (chunkName family (1 + f.chunkCount family)) = [] := by
    rw [chunk_eq_nil_iff]
    intro hmore
    have hle : f.chunkCount family + 1 ≤ f.chunkCount family := by
      refine (f.le_chunkCount_iff family).2 fun d hlow hhigh => ?_
      by_cases hd : d = 1 + f.chunkCount family
      · rwa [hd]
      · exact (f.le_chunkCount_iff family).1 (Nat.le_refl _) d hlow (by omega)
    omega
  rw [family_eq, List.range_eq_range', List.range'_succ, List.flatMap_cons]
  have hfirst := f.searched_chunk family 0
  have hrest := f.collected_flatMap family hopen hstop
  constructor
  · intro h
    obtain ⟨hfirst', hrest'⟩ := h
    rw [hfirst.unique hfirst', hrest.unique hrest']
  · intro h
    rw [h]
    exact .mk hfirst hrest

def places : List (Nat × Nat) :=
  (List.range (f.chunkCount family + 1)).flatMap fun c =>
    (List.range' 1 (f.chunk (chunkName family c)).length).map fun n => (c, n)

theorem family_names :
    (f.family family).map Section.name = (f.places family).map (placeName family) := by
  rw [family_eq, places, List.map_flatMap, List.map_flatMap]
  congr 1
  funext c
  rw [chunk_names, List.map_map]
  rfl

theorem places_ordered : (f.places family).Pairwise (Prod.Lex (· < ·) (· < ·)) := by
  rw [places, List.pairwise_flatMap]
  constructor
  · intro c _
    rw [List.pairwise_map]
    exact List.Pairwise.imp (fun hlt => .right c hlt) List.pairwise_lt_range'
  · refine List.pairwise_lt_range.imp fun {c d} hlt p hp q hq => ?_
    obtain ⟨m, -, rfl⟩ := List.mem_map.1 hp
    obtain ⟨n, -, rfl⟩ := List.mem_map.1 hq
    exact .left m n hlt

/-- The places that the search comes to: all chunks before were opened, and there is no gap. -/
theorem mem_places_iff {c n : Nat} :
    (c, n) ∈ f.places family ↔
      1 ≤ n ∧ (∀ d, 1 ≤ d → d < c → f.Has (placeName family (d, 1))) ∧
        ∀ m, 1 ≤ m → m ≤ n → f.Has (placeName family (c, m)) := by
  have hmem : (c, n) ∈ f.places family ↔
      c ≤ f.chunkCount family ∧ 1 ≤ n ∧ n ≤ (f.chunk (chunkName family c)).length := by
    simp only [places, List.mem_flatMap, List.mem_range, List.mem_map, List.mem_range'_1,
      Prod.mk.injEq]
    constructor
    · rintro ⟨_, hc, _, hn, rfl, rfl⟩
      omega
    · intro h
      exact ⟨c, by omega, n, by omega, rfl, rfl⟩
  rw [hmem, le_chunkCount_iff, le_length_chunk_iff]
  constructor
  · rintro ⟨hopen, hn, hall⟩
    exact ⟨hn, fun d hlow hhigh => hopen d hlow (by omega), hall⟩
  · rintro ⟨hn, hopen, hall⟩
    refine ⟨fun d hlow hhigh => ?_, hn, hall⟩
    by_cases hd : d = c
    · rw [hd]
      exact hall 1 (Nat.le_refl 1) hn
    · exact hopen d hlow (by omega)

/-- What a family is, told by the names in the file. -/
structure IsFamilyOf (found : List Section) : Prop where
  /-- The search ends by itself, with these sections and no others. -/
  gathered : ∀ ss, Gathered f family ss ↔ ss = found
  once : found.Nodup
  first : ∀ s ∈ f.sections, ∀ n, 1 ≤ n → s.name = family ++ toString n →
    (s ∈ found ↔ ∀ m, 1 ≤ m → m ≤ n → f.Has (family ++ toString m))
  later : ∀ s ∈ f.sections, ∀ c n, 1 ≤ c → 1 ≤ n →
    s.name = family ++ toString c ++ "_" ++ toString n →
      (s ∈ found ↔
        (∀ d, 1 ≤ d → d < c → f.Has (family ++ toString d ++ "_" ++ toString 1)) ∧
          ∀ m, 1 ≤ m → m ≤ n → f.Has (family ++ toString c ++ "_" ++ toString m))
  only : ∀ s ∈ found, s ∈ f.sections ∧
    ((∃ n, 1 ≤ n ∧ s.name = family ++ toString n) ∨
      ∃ c n, 1 ≤ c ∧ 1 ≤ n ∧ s.name = family ++ toString c ++ "_" ++ toString n)
  /-- The first chunk has number zero. -/
  ordered : ∃ places : List (Nat × Nat), places.Pairwise (Prod.Lex (· < ·) (· < ·)) ∧
    found.map Section.name = places.map (placeName family)

variable {f family}

theorem mem_family_iff {label text : String} (h : parse label text = .ok f) {s : Section}
    (hs : s ∈ f.sections) {p : Nat × Nat} (hp : s.name = placeName family p) :
    s ∈ f.family family ↔ p ∈ f.places family := by
  have hname : s ∈ f.family family ↔ s.name ∈ (f.family family).map Section.name := by
    constructor
    · exact List.mem_map_of_mem
    · intro hmem
      obtain ⟨t, ht, hts⟩ := List.mem_map.1 hmem
      rwa [← List.inj_on_of_nodup_map (names_nodup h) (mem_family ht).1 hs hts]
  rw [hname, family_names, hp, List.mem_map_of_injective (placeName_injective family)]

/-- Collecting a family is exact. -/
theorem family_exact {label text : String} {f : File} (h : parse label text = .ok f)
    (family : String) : f.IsFamilyOf family (f.family family) where
  gathered := fun _ => f.gathered_iff family
  once := (family_nodup f family).of_map _
  first := by
    intro s hs n hn hname
    rw [mem_family_iff h hs (p := (0, n)) hname, mem_places_iff]
    simp [hn, placeName, chunkName]
  later := by
    intro s hs c n hc hn hname
    rw [← chunkName_of_pos hc] at hname
    rw [mem_family_iff h hs (p := (c, n)) hname, mem_places_iff]
    simp only [hn, true_and, placeName, chunkName_of_pos hc]
    refine and_congr_left' (forall₃_congr fun d hlow _ => ?_)
    rw [chunkName_of_pos hlow]
  only := by
    intro s hs
    refine ⟨(mem_family hs).1, ?_⟩
    have hname := List.mem_map_of_mem (f := Section.name) hs
    rw [family_names] at hname
    obtain ⟨⟨c, n⟩, hplace, hname⟩ := List.mem_map.1 hname
    have hn := ((f.mem_places_iff family).1 hplace).1
    cases c with
    | zero => exact .inl ⟨n, hn, hname.symm⟩
    | succ c => exact .inr ⟨c + 1, n, Nat.succ_pos c, hn, hname.symm⟩
  ordered := ⟨f.places family, f.places_ordered family, f.family_names family⟩

def ladderLines : List String :=
  ["[R_2_2]", "[R_1]", "[R_4]", "[R_2_1]", "[R_2]", "[R_4_1]", "[R_1_1]", "[R_01]"]

def ladder : File :=
  ⟨"l.ini", ladderLines, ["R_2_2", "R_1", "R_4", "R_2_1", "R_2", "R_4_1", "R_1_1", "R_01"].map
    fun name => ⟨name, []⟩⟩

theorem ladder_collected :
    parse "l.ini" (Text.unlines ladderLines) = .ok ladder ∧
      (ladder.family "R_").map Section.name = ["R_1", "R_2", "R_1_1", "R_2_1", "R_2_2"] ∧
      ladder.IsFamilyOf "R_" (ladder.family "R_") := by
  have hparse : parse "l.ini" (Text.unlines ladderLines) = .ok ladder :=
    parse_unlines (by repeat constructor) (by decide +kernel) (by decide +kernel)
  exact ⟨hparse, by decide +kernel, family_exact hparse "R_"⟩

end File

end Statechart.Design
