import Mathlib.Data.List.Nodup
import Statechart.Design.Family
import Statechart.Proofs.Text
import Statechart.Proofs.Work

/-!
The sections of a family have distinct names.

A number has no underscore, so the name of a section tells its chunk and its place there. The lines
of a file count for warnings only.
-/
set_option autoImplicit false

namespace Statechart.Design.File

theorem numeral_inj {m n : Nat} (h : toString m = toString n) : m = n := by
  have hdigits : Nat.toDigits 10 m = Nat.toDigits 10 n := by
    simpa [Nat.toString_eq_ofList_toDigits] using congrArg String.toList h
  simpa using congrArg (Nat.ofDigitChars 10 · 0) hdigits

theorem containsChar_numeral (n : Nat) : Text.containsChar '_' (toString n) = false := by
  simp [Text.containsChar, Nat.underscore_not_in_toDigits]

theorem name_of_section? {f : File} {name : String} {s : Section} (h : f.section? name = some s) :
    s.name = name := by
  simpa using List.find?_some h

theorem runFrom_names (f : File) (base : String) (limit n : Nat) :
    (runFrom (fun n => f.section? (base ++ toString n)) limit n).map Section.name =
      (List.range' n (runFrom (fun n => f.section? (base ++ toString n)) limit n).length).map
        fun n => base ++ toString n := by
  induction limit generalizing n with
  | zero => rfl
  | succ limit ih =>
    cases hs : f.section? (base ++ toString n) with
    | none => simp only [runFrom, hs, List.length_nil, List.range'_zero, List.map_nil]
    | some s =>
      simp only [runFrom, hs, List.map_cons, List.length_cons, List.range'_succ, ih (n + 1),
        name_of_section? hs]

theorem chunk_names (f : File) (base : String) :
    (f.chunk base).map Section.name =
      (List.range' 1 (f.chunk base).length).map fun n => base ++ toString n :=
  runFrom_names f base f.sections.length 1

theorem chunk_nodup (f : File) (base : String) : ((f.chunk base).map Section.name).Nodup := by
  rw [chunk_names]
  refine List.Nodup.map ?_ List.nodup_range'
  intro m n h
  exact numeral_inj ((String.append_right_inj base).1 h)

theorem name_of_mem_chunk {f : File} {base name : String}
    (h : name ∈ (f.chunk base).map Section.name) : ∃ n : Nat, name = base ++ toString n := by
  rw [chunk_names] at h
  obtain ⟨n, -, rfl⟩ := List.mem_map.1 h
  exact ⟨n, rfl⟩

theorem chunksFrom_succ (f : File) (family : String) (limit c : Nat) :
    f.chunksFrom family (limit + 1) c =
      match f.chunk (family ++ toString c ++ "_") with
      | [] => []
      | found => found ++ f.chunksFrom family limit (c + 1) := rfl

theorem name_of_mem_chunksFrom {f : File} {family name : String} {limit c : Nat}
    (h : name ∈ (f.chunksFrom family limit c).map Section.name) :
    ∃ d n : Nat, c ≤ d ∧ name = family ++ (toString d ++ "_" ++ toString n) := by
  induction limit generalizing c with
  | zero => simp [chunksFrom] at h
  | succ limit ih =>
    rw [chunksFrom_succ] at h
    split at h
    · simp at h
    · rw [List.map_append, List.mem_append] at h
      rcases h with h | h
      · obtain ⟨n, rfl⟩ := name_of_mem_chunk h
        exact ⟨c, n, Nat.le_refl c, by simp only [String.append_assoc]⟩
      · obtain ⟨d, n, hd, rfl⟩ := ih h
        exact ⟨d, n, by omega, rfl⟩

theorem cut?_place (d n : Nat) :
    Text.cut? (· = '_') (toString d ++ "_" ++ toString n) = some (toString d, toString n) :=
  Text.cut?_around (containsChar_numeral d)

theorem chunksFrom_nodup (f : File) (family : String) (limit c : Nat) :
    ((f.chunksFrom family limit c).map Section.name).Nodup := by
  induction limit generalizing c with
  | zero => simp [chunksFrom]
  | succ limit ih =>
    rw [chunksFrom_succ]
    split
    · simp
    · rw [List.map_append, List.nodup_append']
      refine ⟨chunk_nodup f _, ih (c + 1), ?_⟩
      intro name h₁ h₂
      obtain ⟨m, rfl⟩ := name_of_mem_chunk h₁
      obtain ⟨d, n, hd, hname⟩ := name_of_mem_chunksFrom h₂
      have hplace : toString c ++ "_" ++ toString m = toString d ++ "_" ++ toString n := by
        simpa [String.append_assoc] using hname
      have hcut := cut?_place c m
      rw [hplace, cut?_place d n] at hcut
      have hcd : d = c := numeral_inj (by simpa using congrArg (Option.map Prod.fst) hcut)
      omega

theorem family_nodup (f : File) (family : String) :
    ((f.family family).map Section.name).Nodup := by
  rw [File.family, List.map_append, List.nodup_append']
  refine ⟨chunk_nodup f family, chunksFrom_nodup f family _ 1, ?_⟩
  intro name h₁ h₂
  obtain ⟨m, rfl⟩ := name_of_mem_chunk h₁
  obtain ⟨d, n, -, hname⟩ := name_of_mem_chunksFrom h₂
  have hplace : toString m = toString d ++ "_" ++ toString n :=
    (String.append_right_inj family).1 hname
  have hm := containsChar_numeral m
  rw [hplace] at hm
  simp [Text.containsChar] at hm

theorem chunksFrom_lines {label : String} (lines lines' : List String) {sections : List Section}
    (family : String) (limit c : Nat) :
    chunksFrom ⟨label, lines, sections⟩ family limit c =
      chunksFrom ⟨label, lines', sections⟩ family limit c := by
  induction limit generalizing c with
  | zero => rfl
  | succ limit ih =>
    rw [chunksFrom_succ, chunksFrom_succ, ih]
    rfl

theorem family_lines {label : String} (lines lines' : List String) {sections : List Section}
    (family : String) :
    File.family ⟨label, lines, sections⟩ family = File.family ⟨label, lines', sections⟩ family :=
  congrArg (chunk ⟨label, lines, sections⟩ family ++ ·)
    (chunksFrom_lines lines lines' family sections.length 1)

/-- Reading a family gives its sections, whatever the count of its headers. -/
theorem readFamily_matches {σ : Type} (f : File) (family : String) :
    (f.readFamily family : Work Error σ (List Section)).Matches (pure (f.family family)) := by
  intro s
  unfold readFamily
  dsimp only
  split <;> exact ⟨rfl, rfl⟩

end Statechart.Design.File
