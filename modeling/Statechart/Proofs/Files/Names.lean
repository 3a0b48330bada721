import Statechart.Compile.Settings
import Statechart.Files.Store
import Statechart.Proofs.Text

/-!
Paths that are one plain name, and where they lead.

A plain name stands for itself in the working directory, unless it is too long to be there at all.
-/
set_option autoImplicit false

namespace Statechart

structure PlainName (cs : List Char) : Prop where
  nonempty : cs ≠ []
  separator : '/' ∉ cs
  dot : cs.head? ≠ some '.'
  nul : ∀ c ∈ cs, c.toNat ≠ 0

namespace PlainName

variable {cs : List Char}

def path (cs : List Char) : Path := ⟨String.ofList cs⟩

theorem isAbsolute (h : PlainName cs) : (path cs).isAbsolute = false := by
  have hhead : cs.head? ≠ some '/' := by
    intro he
    exact h.separator (List.mem_of_head? he)
  simp [Path.isAbsolute, path, hhead]

theorem startsHere (h : PlainName cs) : (path cs).startsHere = false := by
  have hdot := h.dot
  unfold Path.startsHere
  simp only [path, String.toList_ofList]
  split
  · simp at hdot
  · simp at hdot
  · rfl

theorem head (h : PlainName cs) : (path cs).head = [] := by
  simp [Path.head, h.isAbsolute, h.startsHere]

theorem pieces (h : PlainName cs) : (path cs).pieces = [cs] := by
  rw [Path.pieces, h.head]
  simp [path, Text.splitChars_of_not_mem h.separator]

theorem isIdle (h : PlainName cs) : Path.isIdle cs = false := by
  have hdot : cs ≠ ['.'] := by
    intro he
    exact h.dot (by simp [he])
  simp [Path.isIdle, h.nonempty, hdot]

theorem not_up (h : PlainName cs) : cs ≠ ['.', '.'] := by
  intro he
  exact h.dot (by simp [he])

theorem fileName? (h : PlainName cs) : (path cs).fileName? = some (String.ofList cs) := by
  simp [Path.fileName?, Path.components, h.isAbsolute, h.startsHere, h.pieces, h.isIdle, h.not_up]

theorem parent (h : PlainName cs) : (path cs).parent = ⟨""⟩ := by
  simp [Path.parent, Path.parent?, h.pieces, h.isIdle, h.head, Path.ofReversed]

theorem callbacksPath {stem ending : List Char} {chart : String}
    (h : PlainName (stem ++ '.' :: ending)) (hstem : '.' ∉ stem) (hending : '.' ∉ ending)
    (hne : stem ≠ []) :
    callbacksPath (path (stem ++ '.' :: ending)) chart = path (stem ++ "_cb.rs".toList) := by
  have hsplit : Text.splitChars '.' (stem ++ '.' :: ending) = [stem, ending] := by
    rw [Text.splitChars_append, Text.splitChars_of_not_mem hstem,
      Text.splitChars_of_not_mem hending, List.singleton_append]
  have hstem? : (path (stem ++ '.' :: ending)).stem? = some (String.ofList stem) := by
    simp [Path.stem?, h.fileName?, hsplit, hne]
  simp only [Statechart.callbacksPath, hstem?, Option.getD_some, Path.withFileName, h.fileName?,
    h.parent, Path.join]
  simp [path]

end PlainName

namespace Store

variable {s : Store} {cs : List Char}

theorem lookup_put (l : Location) (n : Node) (k : Location) :
    (s.put l n).nodes.lookup k = if k = l then some n else s.nodes.lookup k := by
  have hinsert : ∀ nodes : List (Location × Node),
      (put.insert l n nodes).lookup k = if k = l then some n else nodes.lookup k := by
    intro nodes
    induction nodes with
    | nil =>
      by_cases hk : k = l
      · simp [put.insert, hk]
      · simp [put.insert, List.lookup_cons, hk, beq_false_of_ne hk]
    | cons entry nodes ih =>
      obtain ⟨i, m⟩ := entry
      by_cases hi : i = l
      · subst hi
        by_cases hk : k = i
        · simp [put.insert, hk]
        · simp [put.insert, List.lookup_cons, hk, beq_false_of_ne hk]
      · by_cases hk : k = i
        · subst hk
          simp [put.insert, hi]
        · simp [put.insert, hi, List.lookup_cons, beq_false_of_ne hk, ih]
  exact hinsert s.nodes

theorem node?_of_names {l : Location} (h : l.names ≠ []) : s.node? l = s.nodes.lookup l := by
  simp [node?, h]

theorem disk_read (p : Path) : disk.read s p = s.read p := rfl

theorem disk_has (p : Path) : disk.has s p = s.has p := rfl

theorem disk_write (p : Path) (text : String) : disk.write s p text = s.write p text := rfl

theorem locate_path (h : PlainName cs) (hsize : (String.ofList cs).utf8ByteSize < 4096) :
    s.locate (PlainName.path cs) =
      if isLongName cs then .error .nameTooLong
      else .ok (s.follow ⟨.above 0, [String.ofList cs]⟩) := by
  have hnul : cs.any (·.toNat = 0) = false := by simpa using h.nul
  have hempty : (String.ofList cs).isEmpty = false := by simpa using h.nonempty
  have hwalk : walk s Location.here [cs] =
      if isLongName cs then .error .nameTooLong
      else .ok (s.follow ⟨.above 0, [String.ofList cs]⟩) := by
    simp only [walk, h.isIdle, h.not_up, Bool.false_eq_true, if_false]
    by_cases hlong : isLongName cs = true
    · simp [hlong]
    · simp [hlong, Location.here, Location.child]
  unfold locate
  rw [h.isAbsolute]
  simp only [PlainName.path, String.toList_ofList, hnul, hempty, Nat.not_le.2 hsize,
    Bool.false_eq_true, if_false, Text.splitChars_of_not_mem h.separator, hwalk]

theorem not_namesDirectory (h : PlainName cs) :
    s.namesDirectory (PlainName.path cs) = false := by
  unfold namesDirectory
  simp only [PlainName.path, String.toList_ofList, Text.splitChars_of_not_mem h.separator,
    List.reverse_singleton]
  split
  · rename_i heq
    exact absurd (List.cons.inj heq).1 h.nonempty
  · rfl

theorem write_path_of_absent {text : String} (h : PlainName cs)
    (hsize : (String.ofList cs).utf8ByteSize ≤ 255)
    (hlink : s.follow ⟨.above 0, [String.ofList cs]⟩ = ⟨.above 0, [String.ofList cs]⟩)
    (habsent : s.nodes.lookup ⟨.above 0, [String.ofList cs]⟩ = none) :
    s.write (PlainName.path cs) text =
      .ok (s.put ⟨.above 0, [String.ofList cs]⟩ (.file (.text text))) := by
  have hlong : isLongName cs = false := by
    simp only [isLongName, decide_eq_false_iff_not]
    omega
  unfold write
  rw [not_namesDirectory h, locate_path h (by omega), hlong, hlink]
  simp [bind, Except.bind, node?, habsent]

/-- A name that is too long is never there and cannot be written. -/
theorem write_path_of_long {text : String} (h : PlainName cs)
    (hsize : (String.ofList cs).utf8ByteSize < 4096) (hlong : isLongName cs = true) :
    s.has (PlainName.path cs) = false ∧
      s.write (PlainName.path cs) text = .error .nameTooLong := by
  unfold has write
  rw [not_namesDirectory h, locate_path h hsize, hlong]
  exact ⟨rfl, rfl⟩

end Store

end Statechart
