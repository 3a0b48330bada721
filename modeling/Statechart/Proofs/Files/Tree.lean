import Statechart.Proofs.Files.Paths
import Statechart.Proofs.Work

/-!
Where walks through the tree of files lead.

A walk goes through directories only, and writing a file makes and removes none: so paths lead where
they led before. A file that can be written is reached by a name, and the callbacks file has another
name in the same directory. So it is another file, unless one of the two names is a link.
-/
set_option autoImplicit false

namespace Statechart

open Path

namespace Location

def Within (l m : Location) : Prop :=
  m.anchor = l.anchor ∧ l.names <+: m.names

theorem Within.refl (l : Location) : l.Within l :=
  ⟨rfl, List.prefix_rfl⟩

theorem not_within_child {d : Location} {a b : String} (h : a ≠ b) :
    ¬ (d.child a).Within (d.child b) := by
  intro hw
  have hlength : (d.child a).names.length = (d.child b).names.length := by simp [child]
  have hnames : (d.child a).names = (d.child b).names := hw.2.eq_of_length hlength
  simp only [child, List.append_cancel_left_eq, List.cons.injEq] at hnames
  exact h hnames.1

end Location

namespace Store

variable {s t : Store} {l k d : Location} {piece f : List Char} {ps pre : List (List Char)}
  {p : Path} {text : String}

theorem node?_put (hl : l.names ≠ []) (n : Node) (k : Location) :
    (s.put l n).node? k = if k = l then some n else s.node? k := by
  by_cases hk : k.names = []
  · have hne : k ≠ l := by
      intro he
      exact hl (he ▸ hk)
    simp [node?, hk, hne]
  · rw [node?_of_names hk, node?_of_names hk, lookup_put]

theorem walk_idle (h : isIdle piece = true) : s.walk l (piece :: ps) = s.walk l ps := by
  rw [walk, if_pos h]

theorem walk_up :
    s.walk l (['.', '.'] :: ps) = .ok k ↔
      s.node? l.up = some .directory ∧ s.walk l.up ps = .ok k := by
  rw [walk, if_neg (by decide), if_pos rfl]
  split <;> simp_all

/-- A name leads to the child of that name, or where a link of that name does. This is a directory
unless the walk ends with it. -/
theorem walk_name (hidle : isIdle piece = false) (hup : piece ≠ ['.', '.']) :
    s.walk l (piece :: ps) = .ok k ↔
      isLongName piece = false ∧
        (ps = [] ∧ k = s.follow (l.child (String.ofList piece)) ∨
          ps ≠ [] ∧ s.node? (s.follow (l.child (String.ofList piece))) = some .directory ∧
            s.walk (s.follow (l.child (String.ofList piece))) ps = .ok k) := by
  rw [walk, hidle, if_neg (by decide), if_neg hup]
  by_cases hlong : isLongName piece = true
  · simp [hlong]
  · rw [if_neg hlong]
    dsimp only
    split
    · simp [hlong, eq_comm]
    · rename_i hrest hnode
      simp_all
    · rename_i hrest hnode
      simp_all
    · rename_i hrest hnode
      simp_all

structure SameDirectories (s t : Store) : Prop where
  links : s.links = t.links
  nodes : ∀ l, s.node? l = some .directory ↔ t.node? l = some .directory

theorem SameDirectories.symm (h : SameDirectories s t) : SameDirectories t s :=
  ⟨h.links.symm, fun l => (h.nodes l).symm⟩

theorem SameDirectories.follow (h : SameDirectories s t) (l : Location) :
    s.follow l = t.follow l := by
  rw [Store.follow, Store.follow, h.links]

theorem SameDirectories.walk (h : SameDirectories s t) (hs : s.walk l ps = .ok k) :
    t.walk l ps = .ok k := by
  induction ps generalizing l with
  | nil => exact hs
  | cons piece ps ih =>
    by_cases hidle : isIdle piece = true
    · rw [walk_idle hidle] at hs ⊢
      exact ih hs
    · by_cases hup : piece = ['.', '.']
      · subst hup
        rw [walk_up] at hs ⊢
        exact ⟨(h.nodes _).1 hs.1, ih hs.2⟩
      · rw [Bool.not_eq_true] at hidle
        rw [walk_name hidle hup] at hs ⊢
        rw [h.follow] at hs
        obtain ⟨hlong, hend | ⟨hps, hnode, hwalk⟩⟩ := hs
        · exact ⟨hlong, .inl hend⟩
        · exact ⟨hlong, .inr ⟨hps, (h.nodes _).1 hnode, ih hwalk⟩⟩

def start (p : Path) : Location :=
  if p.isAbsolute then ⟨.root, []⟩ else .here

theorem locate_eq_ok :
    s.locate p = .ok l ↔
      p.text.toList.any (·.toNat = 0) = false ∧ p.text.isEmpty = false ∧
        p.text.utf8ByteSize < 4096 ∧
        s.walk (start p) (Text.splitChars '/' p.text.toList) = .ok l := by
  unfold locate
  by_cases hnul : p.text.toList.any (·.toNat = 0) = true
  · simp [hnul]
  · by_cases hempty : p.text.isEmpty = true
    · simp [hnul, hempty]
    · by_cases hlong : 4096 ≤ p.text.utf8ByteSize
      · simp [hnul, hempty, hlong, Nat.not_lt.2 hlong]
      · simp [hnul, hempty, hlong, Nat.lt_of_not_le hlong, start]

theorem SameDirectories.locate (h : SameDirectories s t) :
    s.locate p = .ok l ↔ t.locate p = .ok l := by
  rw [locate_eq_ok, locate_eq_ok]
  constructor
  · intro hs
    exact ⟨hs.1, hs.2.1, hs.2.2.1, h.walk hs.2.2.2⟩
  · intro ht
    exact ⟨ht.1, ht.2.1, ht.2.2.1, h.symm.walk ht.2.2.2⟩

theorem has_eq_true : s.has p = true ↔ ∃ l, s.locate p = .ok l ∧ s.node? l ≠ none := by
  unfold has
  cases s.locate p with
  | ok l => simp [Option.isSome_iff_ne_none]
  | error fault => simp

theorem walk_of_proper_nil (h : proper ps = []) : s.walk l ps = .ok l := by
  induction ps with
  | nil => rfl
  | cons piece ps ih =>
    by_cases hidle : isIdle piece = true
    · rw [proper_cons_idle hidle] at h
      rw [walk_idle hidle, ih h]
    · rw [Bool.not_eq_true] at hidle
      simp [proper_cons hidle] at h

def descend (s : Store) : Location → List (List Char) → Location
  | l, [] => l
  | l, step :: rest =>
    descend s (if step = ['.', '.'] then l.up else s.follow (l.child (String.ofList step))) rest

/-- A walk whose last step is a name ends where the name leads from the directory before it. -/
theorem eq_follow_of_walk (h : s.walk l ps = .ok k) (hproper : proper ps = pre ++ [f])
    (hf : f ≠ ['.', '.']) : k = s.follow ((s.descend l pre).child (String.ofList f)) := by
  induction ps generalizing l pre with
  | nil => simp at hproper
  | cons piece ps ih =>
    by_cases hidle : isIdle piece = true
    · rw [walk_idle hidle] at h
      rw [proper_cons_idle hidle] at hproper
      exact ih h hproper
    · rw [Bool.not_eq_true] at hidle
      rw [proper_cons hidle] at hproper
      by_cases hup : piece = ['.', '.']
      · subst hup
        cases pre with
        | nil => exact absurd (List.cons.inj hproper).1.symm hf
        | cons step pre =>
          obtain ⟨rfl, htail⟩ := List.cons.inj hproper
          rw [descend, if_pos rfl]
          exact ih (walk_up.1 h).2 htail
      · obtain ⟨-, h⟩ := (walk_name hidle hup).1 h
        cases pre with
        | nil =>
          obtain ⟨rfl, htail⟩ := List.cons.inj hproper
          obtain ⟨-, hk⟩ | ⟨-, -, hwalk⟩ := h
          · exact hk
          · -- only idle pieces follow the name
            rw [walk_of_proper_nil htail] at hwalk
            exact (Except.ok.inj hwalk).symm
        | cons step pre =>
          obtain ⟨rfl, htail⟩ := List.cons.inj hproper
          obtain ⟨rfl, -⟩ | ⟨-, -, hwalk⟩ := h
          · simp at htail
          · rw [descend, if_neg hup]
            exact ih hwalk htail

theorem directory_of_walk (hl : s.node? l = some .directory) (h : s.walk l ps = .ok k)
    (hlast : ∀ pre f, proper ps = pre ++ [f] → f = ['.', '.']) :
    s.node? k = some .directory := by
  induction ps generalizing l with
  | nil =>
    obtain rfl := Except.ok.inj h
    exact hl
  | cons piece ps ih =>
    by_cases hidle : isIdle piece = true
    · rw [walk_idle hidle] at h
      rw [proper_cons_idle hidle] at hlast
      exact ih hl h hlast
    · rw [Bool.not_eq_true] at hidle
      rw [proper_cons hidle] at hlast
      have hrest : ∀ pre f, proper ps = pre ++ [f] → f = ['.', '.'] := by
        intro pre f hproper
        exact hlast (piece :: pre) f (by rw [hproper, List.cons_append])
      by_cases hup : piece = ['.', '.']
      · subst hup
        obtain ⟨hnode, hwalk⟩ := walk_up.1 h
        exact ih hnode hwalk hrest
      · obtain ⟨-, ⟨rfl, -⟩ | ⟨-, hnode, hwalk⟩⟩ := (walk_name hidle hup).1 h
        · exact absurd (hlast [] piece rfl) hup
        · exact ih hnode hwalk hrest

theorem node?_start (p : Path) : s.node? (start p) = some .directory := by
  unfold start
  split <;> rfl

/-- The place of a path is that of its last name, in the directory that the steps before lead to. -/
def Named (s : Store) (p : Path) (l : Location) : Prop :=
  ∃ pre f, p.steps = pre ++ [f] ∧ f ≠ ['.', '.'] ∧
    l = (s.descend (start p) pre).child (String.ofList f)

def IsLink (s : Store) (p : Path) : Prop :=
  ∃ l, s.Named p l ∧ s.follow l ≠ l

theorem SameDirectories.descend (h : SameDirectories s t) (l : Location) (ps : List (List Char)) :
    s.descend l ps = t.descend l ps := by
  induction ps generalizing l with
  | nil => rfl
  | cons step rest ih => rw [Store.descend, Store.descend, h.follow, ih]

theorem SameDirectories.isLink (h : SameDirectories s t) : s.IsLink p ↔ t.IsLink p := by
  simp only [IsLink, Named, h.follow, h.descend]

theorem exists_named_of_locate (h : s.locate p = .ok l) (hnode : s.node? l ≠ some .directory) :
    ∃ k, s.Named p k ∧ l = s.follow k := by
  obtain ⟨-, -, -, hwalk⟩ := locate_eq_ok.1 h
  obtain ⟨pre, f, hsteps, hf⟩ : ∃ pre f, p.steps = pre ++ [f] ∧ f ≠ ['.', '.'] := by
    by_contra hno
    refine hnode (directory_of_walk (node?_start p) hwalk ?_)
    intro pre f hproper
    by_contra hf
    exact hno ⟨pre, f, hproper, hf⟩
  exact ⟨_, ⟨pre, f, hsteps, hf, rfl⟩, eq_follow_of_walk hwalk hsteps hf⟩

theorem siblings (h : s.Named p l) (chart : String) :
    ∃ (d : Location) (a b : String), a ≠ b ∧ l = d.child a ∧
      s.Named (callbacksPath p chart) (d.child b) ∧
      ∀ k, s.locate (callbacksPath p chart) = .ok k → k = s.follow (d.child b) := by
  obtain ⟨pre, f, hsteps, hf, rfl⟩ := h
  obtain ⟨g, hgsteps, hne, hg, habs⟩ := callbacksPath_steps hsteps hf chart
  have hstart : start (callbacksPath p chart) = start p := by rw [start, start, habs]
  refine ⟨s.descend (start p) pre, _, _, ?_, rfl, ⟨pre, g, hgsteps, hg, by rw [hstart]⟩, ?_⟩
  · intro he
    have hchars := congrArg String.toList he
    exact hne (by simpa using hchars.symm)
  · intro k hk
    obtain ⟨-, -, -, hwalk⟩ := locate_eq_ok.1 hk
    rw [hstart] at hwalk
    exact eq_follow_of_walk hwalk hgsteps hg

/-- A file that can be written and its callbacks file are at different places, and the first is not
below the second, unless one of the two names is a link. -/
theorem apart (hlocate : s.locate p = .ok l) (hnode : s.node? l ≠ some .directory)
    (hp : ¬ s.IsLink p) {chart : String} (hc : ¬ s.IsLink (callbacksPath p chart))
    (hk : s.locate (callbacksPath p chart) = .ok k) : ¬ k.Within l := by
  obtain ⟨m, hm, rfl⟩ := exists_named_of_locate hlocate hnode
  obtain ⟨d, a, b, hab, rfl, hnamed, hlead⟩ := siblings hm chart
  obtain rfl := hlead k hk
  have ha : s.follow (d.child a) = d.child a := by_contra fun hne => hp ⟨_, hm, hne⟩
  have hb : s.follow (d.child b) = d.child b := by_contra fun hne => hc ⟨_, hnamed, hne⟩
  rw [ha, hb]
  exact Location.not_within_child (Ne.symm hab)

/-- A file is written where its path leads, unless that is a directory. -/
theorem exists_put_of_write (h : s.write p text = .ok t) :
    ∃ l, s.locate p = .ok l ∧ s.node? l ≠ some .directory ∧ t = s.put l (.file (.text text)) := by
  unfold write at h
  split at h
  · cases h
  · obtain ⟨l, hl, h⟩ := bind_eq_ok.1 h
    split at h
    · cases h
    · rename_i hnode
      exact ⟨l, hl, hnode, (Except.ok.inj h).symm⟩

theorem write_of_locate (hnames : s.namesDirectory p = false) (hl : s.locate p = .ok l)
    (hnode : s.node? l ≠ some .directory) :
    s.write p text = .ok (s.put l (.file (.text text))) := by
  unfold write
  rw [hnames, hl, if_neg (by decide)]
  simp only [bind, Except.bind]

theorem names_ne_nil (hnode : s.node? l ≠ some .directory) : l.names ≠ [] := by
  intro h
  simp [node?, h] at hnode

theorem sameDirectories_put {n : Node} (hnode : s.node? l ≠ some .directory) (hn : n ≠ .directory) :
    SameDirectories s (s.put l n) := by
  refine ⟨rfl, fun k => ?_⟩
  rw [node?_put (names_ne_nil hnode)]
  by_cases hk : k = l
  · simp [hk, hnode, hn]
  · simp [hk]

theorem sameDirectories_of_write (h : s.write p text = .ok t) : SameDirectories s t := by
  obtain ⟨l, -, hnode, rfl⟩ := exists_put_of_write h
  exact sameDirectories_put hnode (by simp)

theorem not_isLink (h : s.links = []) : ¬ s.IsLink p := by
  rintro ⟨l, -, hl⟩
  exact hl (by rw [follow, h]; rfl)

end Store

end Statechart
