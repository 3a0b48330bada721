import Statechart.Callbacks.Override
import Statechart.Proofs.Lists
import Statechart.Proofs.Work

/-!
Merging hand-written callbacks.

The functions of a file are its items that carry a marker, in their order and without the first one.
Each goes to the routine of its name and to no other. A function that no routine waits for is an
orphan. Nothing else becomes of the routines, and merging fails only where a function and the
routine of its name have different roles.
-/
set_option autoImplicit false

namespace Statechart

open Target (Tree)

namespace Override

def IsMarker (role : Role) (attr : Tree) : Prop :=
  ∃ kind front inside word arguments rest,
    attr = .node kind (front ++ [.group .bracket
      [.node inside (.node .path [.list [], .list [.node .segment [word, arguments]]] :: rest)]]) ∧
    word.leafText = role.marker

def Plain (attr : Tree) : Prop :=
  ∀ role, ¬ IsMarker role attr

/-- The role of the first marker, and the attributes without it. -/
def FirstMarker (attrs : List Tree) (role : Role) (rest : List Tree) : Prop :=
  ∃ before marker after, attrs = before ++ marker :: after ∧ (∀ a ∈ before, Plain a) ∧
    IsMarker role marker ∧ rest = before ++ after

def fnTree (attrs : List Tree) (visibility default : Tree) (sig inner : List Tree) (stmts : Tree) :
    Tree :=
  .node .fnItem [.list attrs, visibility, default, .node .sig sig,
    .node .block [.group .brace [.list inner, stmts]]]

def fnName (sig : List Tree) : String :=
  (sig.getD 5 (.list [])).leafText

/-- A marked function of a file, and what it is without its first marker. Those inside the body come
after those in front. -/
inductive Unmarks : Tree → Override → Prop
  | front {attrs rest sig inner : List Tree} {visibility default stmts : Tree} {role : Role}
      (h : FirstMarker attrs role rest) :
      Unmarks (fnTree attrs visibility default sig inner stmts)
        ⟨fnName sig, role, fnTree rest visibility default sig inner stmts⟩
  | inside {attrs rest sig inner : List Tree} {visibility default stmts : Tree} {role : Role}
      (hattrs : ∀ a ∈ attrs, Plain a) (h : FirstMarker inner role rest) :
      Unmarks (fnTree attrs visibility default sig inner stmts)
        ⟨fnName sig, role, fnTree attrs visibility default sig rest stmts⟩

inductive Collects : List Tree → List Override → Prop
  | nil : Collects [] []
  | marked {t : Tree} {f : Override} {ts : List Tree} {fs : List Override} (h : Unmarks t f)
      (rest : Collects ts fs) : Collects (t :: ts) (f :: fs)
  | other {t : Tree} {ts : List Tree} {fs : List Override} (h : ∀ f, ¬ Unmarks t f)
      (rest : Collects ts fs) : Collects (t :: ts) fs

theorem markedRole?_eq_some {attr : Tree} {role : Role} :
    markedRole? attr = some role ↔ IsMarker role attr := by
  constructor
  · intro h
    unfold markedRole? at h
    split at h
    · split at h
      · rename_i kids inside word arguments rest hlast
        obtain ⟨front, rfl⟩ := List.getLast?_eq_some_iff.1 hlast
        refine ⟨_, front, inside, word, arguments, rest, rfl, ?_⟩
        split at h
        · rename_i hword
          cases h
          exact hword
        · rename_i hword
          cases h
          exact hword
        · cases h
      · cases h
    · cases h
  · intro h
    obtain ⟨kind, front, inside, word, arguments, rest, rfl, hword⟩ := h
    rw [markedRole?, List.getLast?_concat]
    dsimp only
    rw [hword]
    cases role <;> rfl

theorem markedRole?_eq_none {attr : Tree} : markedRole? attr = none ↔ Plain attr := by
  simp only [Plain, ← markedRole?_eq_some, Option.eq_none_iff_forall_ne_some, ne_eq]

theorem takeMarker_eq_none {attrs : List Tree} :
    takeMarker attrs = none ↔ ∀ a ∈ attrs, Plain a := by
  induction attrs with
  | nil => simp [takeMarker]
  | cons attr attrs ih =>
    rw [List.forall_mem_cons, ← ih, ← markedRole?_eq_none, takeMarker]
    cases markedRole? attr <;> simp

theorem takeMarker_eq_some {attrs rest : List Tree} {role : Role} :
    takeMarker attrs = some (role, rest) ↔ FirstMarker attrs role rest := by
  induction attrs generalizing rest with
  | nil => simp [takeMarker, FirstMarker]
  | cons attr attrs ih =>
    rw [takeMarker]
    cases hrole : markedRole? attr with
    | some role' =>
      have hmarker := markedRole?_eq_some.1 hrole
      simp only [Option.some.injEq, Prod.mk.injEq]
      constructor
      · intro h
        obtain ⟨rfl, rfl⟩ := h
        exact ⟨[], attr, attrs, rfl, by simp, hmarker, rfl⟩
      · intro h
        obtain ⟨before, marker, after, heq, hbefore, hrole', rfl⟩ := h
        cases before with
        | nil =>
          cases heq
          rw [markedRole?_eq_some.2 hrole'] at hrole
          exact ⟨(Option.some.inj hrole).symm, rfl⟩
        | cons b before =>
          cases heq
          exact absurd hmarker (hbefore attr List.mem_cons_self role')
    | none =>
      have hplain := markedRole?_eq_none.1 hrole
      simp only [Option.map_eq_some_iff, Prod.exists, Prod.mk.injEq]
      constructor
      · intro h
        obtain ⟨role', rest', hrest, rfl, rfl⟩ := h
        obtain ⟨before, marker, after, rfl, hbefore, hmarker, rfl⟩ := ih.1 hrest
        exact ⟨attr :: before, marker, after, rfl, List.forall_mem_cons.2 ⟨hplain, hbefore⟩,
          hmarker, rfl⟩
      · intro h
        obtain ⟨before, marker, after, heq, hbefore, hmarker, rfl⟩ := h
        cases before with
        | nil =>
          cases heq
          exact absurd hmarker (hplain role)
        | cons b before =>
          cases heq
          exact ⟨role, before ++ after, ih.2 ⟨before, marker, after, rfl,
            (List.forall_mem_cons.1 hbefore).2, hmarker, rfl⟩, rfl, rfl⟩

theorem ofItem?_eq_some {t : Tree} {f : Override} : ofItem? t = some f ↔ Unmarks t f := by
  constructor
  · intro h
    unfold ofItem? at h
    split at h
    · dsimp only at h
      split at h
      · rename_i hfront
        cases h
        exact .front (takeMarker_eq_some.1 hfront)
      · rename_i hfront
        obtain ⟨⟨role, rest⟩, hinside, rfl⟩ := Option.map_eq_some_iff.1 h
        exact .inside (takeMarker_eq_none.1 hfront) (takeMarker_eq_some.1 hinside)
    · cases h
  · intro h
    cases h with
    | front hfront =>
      simp only [fnTree, ofItem?, takeMarker_eq_some.2 hfront]
      rfl
    | inside hattrs hinside =>
      simp only [fnTree, ofItem?, takeMarker_eq_none.2 hattrs, takeMarker_eq_some.2 hinside]
      rfl

theorem collects_filterMap (ts : List Tree) : Collects ts (ts.filterMap ofItem?) := by
  induction ts with
  | nil => exact .nil
  | cons t ts ih =>
    cases h : ofItem? t with
    | some f =>
      rw [List.filterMap_cons_some h]
      exact .marked (ofItem?_eq_some.1 h) ih
    | none =>
      rw [List.filterMap_cons_none h]
      refine .other ?_ ih
      intro f hf
      rw [ofItem?_eq_some.2 hf] at h
      cases h

theorem nodup_of_repeated? {before : List String} {fs : List Override}
    (h : repeated? before fs = none) :
    (fs.map name).Nodup ∧ ∀ f ∈ fs, f.name ∉ before := by
  induction fs generalizing before with
  | nil => simp
  | cons f fs ih =>
    rw [repeated?] at h
    split at h
    · cases h
    · rename_i hnew
      obtain ⟨hnodup, hrest⟩ := ih h
      have hmem : f.name ∉ fs.map name := by
        intro hf
        obtain ⟨g, hg, hname⟩ := List.mem_map.1 hf
        exact hrest g hg (hname ▸ List.mem_cons_self)
      refine ⟨List.nodup_cons.2 ⟨hmem, hnodup⟩, List.forall_mem_cons.2 ⟨by simpa using hnew, ?_⟩⟩
      intro g hg hbefore
      exact hrest g hg (List.mem_cons_of_mem _ hbefore)

end Override

namespace OverrideFile

open Override (Collects)

theorem parse_eq_ok {path : Path} {source : String} {file : OverrideFile}
    (h : parse path source = .ok file) :
    ∃ tree, Target.Fragment.file? source = some tree ∧ Collects (items tree) file.functions ∧
      (file.functions.map Override.name).Nodup := by
  unfold parse at h
  -- What the parser makes of the text is left open.
  generalize Target.Fragment.file? source = parsed at h ⊢
  cases parsed with
  | none => cases h
  | some tree =>
    dsimp only at h
    split at h
    · cases h
    · rename_i hrepeated
      cases h
      exact ⟨tree, rfl, Override.collects_filterMap _, (Override.nodup_of_repeated? hrepeated).1⟩

variable {f : Override} {fs : List Override} {r : Routine} {rs : List Routine}

/-- A routine of the name of a function, but of the other role. -/
def Conflicts (rs : List Routine) (f : Override) : Prop :=
  ∃ r ∈ rs, r.name = f.name ∧ r.role ≠ f.role

/-- A routine with the function of its name in its place, if there is one. -/
def handedOver (fs : List Override) (r : Routine) : Routine :=
  { r with override := ((fs.find? (·.name == r.name)).map Override.tree).or r.override }

@[simp] theorem name_handedOver (fs : List Override) (r : Routine) :
    (handedOver fs r).name = r.name := rfl

@[simp] theorem role_handedOver (fs : List Override) (r : Routine) :
    (handedOver fs r).role = r.role := rfl

@[simp] theorem handedOver_nil : handedOver [] = id := rfl

theorem handedOver_of_ne (h : f.name ≠ r.name) : handedOver (f :: fs) r = handedOver fs r := by
  simp [handedOver, h]

theorem handedOver_handedOver (hf : f.name ∉ fs.map Override.name) (r : Routine) :
    handedOver fs (handedOver [f] r) = handedOver (f :: fs) r := by
  by_cases h : f.name = r.name
  · have hnone : fs.find? (·.name == r.name) = none := by
      rw [List.find?_eq_none]
      intro g hg hname
      exact hf (List.mem_map.2 ⟨g, hg, (eq_of_beq hname).trans h.symm⟩)
    simp [handedOver, h, hnone]
  · rw [handedOver_of_ne h, handedOver_of_ne h, handedOver_nil, id]

/-- With distinct names a function goes to every routine of its name. -/
theorem replace_eq_map (hnames : (rs.map Routine.name).Nodup) (f : Override) :
    replace f rs = rs.map (handedOver [f]) := by
  induction rs with
  | nil => rfl
  | cons r rs ih =>
    obtain ⟨hr, hrs⟩ := List.nodup_cons.1 hnames
    rw [replace, List.map_cons]
    split
    · rename_i hname
      have hrest : rs.map (handedOver [f]) = rs := by
        rw [List.map_congr_left, List.map_id]
        intro r' hr'
        refine handedOver_of_ne fun hname' => hr ?_
        exact List.mem_map.2 ⟨r', hr', hname'.symm.trans hname.symm⟩
      rw [hrest]
      simp [handedOver, hname]
    · rename_i hname
      rw [ih hrs, handedOver_of_ne (Ne.symm hname), handedOver_nil, id]

theorem conflicts_map_handedOver (fs : List Override) (g : Override) :
    Conflicts (rs.map (handedOver fs)) g ↔ Conflicts rs g := by
  simp [Conflicts]

def orphanNames (fs : List Override) (rs : List Routine) : List String :=
  (fs.map Override.name).filter fun name => name ∉ rs.map Routine.name

theorem yields_mergeAll_of_agree (hnames : (rs.map Routine.name).Nodup)
    (hfs : (fs.map Override.name).Nodup) (hagree : ∀ f ∈ fs, ¬ Conflicts rs f) :
    (mergeAll fs).Yields rs (orphanNames fs rs) [] (rs.map (handedOver fs)) := by
  induction fs generalizing rs with
  | nil => simp [mergeAll, orphanNames]
  | cons f fs ih =>
    obtain ⟨hf, hfs⟩ := List.nodup_cons.1 hfs
    obtain ⟨hfirst, hagree⟩ := List.forall_mem_cons.1 hagree
    rw [mergeAll, Work.yields_get_bind]
    cases hfound : rs.find? (·.name == f.name) with
    | none =>
      have hnone : ∀ r ∈ rs, r.name ≠ f.name := by simpa using hfound
      have hmap : rs.map (handedOver (f :: fs)) = rs.map (handedOver fs) :=
        List.map_congr_left fun r hr => handedOver_of_ne (Ne.symm (hnone r hr))
      have horphan : orphanNames (f :: fs) rs = f.name :: orphanNames fs rs := by
        rw [orphanNames, List.map_cons, List.filter_cons_of_pos (by simpa using hnone), orphanNames]
      rw [hmap, horphan]
      exact Work.yields_bind.2 ⟨_, [], _, [], ih hnames hfs hagree, by simp, rfl⟩
    | some r =>
      have hr := List.mem_of_find?_eq_some hfound
      have hname : r.name = f.name := by simpa using List.find?_some hfound
      have hrole : r.role = f.role := by
        by_contra hne
        exact hfirst ⟨r, hr, hname, hne⟩
      have hkept : (rs.map (handedOver [f])).map Routine.name = rs.map Routine.name := by simp
      have hrest := ih (hkept ▸ hnames) hfs fun g hg =>
        mt (conflicts_map_handedOver [f] g).1 (hagree g hg)
      have hmap :
          (rs.map (handedOver [f])).map (handedOver fs) = rs.map (handedOver (f :: fs)) := by
        rw [List.map_map]
        exact List.map_congr_left fun r _ => handedOver_handedOver hf r
      have horphan : orphanNames fs (rs.map (handedOver [f])) = orphanNames (f :: fs) rs := by
        rw [orphanNames, hkept, orphanNames, List.map_cons, List.filter_cons_of_neg]
        simpa using ⟨r, hr, hname⟩
      simp only [ne_eq, hrole, not_true_eq_false, if_false]
      rw [Work.yields_modify_bind, replace_eq_map hnames, ← hmap, ← horphan]
      exact hrest

theorem fails_mergeAll_of_conflict (hnames : (rs.map Routine.name).Nodup)
    (h : ∃ f ∈ fs, Conflicts rs f) :
    ∃ f ∈ fs, Conflicts rs f ∧ ∃ rs', (mergeAll fs).Fails rs (.roleConflict f.name) rs' := by
  induction fs generalizing rs with
  | nil => simp at h
  | cons f fs ih =>
    rw [mergeAll]
    simp only [Work.fails_get_bind]
    cases hfound : rs.find? (·.name == f.name) with
    | none =>
      have hagree : ¬ Conflicts rs f := by
        intro hconflict
        obtain ⟨r, hr, hname, -⟩ := hconflict
        exact absurd hname (by simpa using List.find?_eq_none.1 hfound r hr)
      obtain ⟨g, hg, hconflict, rs', hfails⟩ := ih hnames (by simpa [hagree] using h)
      exact ⟨g, List.mem_cons_of_mem f hg, hconflict, rs', Work.fails_bind.2 (.inl hfails)⟩
    | some r =>
      have hr := List.mem_of_find?_eq_some hfound
      have hname : r.name = f.name := by simpa using List.find?_some hfound
      by_cases hrole : r.role = f.role
      · have hagree : ¬ Conflicts rs f := by
          intro hconflict
          obtain ⟨r', hr', hname', hne⟩ := hconflict
          obtain rfl : r' = r :=
            List.inj_on_of_nodup_map hnames hr' hr (hname'.trans hname.symm)
          exact hne hrole
        have hkept : (rs.map (handedOver [f])).map Routine.name = rs.map Routine.name := by simp
        have hlater : ∃ g ∈ fs, Conflicts (rs.map (handedOver [f])) g := by
          simpa [conflicts_map_handedOver, hagree] using h
        obtain ⟨g, hg, hconflict, rs', hfails⟩ := ih (hkept ▸ hnames) hlater
        rw [conflicts_map_handedOver] at hconflict
        refine ⟨g, List.mem_cons_of_mem f hg, hconflict, rs', ?_⟩
        simp only [ne_eq, hrole, not_true_eq_false, if_false]
        rw [Work.fails_modify_bind, replace_eq_map hnames]
        exact hfails
      · refine ⟨f, List.mem_cons_self, ⟨r, hr, hname, hrole⟩, rs, ?_⟩
        simp only [ne_eq, hrole, not_false_eq_true, if_true]
        exact Work.fails_fail.2 ⟨rfl, rfl⟩

/-- A routine before and after merging: the function of its name is put in its place, and the rest
stays as it was. -/
structure Filled (fs : List Override) (r r' : Routine) : Prop where
  name : r'.name = r.name
  role : r'.role = r.role
  body : r'.body = r.body
  override : ∀ tree, r'.override = some tree ↔ ∃ f ∈ fs, f.name = r.name ∧ f.tree = tree

/-- What merging gives: the routines in their order, the orphans in the order of the file, and one
warning if there are any. -/
structure Merged (fs : List Override) (rs rs' : List Routine) (left : List String)
    (warnings : List Warning) : Prop where
  routines : List.Forall₂ (Filled fs) rs rs'
  orphans : left = (fs.map Override.name).filter fun name => name ∉ rs.map Routine.name
  warned : warnings.map Warning.concern = if left = [] then [] else [.orphanedOverride]

theorem filled_handedOver (hfs : (fs.map Override.name).Nodup) (hr : r.override = none) :
    Filled fs r (handedOver fs r) := by
  refine ⟨rfl, rfl, rfl, ?_⟩
  intro tree
  rw [handedOver, hr, Option.or_none, Option.map_eq_some_iff]
  simp only [find?_key_eq_some hfs, and_assoc]

theorem merge_of_agree {file : OverrideFile} (hnames : (rs.map Routine.name).Nodup)
    (hfs : (file.functions.map Override.name).Nodup)
    (hagree : ∀ f ∈ file.functions, ¬ Conflicts rs f) :
    (file.merge rs).result = .ok (orphanNames file.functions rs) ∧
      (file.merge rs).state = rs.map (handedOver file.functions) ∧
      (file.merge rs).journal.warnings.map Warning.concern =
        if orphanNames file.functions rs = [] then [] else [.orphanedOverride] := by
  have hall := yields_mergeAll_of_agree hnames hfs hagree
  rw [Work.Yields] at hall
  rw [merge, Work.bind_apply, hall]
  generalize orphanNames file.functions rs = orphans
  cases orphans with
  | nil => exact ⟨rfl, rfl, rfl⟩
  | cons name names => exact ⟨rfl, rfl, rfl⟩

theorem merge_of_conflict {file : OverrideFile} (hnames : (rs.map Routine.name).Nodup)
    (h : ∃ f ∈ file.functions, Conflicts rs f) :
    ∃ f ∈ file.functions, Conflicts rs f ∧
      (file.merge rs).result = .error (.roleConflict f.name) := by
  obtain ⟨f, hf, hconflict, rs', hfails⟩ := fails_mergeAll_of_conflict hnames h
  exact ⟨f, hf, hconflict, (Work.fails_bind.2 (.inl hfails) : file.merge.Fails rs _ rs').1⟩

/-- Merging a file loses no function and invents none. It fails just in case a marked function has
the name of a routine of the other role. -/
theorem merge_exact {path : Path} {source : String} {file : OverrideFile} {rs : List Routine}
    (hparse : parse path source = .ok file) (hnames : (rs.map Routine.name).Nodup)
    (hgenerated : ∀ r ∈ rs, r.override = none) :
    (∃ tree, Target.Fragment.file? source = some tree ∧ Collects (items tree) file.functions) ∧
      (∀ orphans, (file.merge rs).result = .ok orphans →
        Merged file.functions rs (file.merge rs).state orphans
          (file.merge rs).journal.warnings) ∧
      (∀ e, (file.merge rs).result = .error e →
        ∃ f ∈ file.functions, Conflicts rs f ∧ e = .roleConflict f.name) ∧
      ((∃ f ∈ file.functions, Conflicts rs f) → ∃ e, (file.merge rs).result = .error e) := by
  obtain ⟨tree, htree, hcollects, hfs⟩ := parse_eq_ok hparse
  refine ⟨⟨tree, htree, hcollects⟩, ?_⟩
  by_cases hconflict : ∃ f ∈ file.functions, Conflicts rs f
  · obtain ⟨f, hf, hf', herror⟩ := merge_of_conflict hnames hconflict
    rw [herror]
    refine ⟨by simp, ?_, fun _ => ⟨_, rfl⟩⟩
    intro e he
    cases he
    exact ⟨f, hf, hf', rfl⟩
  · obtain ⟨hresult, hstate, hwarnings⟩ := merge_of_agree hnames hfs
      fun f hf hf' => hconflict ⟨f, hf, hf'⟩
    rw [hresult]
    refine ⟨?_, by simp, fun h => absurd h hconflict⟩
    intro orphans horphans
    cases horphans
    refine ⟨?_, rfl, hwarnings⟩
    rw [hstate, List.forall₂_map_right_iff, List.forall₂_same]
    exact fun r hr => filled_handedOver hfs (hgenerated r hr)

/-- Two marked functions, of which only the first has a routine, and one without a marker. -/
def gateSource : String :=
  "#[action]fn open()\x7b\x7dfn aid()\x7b\x7dfn shut()\x7b#![guard]\x7d"

def gateRoutines : List Routine :=
  [⟨"wait", .guard, [], none⟩, ⟨"open", .action, [.trace "-> Gate"], none⟩]

theorem gate_merged : ∃ file, parse ⟨"gate.rs"⟩ gateSource = .ok file ∧
    (gateRoutines.map Routine.name).Nodup ∧ (∀ r ∈ gateRoutines, r.override = none) ∧
    (file.merge gateRoutines).result = .ok ["shut"] ∧
    Merged file.functions gateRoutines (file.merge gateRoutines).state ["shut"]
      (file.merge gateRoutines).journal.warnings := by
  have hrun : ((parse ⟨"gate.rs"⟩ gateSource).toOption.bind fun file =>
      (file.merge gateRoutines).result.toOption) = some ["shut"] := by
    decide +kernel
  obtain ⟨file, hfile, hresult⟩ := Option.bind_eq_some_iff.1 hrun
  have hparse := ok_of_toOption hfile
  have hnames : (gateRoutines.map Routine.name).Nodup := by decide
  have hgenerated : ∀ r ∈ gateRoutines, r.override = none := by simp [gateRoutines]
  have hmerged := (merge_exact hparse hnames hgenerated).2.1 _ (ok_of_toOption hresult)
  exact ⟨file, hparse, hnames, hgenerated, ok_of_toOption hresult, hmerged⟩

end OverrideFile

end Statechart
