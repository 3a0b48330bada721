import Statechart.Proofs.Design.Headers
import Statechart.Proofs.Lists

/-!
Values that go on in further lines.

A further line goes on with the last entry of the current section, in the order in which the entries
stand there. A key that is given a second value keeps its place, so this is the entry whose key was
given its first value last, and not always the one that was given a value last.
-/
set_option autoImplicit false

namespace Statechart

namespace Design

namespace Progress

def gives? (r : Progress) (text : String) : Option (String × String) :=
  match r.sense text with
  | .plain (.entry key _) => r.current.map fun name => (name, key)
  | _ => none

def given : Progress → List String → List (String × String)
  | _, [] => []
  | r, text :: texts =>
    match r.line text with
    | .ok r' => (r.gives? text).toList ++ given r' texts
    | .error _ => []

def keysFor (name : String) (ks : List (String × String)) : List String :=
  (ks.filter (·.1 == name)).map Prod.snd

theorem keysFor_append (name : String) (ks ls : List (String × String)) :
    keysFor name (ks ++ ls) = keysFor name ks ++ keysFor name ls := by
  simp [keysFor]

variable {r r' : Progress} {text : String}

/-- A line that is read is silent, goes on with a value, opens a section or gives a value. -/
theorem line_cases (h : r.line text = .ok r') :
    (r.gives? text = none ∧ r' = r) ∨
      (∃ name, r.sense text = .further name ∧ r.gives? text = none ∧
        r' = r.update name (·.continueLast (Text.trim text))) ∨
      (∃ name, r.gives? text = none ∧ r' = r.enter name) ∨
      ∃ name key value, r.current = some name ∧ r.gives? text = some (name, key) ∧
        r' = r.update name (·.put key value) := by
  rw [line_eq] at h
  unfold gives?
  cases hsense : r.sense text with
  | silent =>
    rw [hsense] at h
    exact .inl ⟨rfl, (Except.ok.inj h).symm⟩
  | further name =>
    rw [hsense] at h
    exact .inr (.inl ⟨name, rfl, rfl, (Except.ok.inj h).symm⟩)
  | plain l =>
    rw [hsense] at h
    cases l with
    | header name => exact .inr (.inr (.inl ⟨name, rfl, (Except.ok.inj h).symm⟩))
    | entry key value =>
      dsimp only [take] at h
      split at h
      · rename_i name hcurrent
        exact .inr (.inr (.inr ⟨name, key, value, hcurrent, by simp [hcurrent],
          (Except.ok.inj h).symm⟩))
      · cases h
    | faulty fault => cases fault <;> cases h

theorem section?_name {name : String} {s : Section} (h : r.section? name = some s) :
    s.name = name := by
  simpa using List.find?_some h

theorem section?_update (r : Progress) (name : String) {g : Section → Section}
    (hg : ∀ s, (g s).name = s.name) (other : String) :
    (r.update name g).section? other =
      (r.section? other).map fun s => if other = name then g s else s := by
  have hsame : ((fun s : Section => s.name == other) ∘ fun s => if s.name == name then g s else s) =
      fun s => s.name == other := by
    funext s
    rw [Function.comp_apply]
    split
    · rw [hg]
    · rfl
  rw [section?, update, List.find?_map, hsame, ← section?]
  cases hfound : r.section? other with
  | none => rfl
  | some s => simp [section?_name hfound]

theorem section?_enter (r : Progress) (name other : String) :
    (r.enter name).section? other =
      (r.section? other).or (if other = name then some ⟨name, []⟩ else none) := by
  unfold enter
  by_cases hold : (r.section? name).isSome = true
  · rw [if_pos hold]
    change r.section? other = _
    by_cases hother : other = name
    · obtain ⟨s, hs⟩ := Option.isSome_iff_exists.1 hold
      rw [hother, hs, Option.some_or]
    · rw [if_neg hother, Option.or_none]
  · rw [if_neg hold]
    change (r.sections ++ [(⟨name, []⟩ : Section)]).find? (·.name == other) = _
    rw [List.find?_append, List.find?_singleton, ← section?]
    by_cases hother : other = name
    · simp [hother]
    · simp [hother, Ne.symm hother]

theorem current_enter (r : Progress) (name : String) : (r.enter name).current = some name := by
  unfold enter
  split <;> rfl

def keys (r : Progress) (name : String) : List String :=
  (r.section? name).elim [] fun s => s.items.map Item.key

theorem keys_put (s : Section) (key value : String) :
    (s.put key value).items.map Item.key =
      if key ∈ s.items.map Item.key then s.items.map Item.key
      else s.items.map Item.key ++ [key] := by
  have hany : s.items.any (·.key == key) = true ↔ key ∈ s.items.map Item.key := by
    simp [List.any_eq_true]
  unfold Section.put
  by_cases hmem : key ∈ s.items.map Item.key
  · rw [if_pos (hany.2 hmem), if_pos hmem, List.map_map]
    apply List.map_congr_left
    intro i _
    rw [Function.comp_apply]
    split
    · rename_i hkey
      exact (beq_iff_eq.1 hkey).symm
    · rfl
  · rw [if_neg (mt hany.1 hmem), if_neg hmem, List.map_append]
    rfl

theorem keys_continueLast (s : Section) (line : String) :
    (s.continueLast line).items.map Item.key = s.items.map Item.key := by
  unfold Section.continueLast
  cases hlast : s.items.getLast? with
  | none => rfl
  | some last =>
    have hitems : s.items.dropLast ++ [last] = s.items :=
      List.dropLast_append_getLast? last hlast
    conv_rhs => rw [← hitems]
    simp

theorem keys_enter (r : Progress) (name other : String) :
    (r.enter name).keys other = r.keys other := by
  unfold keys
  rw [section?_enter]
  cases r.section? other with
  | some s => rfl
  | none =>
    rw [Option.none_or]
    split <;> rfl

theorem keys_update_continueLast (r : Progress) (name line other : String) :
    (r.update name (·.continueLast line)).keys other = r.keys other := by
  unfold keys
  rw [section?_update r name (fun s => Section.name_continueLast s line)]
  cases r.section? other with
  | none => rfl
  | some s =>
    change List.map Item.key (if other = name then s.continueLast line else s).items = _
    split
    · exact keys_continueLast s line
    · rfl

theorem keys_update_put (r : Progress) (name key value other : String)
    (h : (r.section? name).isSome = true) :
    (r.update name (·.put key value)).keys other =
      if other = name ∧ key ∉ r.keys name then r.keys name ++ [key] else r.keys other := by
  unfold keys
  rw [section?_update r name (fun s => Section.name_put s key value)]
  by_cases hother : other = name
  · obtain ⟨s, hs⟩ := Option.isSome_iff_exists.1 h
    rw [hother, hs]
    change List.map Item.key (if name = name then s.put key value else s).items = _
    rw [if_pos rfl, keys_put]
    by_cases hmem : key ∈ s.items.map Item.key
    · rw [if_pos hmem, if_neg fun hnot => hnot.2 hmem]
      rfl
    · rw [if_neg hmem, if_pos ⟨rfl, hmem⟩]
      rfl
  · rw [if_neg fun hsame => hother hsame.1]
    cases r.section? other with
    | none => rfl
    | some s =>
      change List.map Item.key (if other = name then s.put key value else s).items = _
      rw [if_neg hother]
      rfl

def Entered (r : Progress) : Prop :=
  ∀ name ∈ r.current, (r.section? name).isSome = true

theorem Entered.update {name : String} {g : Section → Section} (h : r.Entered)
    (hg : ∀ s, (g s).name = s.name) : (r.update name g).Entered := by
  intro other hother
  rw [section?_update r name hg, Option.isSome_map]
  exact h other hother

theorem Entered.of_line (h : r.line text = .ok r') (hentered : r.Entered) : r'.Entered := by
  rcases line_cases h with ⟨-, rfl⟩ | ⟨name, -, -, rfl⟩ | ⟨name, -, rfl⟩ |
    ⟨name, key, value, -, -, rfl⟩
  · exact hentered
  · exact hentered.update fun s => Section.name_continueLast s _
  · intro other hother
    obtain rfl : name = other := Option.some.inj ((current_enter r name).symm.trans hother)
    rw [section?_enter, if_pos rfl]
    cases r.section? name <;> rfl
  · exact hentered.update fun s => Section.name_put s key value

theorem keys_of_line (h : r.line text = .ok r') (hentered : r.Entered) {name : String}
    {ks : List String} (hks : r.keys name = ks.eraseDups) :
    r'.keys name = (ks ++ keysFor name (r.gives? text).toList).eraseDups := by
  rcases line_cases h with ⟨hnone, rfl⟩ | ⟨other, -, hnone, rfl⟩ | ⟨other, hnone, rfl⟩ |
    ⟨other, key, value, hcurrent, hgives, rfl⟩
  · rw [hnone, hks]
    simp [keysFor]
  · rw [hnone, keys_update_continueLast, hks]
    simp [keysFor]
  · rw [hnone, keys_enter, hks]
    simp [keysFor]
  · rw [hgives, keys_update_put r other key value name (hentered other hcurrent)]
    by_cases hname : name = other
    · have hkeys : keysFor name (some (other, key)).toList = [key] := by simp [keysFor, hname]
      rw [hkeys, ← hname, hks]
      by_cases hmem : key ∈ ks
      · rw [if_neg fun hnew => hnew.2 (List.mem_eraseDups.2 hmem), eraseDups_snoc_of_mem hmem]
      · rw [if_pos ⟨rfl, mt List.mem_eraseDups.1 hmem⟩, eraseDups_snoc_of_not_mem hmem]
    · have hkeys : keysFor name (some (other, key)).toList = [] := by
        simp [keysFor, Ne.symm hname]
      rw [hkeys, if_neg fun hsame => hname hsame.1, hks, List.append_nil]

/-- So the keys of a section stand in the order of their first values. -/
theorem keys_of_reads {texts : List String} (h : Reads r texts r') (hentered : r.Entered)
    {name : String} {ks : List String} (hks : r.keys name = ks.eraseDups) :
    r'.keys name = (ks ++ keysFor name (r.given texts)).eraseDups := by
  -- the keys before these lines go along, since a line may repeat any of them
  induction h generalizing ks with
  | nil => simpa [given, keysFor] using hks
  | @cons r t r' text texts hline _ ih =>
    rw [ih (hentered.of_line hline) (keys_of_line hline hentered hks), given, hline, keysFor_append,
      List.append_assoc]

/-- The value of one entry goes on with a line, and nothing else changes. -/
structure Extends (r r' : Progress) (name key line : String) : Prop where
  current : r'.current = r.current
  sections : ∃ before after front back value,
    r.sections = before ++ ⟨name, front ++ ⟨key, value⟩ :: back⟩ :: after ∧
    r'.sections = before ++ ⟨name, front ++ ⟨key, value ++ "\n" ++ line⟩ :: back⟩ :: after

theorem value_ne_extended (value line : String) : value ≠ value ++ "\n" ++ line := by
  intro heq
  have hlength := congrArg String.length heq
  have hfeed : "\n".length = 1 := by decide
  simp only [String.length_append] at hlength
  omega

theorem items_ne_extended (front back : List Item) (key value line : String) :
    front ++ ⟨key, value⟩ :: back ≠ front ++ ⟨key, value ++ "\n" ++ line⟩ :: back := by
  intro heq
  obtain ⟨hitem, -⟩ := List.cons.inj (List.append_cancel_left heq)
  exact value_ne_extended value line (Item.mk.inj hitem).2

theorem Extends.key_unique {name other key key' line line' : String}
    (h : r.Extends r' name key line) (h' : r.Extends r' other key' line') : key = key' := by
  obtain ⟨before, after, front, back, value, hold, hnew⟩ := h.sections
  obtain ⟨before', after', front', back', value', hold', hnew'⟩ := h'.sections
  -- the sections differ at one place, and so do the entries of the section that is there
  obtain ⟨hsame, hsame'⟩ := place_unique hold hnew
    (fun heq => items_ne_extended _ _ _ _ _ (Section.mk.inj heq).2) hold' hnew'
    (fun heq => items_ne_extended _ _ _ _ _ (Section.mk.inj heq).2)
  obtain ⟨hitem, -⟩ := place_unique rfl rfl (fun heq => value_ne_extended _ _ (Item.mk.inj heq).2)
    (Section.mk.inj hsame).2 (Section.mk.inj hsame').2
    (fun heq => value_ne_extended _ _ (Item.mk.inj heq).2)
  exact (Item.mk.inj hitem).1

theorem map_one_section {before after : List Section} {s : Section} {g : Section → Section}
    (hnames : ((before ++ s :: after).map Section.name).Nodup) :
    (before ++ s :: after).map (fun t => if t.name == s.name then g t else t) =
      before ++ g s :: after := by
  have hothers : ∀ ts : List Section, s.name ∉ ts.map Section.name →
      ts.map (fun t => if t.name == s.name then g t else t) = ts := by
    intro ts hno
    conv_rhs => rw [← List.map_id ts]
    apply List.map_congr_left
    intro t ht
    have hne : t.name ≠ s.name := fun heq => hno (heq ▸ List.mem_map_of_mem ht)
    simp [hne]
  have hafter : s.name ∉ after.map Section.name := by
    rw [List.map_append, List.map_cons] at hnames
    exact (List.nodup_cons.1 hnames.of_append_right).1
  rw [List.map_append, List.map_cons, hothers before (not_mem_of_nodup_map hnames),
    hothers after hafter, if_pos (beq_self_eq_true s.name)]

theorem extends_continueLast {name line : String} {s : Section} {last : Item}
    (hnames : (r.sections.map Section.name).Nodup) (hs : r.section? name = some s)
    (hlast : s.items.getLast? = some last) :
    r.Extends (r.update name (·.continueLast line)) name last.key line := by
  obtain rfl := section?_name hs
  obtain ⟨before, after, hsections⟩ := List.append_of_mem (List.mem_of_find?_eq_some hs)
  have hitems : s.items.dropLast ++ [last] = s.items := List.dropLast_append_getLast? last hlast
  have hs' : s = ⟨s.name, s.items.dropLast ++ [⟨last.key, last.value⟩]⟩ :=
    congrArg (Section.mk s.name) hitems.symm
  have hcontinued : s.continueLast line =
      ⟨s.name, s.items.dropLast ++ [⟨last.key, last.value ++ "\n" ++ line⟩]⟩ := by
    unfold Section.continueLast
    rw [hlast]
  refine ⟨rfl, before, after, s.items.dropLast, [], last.value, ?_, ?_⟩
  · rw [← hs']
    exact hsections
  · rw [hsections] at hnames
    rw [update, hsections, map_one_section hnames, hcontinued]

theorem reads_of_lines {label : String} {n : Nat} {texts : List String}
    (h : lines label n r texts = .ok r') : Reads r texts r' := by
  induction texts generalizing n r with
  | nil =>
    obtain rfl := Except.ok.inj h
    exact .nil
  | cons text texts ih =>
    obtain ⟨t, hline, hrest, -⟩ := lines_cons h
    exact .cons hline (ih hrest)

theorem Reads.split {before after : List String} (h : Reads r (before ++ after) r') :
    ∃ t, Reads r before t ∧ Reads t after r' := by
  induction before generalizing r with
  | nil => exact ⟨r, .nil, h⟩
  | cons text before ih =>
    cases h with
    | cons hline hrest =>
      obtain ⟨t, hbefore, hafter⟩ := ih hrest
      exact ⟨t, .cons hline hbefore, hafter⟩

theorem line_of_indented {name : String} {s : Section} (hcurrent : r.current = some name)
    (hs : r.section? name = some s) (hitems : s.items ≠ []) (hindented : isIndented text = true)
    (hblank : Text.isBlankText text = false) :
    r.line text = .ok (r.update name (·.continueLast (Text.trim text))) := by
  have hcomment : isComment text = false := isComment_of_isIndented hindented
  have hcontinued : r.continued? = some name := by
    simp [continued?, hcurrent, hs, hitems]
  simp [line, hblank, hcomment, hindented, hcontinued]

theorem start_entered : start.Entered := by
  intro name hname
  cases hname

theorem exists_section_of_keys {name : String} (h : r.keys name ≠ []) :
    ∃ s, r.section? name = some s ∧ s.items ≠ [] ∧
      s.items.getLast?.map Item.key = (r.keys name).getLast? := by
  unfold keys at h ⊢
  cases hs : r.section? name with
  | none => simp [hs] at h
  | some s =>
    rw [hs] at h
    exact ⟨s, rfl, mt (congrArg (List.map Item.key)) h, List.getLast?_map.symm⟩

/-- A further line goes on with the last key, and a key is where its first value was given. -/
theorem extends_of_indented {before : List String} {name line : String}
    (hbefore : Reads start before r) (hline : r.line line = .ok r')
    (hcurrent : r.current = some name) (hkeys : r.keys name ≠ [])
    (hindented : isIndented line = true) (hblank : Text.isBlankText line = false) :
    ∃ newest, (keysFor name (start.given before)).eraseDups.getLast? = some newest ∧
      r.Extends r' name newest (Text.trim line) := by
  obtain ⟨s, hs, hitems, hlast⟩ := exists_section_of_keys hkeys
  obtain ⟨last, hlast'⟩ := Option.ne_none_iff_exists'.1 (mt List.getLast?_eq_none_iff.1 hitems)
  have hnames : (r.sections.map Section.name).Nodup :=
    (names_of_lines (hbefore.lines "" 1)).2 List.nodup_nil
  have hnone : start.keys name = ([] : List String).eraseDups := rfl
  have hgiven : r.keys name = (keysFor name (start.given before)).eraseDups :=
    keys_of_reads hbefore start_entered hnone
  rw [line_of_indented hcurrent hs hitems hindented hblank] at hline
  obtain rfl := Except.ok.inj hline
  refine ⟨last.key, ?_, extends_continueLast hnames hs hlast'⟩
  rw [← hgiven, ← hlast, hlast']
  rfl

end Progress

namespace File

open Progress

/-- Whatever lines are read, an indented one goes on with the key of the current section whose first
value was given last. That is the key whose value was given last just in case these two are the
same, as they are if it had no value before. -/
theorem extends_newest {label text : String} {f : File} (h : parse label text = .ok f)
    {before after : List String} {line : String}
    (hlines : Text.lines text = before ++ line :: after) :
    ∃ r r' last, Reads .start before r ∧ r.line line = .ok r' ∧ Reads r' after last ∧
      last.sections = f.sections ∧
      ∀ name, r.current = some name → r.keys name ≠ [] → isIndented line = true →
        Text.isBlankText line = false →
        ∃ earlier latest newest, keysFor name (start.given before) = earlier ++ [latest] ∧
          (earlier ++ [latest]).eraseDups.getLast? = some newest ∧
          r.Extends r' name newest (Text.trim line) ∧
          (r.Extends r' name latest (Text.trim line) ↔ latest = newest) ∧
          (latest ∉ earlier → latest = newest) := by
  obtain ⟨last, hlast, rfl⟩ := parse_eq_ok h
  rw [hlines] at hlast
  obtain ⟨r, hbefore, hafter⟩ := (reads_of_lines hlast).split
  cases hafter with
  | @cons _ r' _ _ _ hline hafter =>
    refine ⟨r, r', last, hbefore, hline, hafter, rfl, ?_⟩
    intro name hcurrent hkeys hindented hblank
    obtain ⟨newest, hnewest, hextends⟩ :=
      extends_of_indented hbefore hline hcurrent hkeys hindented hblank
    obtain ⟨earlier, latest, hgiven⟩ :
        ∃ earlier latest, keysFor name (start.given before) = earlier ++ [latest] := by
      apply List.eq_nil_or_concat' _ |>.resolve_left
      intro hnone
      simp [hnone] at hnewest
    rw [hgiven] at hnewest
    refine ⟨earlier, latest, newest, hgiven, hnewest, hextends, ?_, ?_⟩
    · constructor
      · intro hlatest
        exact hlatest.key_unique hextends
      · rintro rfl
        exact hextends
    · intro hnew
      rw [eraseDups_snoc_of_not_mem hnew, List.getLast?_append_cons] at hnewest
      exact Option.some.inj hnewest

/-- A loom whose section is opened again, and goes on where it was left. -/
def loomLines : List String :=
  ["[LOOM]", "warp = 1", "[DYE]", "hue = red", "[LOOM]"]

def loom : Progress :=
  ⟨[⟨"LOOM", [⟨"warp", "1"⟩]⟩, ⟨"DYE", [⟨"hue", "red"⟩]⟩], some "LOOM"⟩

theorem loom_goes_on :
    parse "loom.ini" (Text.unlines (loomLines ++ ["  fine"])) =
        .ok ⟨"loom.ini", loomLines ++ ["  fine"],
          [⟨"LOOM", [⟨"warp", "1\nfine"⟩]⟩, ⟨"DYE", [⟨"hue", "red"⟩]⟩]⟩ ∧
      Text.lines (Text.unlines (loomLines ++ ["  fine"])) = loomLines ++ "  fine" :: [] ∧
      Reads .start loomLines loom ∧ loom.current = some "LOOM" ∧ loom.keys "LOOM" ≠ [] ∧
      isIndented "  fine" = true ∧ Text.isBlankText "  fine" = false ∧
      ∃ r', loom.line "  fine" = .ok r' ∧ loom.Extends r' "LOOM" "warp" "fine" := by
  have hbreaks : ∀ l ∈ loomLines ++ ["  fine"], '\n' ∉ l.toList ∧ '\r' ∉ l.toList := by
    decide +kernel
  have hend : ∀ l ∈ (loomLines ++ ["  fine"]).getLast?, l ≠ "" := by decide +kernel
  have hlines : Text.lines (Text.unlines (loomLines ++ ["  fine"])) = loomLines ++ "  fine" :: [] :=
    Text.lines_unlines hbreaks hend
  have hparse : parse "loom.ini" (Text.unlines (loomLines ++ ["  fine"])) =
      .ok ⟨"loom.ini", loomLines ++ ["  fine"],
        [⟨"LOOM", [⟨"warp", "1\nfine"⟩]⟩, ⟨"DYE", [⟨"hue", "red"⟩]⟩]⟩ :=
    parse_unlines (by repeat constructor) (by decide +kernel) (by decide +kernel)
  have hloom : Progress.lines "" 1 .start loomLines = .ok loom := ok_of_toOption (by decide +kernel)
  have htrim : Text.trim "  fine" = "fine" := by decide +kernel
  have hkeys : loom.keys "LOOM" ≠ [] := by decide +kernel
  have hindented : isIndented "  fine" = true := by decide +kernel
  have hblank : Text.isBlankText "  fine" = false := by decide +kernel
  obtain ⟨r, r', -, hbefore, hline, -, -, hfurther⟩ := extends_newest hparse hlines
  obtain rfl : loom = r := Except.ok.inj (hloom.symm.trans (hbefore.lines "" 1))
  obtain ⟨earlier, latest, newest, hgiven, hnewest, hextends, -, -⟩ :=
    hfurther "LOOM" rfl hkeys hindented hblank
  have hwarp : (keysFor "LOOM" (start.given loomLines)).eraseDups.getLast? = some "warp" := by
    decide +kernel
  obtain rfl : "warp" = newest := by
    rw [← hgiven, hwarp] at hnewest
    exact Option.some.inj hnewest
  rw [htrim] at hextends
  exact ⟨hparse, hlines, hbefore, rfl, hkeys, hindented, hblank, r', hline, hextends⟩

/-- Another whose warp is changed before a line that should go on with it. -/
def changedLines : List String :=
  ["[LOOM]", "warp = 1", "weft = 2", "warp = 3"]

def changed : Progress :=
  ⟨[⟨"LOOM", [⟨"warp", "3"⟩, ⟨"weft", "2"⟩]⟩], some "LOOM"⟩

/-- The line goes on with the weft. -/
theorem changed_weft :
    parse "loom.ini" (Text.unlines (changedLines ++ ["  fine"])) =
        .ok ⟨"loom.ini", changedLines ++ ["  fine"],
          [⟨"LOOM", [⟨"warp", "3"⟩, ⟨"weft", "2\nfine"⟩]⟩]⟩ ∧
      Reads .start changedLines changed ∧ changed.current = some "LOOM" ∧
      isIndented "  fine" = true ∧ Text.isBlankText "  fine" = false ∧
      keysFor "LOOM" (start.given changedLines) = ["warp", "weft", "warp"] ∧
      ∃ r', changed.line "  fine" = .ok r' ∧ ¬changed.Extends r' "LOOM" "warp" "fine" := by
  have hchanged : Progress.lines "" 1 .start changedLines = .ok changed :=
    ok_of_toOption (by decide +kernel)
  have hreads : Reads .start changedLines changed := reads_of_lines hchanged
  have hkeys : changed.keys "LOOM" ≠ [] := by decide +kernel
  have hindented : isIndented "  fine" = true := by decide +kernel
  have hblank : Text.isBlankText "  fine" = false := by decide +kernel
  have hline : changed.line "  fine" =
      .ok (changed.update "LOOM" (·.continueLast (Text.trim "  fine"))) :=
    line_of_indented rfl rfl (by decide) hindented hblank
  obtain ⟨newest, hnewest, hextends⟩ :=
    extends_of_indented hreads hline rfl hkeys hindented hblank
  have hweft : (keysFor "LOOM" (start.given changedLines)).eraseDups.getLast? = some "weft" := by
    decide +kernel
  obtain rfl : "weft" = newest := Option.some.inj (hweft.symm.trans hnewest)
  refine ⟨parse_unlines (by repeat constructor) (by decide +kernel) (by decide +kernel), hreads, rfl,
    hindented, hblank, by decide +kernel, _, hline, ?_⟩
  intro hwarp
  have hsame : "warp" = "weft" := hwarp.key_unique hextends
  revert hsame
  decide

end File

end Design

end Statechart
