import Mathlib.Data.List.Nodup
import Statechart.Proofs.Design.Characters
import Statechart.Proofs.Design.Family
import Statechart.Proofs.Lists
import Statechart.Proofs.Text
import Statechart.Proofs.Work
import Statechart.Reading.Chart

/-!
The members of a chart that was read.

A member is read from its section, and knows the members before it. States, groups and ports have
distinct names, since a name that was there before is refused; transitions have, since they are
named after their sections. Groups and events are trimmed.
-/
set_option autoImplicit false

namespace Statechart.Reading

open Design

section

variable {α : Type} {one : List α → Section → Read α} {as : List α} {ss : List Section}
  {j : Journal} {u : Unit}

/-- What holds of no members and is kept by every further one holds of all that are read. -/
theorem inTurn_invariant {P : List α → Prop}
    (hone : ∀ (before : List α) (s : Section) (a : α) (j : Journal) (u : Unit), P before →
      (one before s).Yields () a j u → P (before ++ [a]))
    {before : List α} (hbefore : P before) (h : (inTurn one before ss).Yields () as j u) :
    P as := by
  induction ss generalizing before j with
  | nil =>
    obtain ⟨rfl, -, -⟩ := Work.yields_pure.1 h
    exact hbefore
  | cons s ss ih =>
    obtain ⟨a, j₁, _, j₂, ha, hrest, -⟩ := Work.yields_bind.1 h
    exact ih (hone before s a j₁ _ hbefore ha) hrest

theorem inTurn_nodup {key : α → String}
    (hone : ∀ (before : List α) (s : Section) (a : α) (j : Journal) (u : Unit),
      (one before s).Yields () a j u → key a ∉ before.map key)
    (h : (inTurn one [] ss).Yields () as j u) : (as.map key).Nodup := by
  refine inTurn_invariant (P := fun as => (as.map key).Nodup) ?_ (by simp) h
  intro before s a j u hbefore ha
  rw [List.map_append, List.nodup_append']
  refine ⟨hbefore, List.nodup_singleton _, ?_⟩
  simpa using hone before s a j u ha

theorem inTurn_append {R : Section → α → Prop}
    (hone : ∀ (before : List α) (s : Section) (a : α) (j : Journal) (u : Unit),
      (one before s).Yields () a j u → R s a)
    {before : List α} (h : (inTurn one before ss).Yields () as j u) :
    ∃ more, as = before ++ more ∧ List.Forall₂ R ss more := by
  induction ss generalizing before j with
  | nil =>
    obtain ⟨rfl, -, -⟩ := Work.yields_pure.1 h
    exact ⟨[], by simp, .nil⟩
  | cons s ss ih =>
    obtain ⟨a, j₁, _, j₂, ha, hrest, -⟩ := Work.yields_bind.1 h
    obtain ⟨more, rfl, hmore⟩ := ih hrest
    exact ⟨a :: more, by simp, .cons (hone before s a j₁ _ ha) hmore⟩

theorem inTurn_forall₂ {R : Section → α → Prop}
    (hone : ∀ (before : List α) (s : Section) (a : α) (j : Journal) (u : Unit),
      (one before s).Yields () a j u → R s a)
    (h : (inTurn one [] ss).Yields () as j u) : List.Forall₂ R ss as := by
  obtain ⟨more, rfl, hmore⟩ := inTurn_append hone h
  exact hmore

end

theorem collect_forall₂ {α : Type} {one : Section → Read α} {R : Section → α → Prop}
    (hone : ∀ (s : Section) (a : α) (j : Journal) (u : Unit), (one s).Yields () a j u → R s a)
    {ss : List Section} {as : List α} {j : Journal} {u : Unit}
    (h : (Work.collect one ss).Yields () as j u) : List.Forall₂ R ss as := by
  induction ss generalizing as j with
  | nil =>
    obtain ⟨rfl, -, -⟩ := Work.yields_collect_nil.1 h
    exact .nil
  | cons s ss ih =>
    obtain ⟨a, _, _, as, _, ha, hrest, rfl, -⟩ := Work.yields_collect_cons.1 h
    exact .cons (hone s a _ _ ha) (ih hrest)

variable {f : File} {s : Section} {j : Journal} {u : Unit}

theorem read?_read {key : String} {v? : Option Value}
    (h : (s.read? key : Read (Option Value)).Yields () v? j u) : v? = s.value? key := by
  unfold Section.read? at h
  cases hvalue : s.value? key with
  | none =>
    rw [hvalue] at h
    exact (Work.yields_pure.1 h).1
  | some v =>
    rw [hvalue] at h
    obtain ⟨_, _, _, _, -, h, -⟩ := Work.yields_bind.1 h
    exact (Work.yields_pure.1 h).1

theorem text_read {key value : String} (h : (text f s key).Yields () value j u) :
    ∃ v, s.value? key = some v ∧ value = v.text := by
  obtain ⟨v, _, _, _, hread, h, -⟩ := Work.yields_bind.1 h
  obtain ⟨rfl, -, -⟩ := Work.yields_pure.1 h
  obtain ⟨v?, _, _, _, hv, h, -⟩ := Work.yields_bind.1 hread
  rw [← read?_read hv]
  cases v? with
  | none => exact absurd h Work.yields_fail
  | some w =>
    obtain ⟨rfl, -, -⟩ := Work.yields_pure.1 h
    exact ⟨v, rfl, rfl⟩

theorem present?_eq_some {value name : String} (h : present? value = some name) :
    Text.trim name = name ∧ name ≠ "" := by
  unfold present? at h
  split at h
  · cases h
  · rename_i habsent
    obtain rfl := Option.some.inj h
    refine ⟨Text.trim_trim value, fun hempty => habsent ?_⟩
    simp [isAbsent, hempty]

theorem state_read {before : List State} {a : State} (h : (state f before s).Yields () a j u) :
    a.origin = s.name ∧ a.name ∉ before.map State.name ∧ Text.trim a.name = a.name ∧
      a.name ≠ "" ∧ a.name ≠ "None" ∧ ∀ p ∈ a.parent, Text.trim p = p ∧ p ≠ "" := by
  obtain ⟨name, _, _, _, -, h, -⟩ := Work.yields_bind.1 h
  obtain ⟨parent, _, _, _, -, h, -⟩ := Work.yields_bind.1 h
  obtain ⟨kind, _, _, _, -, h, -⟩ := Work.yields_bind.1 h
  obtain ⟨entry, _, _, _, -, h, -⟩ := Work.yields_bind.1 h
  obtain ⟨during, _, _, _, -, h, -⟩ := Work.yields_bind.1 h
  obtain ⟨exit, _, _, _, -, h, -⟩ := Work.yields_bind.1 h
  split at h
  · simp at h
  · rename_i hname
    split at h
    · simp at h
    · rename_i hany
      split at h
      · simp at h
      · obtain ⟨rfl, -, -⟩ := Work.yields_pure.1 h
        simp only [Bool.or_eq_true, beq_iff_eq, String.isEmpty_iff, not_or] at hname
        refine ⟨rfl, by simpa using hany, Text.trim_trim name, hname.2, hname.1, ?_⟩
        intro p hp
        dsimp only at hp
        exact present?_eq_some (Option.mem_def.1 hp)

/-- The name and the events of a group have no blanks around them. -/
def Trimmed (g : EventGroup) : Prop :=
  Text.trim g.name = g.name ∧ ∀ e ∈ g.events, Text.trim e = e

theorem value?_isSome {key : String}
    (h : s.has key = true ∨ s.has (key ++ "_" ++ toString 1) = true) :
    ∃ v, s.value? key = some v ∧ v.texts ≠ [] := by
  unfold Section.value?
  cases hget : s.get? key with
  | some value => exact ⟨.scalar value, rfl, List.cons_ne_nil value []⟩
  | none =>
    have hfirst : (s.get? (key ++ "_" ++ toString 1)).isSome = true :=
      h.resolve_left (by simp [Section.has, hget])
    have hrun : s.run key ≠ [] := by
      obtain ⟨value, hvalue⟩ := Option.isSome_iff_exists.1 hfirst
      obtain ⟨i, hi, -⟩ := Option.map_eq_some_iff.1 hvalue
      obtain ⟨n, hn⟩ := Nat.exists_eq_succ_of_ne_zero
        (List.length_pos_of_mem (List.mem_of_find?_eq_some hi)).ne'
      have heq : s.run key =
          runFrom (fun n => s.get? (key ++ "_" ++ toString n)) s.items.length 1 := rfl
      rw [heq, hn, runFrom, hvalue]
      exact List.cons_ne_nil _ _
    cases hlist : s.run key with
    | nil => exact absurd hlist hrun
    | cons value values => exact ⟨.list (value :: values), rfl, List.cons_ne_nil value values⟩

theorem events_read {es : List String} (h : (events f s).Yields () es j u) :
    es ≠ [] ∧ ∀ e ∈ es, Text.trim e = e := by
  simp only [events] at h
  split at h
  · simp at h
  · rename_i hhas
    simp only [Work.yields_bind, Work.yields_pure] at h
    obtain ⟨v?, _, _, _, hv, ⟨rfl, -, -⟩, -⟩ := h
    have hfirst : "event" ++ "_" ++ toString 1 = "event_1" := by decide
    have hkey : s.has "event" = true ∨ s.has ("event" ++ "_" ++ toString 1) = true := by
      rw [hfirst]
      simpa [← Bool.not_eq_true, imp_iff_not_or] using hhas
    obtain ⟨v, hvalue, hne⟩ := value?_isSome hkey
    rw [read?_read hv, hvalue]
    exact ⟨by simpa using hne, by simp⟩

theorem nodup_of_repeated? {before es : List String} (h : repeated? before es = none)
    (hbefore : before.Nodup) : (before ++ es).Nodup := by
  induction es generalizing before with
  | nil => rwa [List.append_nil]
  | cons e es ih =>
    rw [repeated?] at h
    split at h
    · cases h
    · rename_i hnew
      rw [List.append_cons]
      refine ih h (List.nodup_append'.2 ⟨hbefore, List.nodup_singleton e, ?_⟩)
      simpa using hnew

theorem group_read {before : List EventGroup} {g : EventGroup}
    (h : (group f before s).Yields () g j u) :
    g.origin = s.name ∧ g.name ∉ before.map EventGroup.name ∧ Trimmed g ∧ g.events ≠ [] ∧
      g.events.Nodup ∧ g.ids = [] := by
  obtain ⟨base, _, _, _, -, h, -⟩ := Work.yields_bind.1 h
  obtain ⟨name, _, _, _, -, h, -⟩ := Work.yields_bind.1 h
  obtain ⟨es, _, _, _, hes, h, -⟩ := Work.yields_bind.1 h
  split at h
  · simp at h
  · rename_i hany
    split at h
    · simp at h
    · rename_i hrepeated
      simp only [Work.yields_bind, Work.yields_pure] at h
      obtain ⟨_, _, _, _, -, ⟨rfl, -, -⟩, -⟩ := h
      obtain ⟨hne, htrimmed⟩ := events_read hes
      exact ⟨rfl, by simpa using hany, ⟨Text.trim_trim name, htrimmed⟩, hne,
        nodup_of_repeated? hrepeated List.nodup_nil, rfl⟩

theorem transition_read {t : Transition} (h : (transition f s).Yields () t j u) :
    t.name = s.name ∧ (∃ v, s.value? "start" = some v ∧ t.source = .ofText v.text) ∧
      (∃ v, s.value? "end" = some v ∧ t.target = .ofText v.text) ∧
      ∀ e ∈ t.event, Text.contains "Event(" e = false := by
  obtain ⟨source, _, _, _, hsource, h, -⟩ := Work.yields_bind.1 h
  obtain ⟨target, _, _, _, htarget, h, -⟩ := Work.yields_bind.1 h
  obtain ⟨event, _, _, _, -, h, -⟩ := Work.yields_bind.1 h
  obtain ⟨guard, _, _, _, -, h, -⟩ := Work.yields_bind.1 h
  obtain ⟨action, _, _, _, -, h, -⟩ := Work.yields_bind.1 h
  split at h
  · simp at h
  · rename_i hevent
    obtain ⟨rfl, -, -⟩ := Work.yields_pure.1 h
    obtain ⟨v, hv, rfl⟩ := text_read hsource
    obtain ⟨w, hw, rfl⟩ := text_read htarget
    refine ⟨rfl, ⟨v, hv, by dsimp only⟩, ⟨w, hw, by dsimp only⟩, ?_⟩
    intro e he
    dsimp only at he
    simpa using Option.filter_eq_none_iff.1 hevent e (Option.mem_def.1 he)

theorem port_read {before : List Port} {p : Port} (h : (port f before s).Yields () p j u) :
    p.origin = s.name ∧ p.name ∉ before.map Port.name := by
  obtain ⟨host, _, _, _, -, h, -⟩ := Work.yields_bind.1 h
  obtain ⟨number, _, _, _, -, h, -⟩ := Work.yields_bind.1 h
  obtain ⟨name, _, _, _, -, h, -⟩ := Work.yields_bind.1 h
  obtain ⟨direction, _, _, _, -, h, -⟩ := Work.yields_bind.1 h
  obtain ⟨format, _, _, _, -, h, -⟩ := Work.yields_bind.1 h
  obtain ⟨events, _, _, _, -, h, -⟩ := Work.yields_bind.1 h
  split at h
  · simp at h
  · simp at h
  · simp at h
  · split at h
    · simp at h
    · rename_i hany
      obtain ⟨rfl, -, -⟩ := Work.yields_pure.1 h
      exact ⟨rfl, by simpa using hany⟩

theorem readFamily_eq {family : String} {ss : List Section}
    (h : (f.readFamily family : Read (List Section)).Yields () ss j u) : ss = f.family family :=
  Except.ok.inj (h.result_eq.symm.trans (File.readFamily_matches f family ()).2)

theorem requireFamily_eq {family : String} {ss : List Section}
    (h : (f.requireFamily family : Read (List Section)).Yields () ss j u) :
    ss = f.family family ∧ ss ≠ [] := by
  obtain ⟨found, _, _, _, hread, h, -⟩ := Work.yields_bind.1 h
  rw [← readFamily_eq hread]
  split at h
  · simp at h
  · rename_i hne
    obtain ⟨rfl, -, -⟩ := Work.yields_pure.1 h
    exact ⟨rfl, hne⟩

theorem states_inTurn {ss : List State} (h : (states f).Yields () ss j u) :
    f.family "STATE_" ≠ [] ∧
      ∃ j u, (inTurn (state f) [] (f.family "STATE_")).Yields () ss j u := by
  simp only [states, Work.yields_bind, Work.yields_pure] at h
  obtain ⟨_, _, _, _, hfamily, ⟨_, _, _, _, hturn, ⟨_, _, _, _, -, ⟨rfl, -, -⟩, -⟩, -⟩, -⟩ := h
  obtain ⟨rfl, hne⟩ := requireFamily_eq hfamily
  exact ⟨hne, _, _, hturn⟩

theorem groups_inTurn {gs : List EventGroup} (h : (groups f).Yields () gs j u) :
    ∃ j u, (inTurn (group f) [] (f.family "EVENTS_")).Yields () gs j u := by
  simp only [groups, Work.yields_bind] at h
  obtain ⟨sections, _, _, _, hfamily, h, -⟩ := h
  obtain rfl := readFamily_eq hfamily
  split at h
  · simp only [Work.yields_bind, Work.yields_pure] at h
    obtain ⟨_, _, _, _, -, ⟨_, _, _, _, hturn, ⟨_, _, _, _, -, ⟨rfl, -, -⟩, -⟩, -⟩, -⟩ := h
    exact ⟨_, _, hturn⟩
  · simp only [Work.yields_bind, Work.yields_pure] at h
    obtain ⟨_, _, _, _, hturn, ⟨_, _, _, _, -, ⟨rfl, -, -⟩, -⟩, -⟩ := h
    exact ⟨_, _, hturn⟩

theorem transitions_collect {ts : List Transition} (h : (transitions f).Yields () ts j u) :
    f.family "TRANSITION_" ≠ [] ∧
      ∃ j u, (Work.collect (transition f) (f.family "TRANSITION_")).Yields () ts j u := by
  simp only [transitions, Work.yields_bind, Work.yields_pure] at h
  obtain ⟨_, _, _, _, hfamily, ⟨_, _, _, _, hts, ⟨_, _, _, _, -, ⟨rfl, -, -⟩, -⟩, -⟩, -⟩ := h
  obtain ⟨rfl, hne⟩ := requireFamily_eq hfamily
  exact ⟨hne, _, _, hts⟩

/-- There are a transport and ports, or neither. -/
theorem ports_inTurn {r : Option Transport × List Port} (h : (ports f).Yields () r j u) :
    r = (none, []) ∨ r.1.isSome = true ∧ f.family "PORT_" ≠ [] ∧
      ∃ j u, (inTurn (port f) [] (f.family "PORT_")).Yields () r.2 j u := by
  obtain ⟨sections, _, _, _, hfamily, h, -⟩ := Work.yields_bind.1 h
  obtain rfl := readFamily_eq hfamily
  split at h
  · obtain ⟨rfl, -, -⟩ := Work.yields_pure.1 h
    exact .inl rfl
  · exact absurd h Work.yields_fail
  · exact absurd h Work.yields_fail
  · rename_i hne
    simp only [Work.yields_bind, Work.yields_pure] at h
    obtain ⟨_, _, _, _, -, ⟨_, _, _, _, hturn, ⟨_, _, _, _, -, ⟨rfl, -, -⟩, -⟩, -⟩, -⟩ := h
    exact .inr ⟨rfl, by simpa using hne, _, _, hturn⟩

theorem states_nodup {ss : List State} (h : (states f).Yields () ss j u) :
    (ss.map State.name).Nodup := by
  obtain ⟨-, _, _, hturn⟩ := states_inTurn h
  exact inTurn_nodup (fun _ _ _ _ _ ha => (state_read ha).2.1) hturn

theorem groups_nodup {gs : List EventGroup} (h : (groups f).Yields () gs j u) :
    (gs.map EventGroup.name).Nodup := by
  obtain ⟨_, _, hturn⟩ := groups_inTurn h
  exact inTurn_nodup (fun _ _ _ _ _ ha => (group_read ha).2.1) hturn

theorem groups_trimmed {gs : List EventGroup} (h : (groups f).Yields () gs j u) :
    ∀ g ∈ gs, Trimmed g := by
  obtain ⟨_, _, hturn⟩ := groups_inTurn h
  have hmembers := inTurn_forall₂ (fun _ _ _ _ _ ha => (group_read ha).2.2.1) hturn
  intro g hg
  obtain ⟨_, -, hg⟩ := forall₂_exists_left hmembers hg
  exact hg

theorem transitions_nodup {ts : List Transition} (h : (transitions f).Yields () ts j u) :
    (ts.map Transition.name).Nodup := by
  obtain ⟨-, _, _, hts⟩ := transitions_collect h
  have hmembers := collect_forall₂ (fun _ _ _ _ ht => (transition_read ht).1) hts
  rw [forall₂_map_eq hmembers id]
  exact File.family_nodup f _

theorem chart_parts {base : Path} {read : FileReader} {c : Chart}
    (h : (chart f base read).Yields () c j u) :
    (∃ j u, (initial f base read).Yields () c.initial j u) ∧
      (∃ j u, (states f).Yields () c.states j u) ∧ (∃ j u, (groups f).Yields () c.groups j u) ∧
      (∃ j u, (transitions f).Yields () c.transitions j u) ∧
      ∃ j u, (ports f).Yields () (c.transport, c.ports) j u := by
  obtain ⟨heading, _, _, _, -, h, -⟩ := Work.yields_bind.1 h
  obtain ⟨name, _, _, _, -, h, -⟩ := Work.yields_bind.1 h
  obtain ⟨options, _, _, _, -, h, -⟩ := Work.yields_bind.1 h
  obtain ⟨_, _, _, _, -, h, -⟩ := Work.yields_bind.1 h
  obtain ⟨initial, _, _, _, hi, h, -⟩ := Work.yields_bind.1 h
  obtain ⟨states, _, _, _, hs, h, -⟩ := Work.yields_bind.1 h
  obtain ⟨groups, _, _, _, hg, h, -⟩ := Work.yields_bind.1 h
  obtain ⟨suppressed, _, _, _, -, h, -⟩ := Work.yields_bind.1 h
  obtain ⟨transitions, _, _, _, ht, h, -⟩ := Work.yields_bind.1 h
  obtain ⟨ports, _, _, _, hp, h, -⟩ := Work.yields_bind.1 h
  obtain ⟨rfl, -, -⟩ := Work.yields_pure.1 h
  exact ⟨⟨_, _, hi⟩, ⟨_, _, hs⟩, ⟨_, _, hg⟩, ⟨_, _, ht⟩, ⟨_, _, hp⟩⟩

section

variable {label : String} {lines lines' : List String} {sections : List Section}

theorem readFamily_lines (family : String) :
    (File.readFamily ⟨label, lines, sections⟩ family : Read (List Section)).Matches
      (File.readFamily ⟨label, lines', sections⟩ family) := by
  have hfamily := File.readFamily_matches (σ := Unit) ⟨label, lines', sections⟩ family
  rw [File.family_lines lines' lines] at hfamily
  exact (File.readFamily_matches _ family).trans hfamily.symm

theorem requireFamily_lines (family : String) :
    (File.requireFamily ⟨label, lines, sections⟩ family : Read (List Section)).Matches
      (File.requireFamily ⟨label, lines', sections⟩ family) :=
  (readFamily_lines family).bind fun _ => .refl _

theorem chart_lines (base : Path) (read : FileReader) :
    (chart ⟨label, lines, sections⟩ base read).Matches
      (chart ⟨label, lines', sections⟩ base read) := by
  refine .bind (.refl _) fun heading => .bind (.refl _) fun name => .bind (.refl _) fun options =>
    .bind (.refl _) fun options => .bind (.refl _) fun initial => .bind ?_ fun states =>
    .bind ?_ fun groups => .bind (.refl _) fun suppressed => .bind ?_ fun transitions =>
    .bind ?_ fun ports => .refl _
  · exact (requireFamily_lines "STATE_").bind fun _ => .refl _
  · exact (readFamily_lines "EVENTS_").bind fun _ => .refl _
  · exact (requireFamily_lines "TRANSITION_").bind fun _ => .refl _
  · exact (readFamily_lines "PORT_").bind fun _ => .refl _

end

theorem initial_fails {f : File} {base path : Path} {read : FileReader} {i : Section}
    {fault : FileFault} {code : List String} {j : Journal} {u u' : Unit}
    (hi : f.section? "INITIAL" = some i) (hpath : initialFile? i base = some path)
    (hread : read path = .error fault) : ¬ (initial f base read).Yields u code j u' := by
  intro h
  rw [initial, hi] at h
  obtain ⟨_, _, _, _, -, h, -⟩ := Work.yields_bind.1 h
  simp only [hpath, hread] at h
  split at h
  · obtain ⟨_, _, _, _, -, h, -⟩ := Work.yields_bind.1 h
    exact Work.yields_fail h
  · exact Work.yields_fail h

end Reading

namespace Chart

variable {label text : String} {base : Path} {read : Reading.FileReader} {c : Chart}

theorem read_parts (h : (Chart.read label text base read ()).result = .ok c) :
    ∃ f : Design.File, Design.File.parse label text = .ok f ∧
      (∃ j u, (Reading.states f).Yields () c.states j u) ∧
      (∃ j u, (Reading.groups f).Yields () c.groups j u) ∧
      (∃ j u, (Reading.transitions f).Yields () c.transitions j u) ∧
      ∃ j u, (Reading.ports f).Yields () (c.transport, c.ports) j u := by
  obtain ⟨f, _, _, _, hparse, hchart, -⟩ := Work.yields_bind.1 (Work.yields_of_result h)
  exact ⟨f, (Work.yields_ofExcept.1 hparse).1, (Reading.chart_parts hchart).2⟩

theorem read_states_nodup (h : (Chart.read label text base read ()).result = .ok c) :
    (c.states.map State.name).Nodup := by
  obtain ⟨f, -, ⟨j, u, hs⟩, -⟩ := read_parts h
  exact Reading.states_nodup hs

theorem read_transitions_nodup (h : (Chart.read label text base read ()).result = .ok c) :
    (c.transitions.map Transition.name).Nodup := by
  obtain ⟨f, -, -, -, ⟨j, u, ht⟩, -⟩ := read_parts h
  exact Reading.transitions_nodup ht

theorem read_groups_trimmed (h : (Chart.read label text base read ()).result = .ok c) :
    ∀ g ∈ c.groups, Reading.Trimmed g := by
  obtain ⟨f, -, -, ⟨j, u, hg⟩, -⟩ := read_parts h
  exact Reading.groups_trimmed hg

theorem read_groups_nodup (h : (Chart.read label text base read ()).result = .ok c) :
    (c.groups.map EventGroup.name).Nodup := by
  obtain ⟨f, -, -, ⟨j, u, hg⟩, -⟩ := read_parts h
  exact Reading.groups_nodup hg

/-- Of the files that can be read, only the one that the initializer names matters. -/
theorem read_congr {read' : Reading.FileReader}
    (h : ∀ f i path, Design.File.parse label text = .ok f → f.section? "INITIAL" = some i →
      Reading.initialFile? i base = some path → read path = read' path) :
    Chart.read label text base read = Chart.read label text base read' := by
  unfold Chart.read
  apply Work.ofExcept_bind_congr
  intro f hf
  have hinitial : Reading.initial f base read = Reading.initial f base read' := by
    unfold Reading.initial
    cases hi : f.section? "INITIAL" with
    | none => rfl
    | some i =>
      cases hpath : Reading.initialFile? i base with
      | none => simp only [hpath]
      | some path => simp only [hpath, h f i path hf hi hpath]
  unfold Reading.chart
  rw [hinitial]

theorem read_of_no_files {fault : FileFault}
    (h : (Chart.read label text base (fun _ => .error fault) ()).result = .ok c) :
    Chart.read label text base read = Chart.read label text base (fun _ => .error fault) := by
  apply read_congr
  intro f i path hf hi hpath
  obtain ⟨f', _, _, _, hparse, hchart, -⟩ := Work.yields_bind.1 (Work.yields_of_result h)
  obtain rfl : f' = f := Except.ok.inj ((Work.yields_ofExcept.1 hparse).1.symm.trans hf)
  obtain ⟨⟨_, _, hinitial⟩, -⟩ := Reading.chart_parts hchart
  exact absurd hinitial (Reading.initial_fails hi hpath rfl)

theorem read_unlines {lines : List String} {css : List (List Char)}
    (hspelled : Design.Spelled lines css)
    (hplain : (∀ cs ∈ css, '\n' ∉ cs ∧ '\r' ∉ cs) ∧ ∀ cs ∈ css.getLast?, cs ≠ [])
    (hc : ((Design.Progress.start.linesOf? css).bind fun r =>
      (Reading.chart ⟨label, [], r.sections⟩ base read ()).result.toOption) = some c) :
    (Chart.read label (Text.unlines lines) base read ()).result = .ok c := by
  obtain ⟨r, hr, hc⟩ := Option.bind_eq_some_iff.1 hc
  have hsections : (Design.Progress.start.linesOf? css).map Design.Progress.sections =
      some r.sections := by
    rw [hr, Option.map_some]
  rw [Chart.read, Design.File.parse_unlines hspelled hplain hsections]
  exact (Reading.chart_lines base read ()).2.trans (ok_of_toOption hc)

end Chart

end Statechart
