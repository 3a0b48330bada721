import Statechart.Proofs.Module.Shadowing

/-!
The constructor is faithful exactly if no use of a variable is hidden.
-/
set_option autoImplicit false

namespace Statechart.Module

open Target

section

variable {sp : Spelling} {c : Chart}

theorem mem_states_of_parentFirst {s : State} (h : s ∈ parentFirst c) : s ∈ c.states :=
  List.mem_of_mem_filter (parentFirst_subset c s h)

theorem addState_mem_chartCalls {parent : Option Handle} {name : String} :
    .addState parent name ∈ chartCalls sp c ↔
      ∃ before s after, parentFirst c = before ++ s :: after ∧ s.name = name ∧
        parent = (known sp (before.map .state)).value sp (homeIdent s.parent) := by
  rw [List.mem_iff_getElem?]
  constructor
  · rintro ⟨n, hn⟩
    obtain ⟨before, s, after, horder, -, hs⟩ := addState_at.1 hn
    exact ⟨before, s, after, horder, hs⟩
  · rintro ⟨before, s, after, horder, hs⟩
    exact ⟨before.length, addState_at.2 ⟨before, s, after, horder, rfl, hs⟩⟩

theorem parents_faithful_iff (hnames : (c.states.map State.name).Nodup) :
    (∀ parent name, .addState parent name ∈ chartCalls sp c → ∀ s ∈ c.states, s.name = name →
        ∃ h, parent = some h ∧ IsHome (chartCalls sp c) s.parent h) ↔
      ∀ before s after, parentFirst c = before ++ s :: after →
        ∀ p ∈ before, s.parent = some p.name → Last (stateKey sp) before p := by
  constructor
  · intro h before s after horder
    have hs : s ∈ c.states := mem_states_of_parentFirst (by simp [horder])
    refine (home_found horder fun p hp => parentFirst_parent horder hp).1 ?_
    exact h _ _ (addState_mem_chartCalls.2 ⟨before, s, after, horder, rfl, rfl⟩) s hs rfl
  · intro h parent name hcall s hs hname
    obtain ⟨before, s', after, horder, hname', rfl⟩ := addState_mem_chartCalls.1 hcall
    have hs' : s' ∈ c.states := mem_states_of_parentFirst (by simp [horder])
    obtain rfl : s = s' := List.inj_on_of_nodup_map hnames hs hs' (hname.trans hname'.symm)
    exact (home_found horder fun p hp => parentFirst_parent horder hp).2 (h before s after horder)

theorem links_append (before ts us : List Transition) :
    links c before (ts ++ us) = links c before ts ++ links c (before ++ ts) us := by
  induction ts generalizing before with
  | nil => simp [links]
  | cons t ts ih => simp [links, ih]

def prelude (c : Chart) (before : List Transition) (t : Transition) : List Part :=
  links c [] before ++ freshStart c before t ++ freshStop before t

theorem outline_split {before after : List Transition} {t : Transition}
    (h : c.enabledTransitions = before ++ t :: after) :
    outline c = (parentFirst c).map .state ++ prelude c before t ++
      .link t :: links c (before ++ [t]) after := by
  rw [outline, h, links_append]
  simp [links, prelude]

def inView (sp : Spelling) (c : Chart) (before : List Transition) (t : Transition) :
    Ident → Option Handle :=
  (known sp ((parentFirst c).map .state ++ prelude c before t)).value sp

theorem state_not_mem_prelude (before : List Transition) (t : Transition) (s : State) :
    Part.state s ∉ prelude c before t := by
  have h := state_not_mem_links (c := c) [] (before ++ [t]) s
  rw [links_append] at h
  simp only [links, List.nil_append, List.append_nil, List.mem_append] at h
  simp only [prelude, List.mem_append]
  tauto

theorem ends_eq_nil (before : List Part) {ps : List Part} (h : ∀ t, Part.link t ∉ ps) :
    (partCalls sp c before ps).filterMap Call.ends? = [] := by
  induction ps generalizing before with
  | nil => rfl
  | cons p ps ih =>
    have hps : ∀ t, Part.link t ∉ ps := fun t ht => h t (List.mem_cons_of_mem _ ht)
    cases p with
    | link t => exact absurd List.mem_cons_self (h t)
    | _ => simpa [partCalls, Part.call, Call.ends?] using ih _ hps

theorem link_not_mem_fresh (before : List Transition) (t u : Transition) :
    Part.link u ∉ freshStart c before t ++ freshStop before t := by
  rw [List.mem_append, not_or]
  constructor
  · rw [freshStart]
    split
    · split <;> simp
    · simp
  · rw [freshStop]
    split <;> simp

def linkEnds (sp : Spelling) (c : Chart) (before : List Transition) (t : Transition) :
    Option Handle × Option Handle :=
  (inView sp c before t (sourceIdent c t), inView sp c before t (targetIdent t))

theorem forall₂_ends_iff {R : Transition → Option Handle × Option Handle → Prop}
    (before ts : List Transition) :
    List.Forall₂ R ts ((partCalls sp c ((parentFirst c).map .state ++ links c [] before)
        (links c before ts)).filterMap Call.ends?) ↔
      ∀ b t a, ts = b ++ t :: a → R t (linkEnds sp c (before ++ b) t) := by
  induction ts generalizing before with
  | nil => simp [links, partCalls]
  | cons u ts ih =>
    have hlinks : links c [] (before ++ [u]) =
        links c [] before ++ (freshStart c before u ++ freshStop before u) ++ [.link u] := by
      simp [links_append, links]
    have hcalls : (partCalls sp c ((parentFirst c).map .state ++ links c [] before)
        (links c before (u :: ts))).filterMap Call.ends? = linkEnds sp c before u ::
          (partCalls sp c ((parentFirst c).map .state ++ links c [] (before ++ [u]))
            (links c (before ++ [u]) ts)).filterMap Call.ends? := by
      rw [links, List.append_assoc _ [Part.link u], partCalls_append, List.filterMap_append,
        ends_eq_nil _ (link_not_mem_fresh before u), List.nil_append, List.singleton_append,
        partCalls, hlinks]
      simp [Part.call, Call.ends?, linkEnds, inView, prelude]
    rw [hcalls, List.forall₂_cons, ih]
    constructor
    · rintro ⟨hu, hts⟩ b t a hsplit
      cases b with
      | nil =>
        obtain ⟨rfl, rfl⟩ : u = t ∧ ts = a := by simpa using hsplit
        simpa using hu
      | cons x b =>
        obtain ⟨rfl, rfl⟩ : u = x ∧ ts = b ++ t :: a := by simpa using hsplit
        simpa using hts b t a rfl
    · intro h
      refine ⟨by simpa using h [] u ts rfl, ?_⟩
      rintro b t a rfl
      simpa using h (u :: b) t a rfl

theorem forall₂_chartCalls_iff {R : Transition → Option Handle × Option Handle → Prop} :
    List.Forall₂ R c.enabledTransitions ((chartCalls sp c).filterMap Call.ends?) ↔
      ∀ before t after, c.enabledTransitions = before ++ t :: after →
        R t (linkEnds sp c before t) := by
  have hstates : (partCalls sp c [] ((parentFirst c).map .state)).filterMap Call.ends? = [] :=
    ends_eq_nil [] (by simp)
  have h : List.Forall₂ R c.enabledTransitions
      ((partCalls sp c ((parentFirst c).map .state ++ links c [] []) _).filterMap _) ↔ _ :=
    forall₂_ends_iff [] c.enabledTransitions
  rw [chartCalls, outline, partCalls_append, List.filterMap_append, hstates]
  simpa [links] using h

theorem startParent?_eq_some (hnames : (c.states.map State.name).Nodup) {t : Transition}
    {parent : Option String} :
    startParent? c t = some parent ↔
      t.source = .start ∧ ∃ x ∈ c.states, t.target = .state x.name ∧ x.parent = parent := by
  rw [startParent?]
  split
  · rename_i hsource
    cases htarget : t.target with
    | start => simp [Endpoint.state?]
    | stop => simp [Endpoint.state?]
    | state name =>
      simp only [Endpoint.state?, Option.bind_some, Option.map_eq_some_iff, Endpoint.state.injEq,
        hsource, true_and]
      constructor
      · rintro ⟨x, hx, rfl⟩
        obtain ⟨hmem, rfl⟩ := Chart.mem_of_state? hx
        exact ⟨x, hmem, rfl, rfl⟩
      · rintro ⟨x, hmem, rfl, rfl⟩
        exact ⟨x, Chart.state?_eq_some hnames hmem, rfl⟩
  · rename_i hsource
    simp [hsource]

def Part.start? : Part → Option (Option String)
  | start parent => some parent
  | _ => none

theorem start?_eq_some {p : Part} {parent : Option String} :
    p.start? = some parent ↔ p = .start parent := by
  cases p <;> simp [Part.start?]

theorem startParents_snoc (ts : List Transition) (t : Transition) :
    startParents c (ts ++ [t]) =
      startParents c ts ++ (freshStart c ts t ++ freshStop ts t).filterMap Part.start? := by
  have hstop : (freshStop ts t).filterMap Part.start? = [] := by
    rw [freshStop]
    split <;> rfl
  rw [startParents, startParents, List.filterMap_append, List.filterMap_append, hstop,
    List.append_nil, freshStart]
  cases hp : startParent? c t with
  | none => simp [hp]
  | some parent =>
    have hone : [t].filterMap (startParent? c) = [parent] := by simp [hp]
    rw [hone]
    by_cases hmem : parent ∈ ts.filterMap (startParent? c)
    · simp only [eraseDups_snoc_of_mem hmem, if_pos hmem]
      simp
    · simp only [eraseDups_snoc_of_not_mem hmem, if_neg hmem]
      simp [Part.start?]

/-- Starts are declared in the order of their first use. -/
theorem starts_of_links (ts : List Transition) :
    (links c [] ts).filterMap Part.start? = startParents c ts := by
  induction ts using List.reverseRecOn with
  | nil => rfl
  | append_singleton ts t ih =>
    rw [startParents_snoc, ← ih, links_append]
    simp [links, Part.start?]

theorem starts_in_view (before : List Transition) (t : Transition) :
    ((parentFirst c).map Part.state ++ prelude c before t).filterMap Part.start? =
      startParents c (before ++ [t]) := by
  have hstates : ((parentFirst c).map Part.state).filterMap Part.start? = [] := by
    simp [Part.start?]
  rw [List.filterMap_append, hstates, List.nil_append, prelude, List.append_assoc,
    List.filterMap_append, starts_of_links, startParents_snoc]

theorem first_use {parent : Option String} {ts : List Transition}
    (h : parent ∈ startParents c ts) :
    ∃ before t after, ts = before ++ t :: after ∧ startParent? c t = some parent ∧
      parent ∉ before.filterMap (startParent? c) := by
  obtain ⟨earlier, later, hsplit, hnew⟩ := List.eq_append_cons_of_mem (List.mem_eraseDups.1 h)
  obtain ⟨l₁, l₂, rfl, rfl, hl₂⟩ := List.filterMap_eq_append_iff.1 hsplit
  obtain ⟨m₁, t, after, rfl, hm₁, ht, -⟩ := List.filterMap_eq_cons_iff.1 hl₂
  refine ⟨l₁ ++ m₁, t, after, by simp, ht, ?_⟩
  rw [List.filterMap_append, List.filterMap_eq_nil_iff.2 hm₁, List.append_nil]
  exact hnew

theorem start_call {before after : List Transition} {t : Transition}
    (hts : c.enabledTransitions = before ++ t :: after) {parent : Option String}
    {b a : List Part}
    (h : (parentFirst c).map .state ++ prelude c before t = b ++ .start parent :: a) :
    (chartCalls sp c)[b.length]? =
      some (.startState ((known sp ((parentFirst c).map .state)).value sp (homeIdent parent))) := by
  obtain ⟨rest, rfl, hrest⟩ : ∃ rest, b = (parentFirst c).map .state ++ rest ∧
      prelude c before t = rest ++ .start parent :: a := by
    rcases append_eq_append_cons.1 h with ⟨rest, hstates, -⟩ | hrest
    · have hmem : Part.start parent ∈ (parentFirst c).map Part.state := by simp [hstates]
      simp at hmem
    · exact hrest
  have hnone : ∀ s, Part.state s ∉ rest := by
    intro s hs
    exact state_not_mem_prelude (c := c) before t s (by simp [hrest, hs])
  rw [chartCalls, outline_split hts, h, List.append_assoc, List.cons_append, partCalls_getElem?,
    Part.call, home_value _ hnone]

theorem home_of_isStart {parent owner : Option String} {h : Handle} {n : Nat}
    (hcall : (chartCalls sp c)[n]? =
      some (.startState ((known sp ((parentFirst c).map .state)).value sp (homeIdent owner))))
    (hn : h = .made n) :
    IsStart (chartCalls sp c) parent h ↔
      ∃ home, (known sp ((parentFirst c).map .state)).value sp (homeIdent owner) = some home ∧
        IsHome (chartCalls sp c) parent home := by
  subst hn
  constructor
  · rintro ⟨m, home, hm, hcall', hhome⟩
    cases hm
    rw [hcall] at hcall'
    exact ⟨home, by simpa using hcall', hhome⟩
  · rintro ⟨home, hvalue, hhome⟩
    exact ⟨n, home, rfl, hvalue ▸ hcall, hhome⟩

theorem start_value {parent : Option String} {ps : List Part} {h : Handle} :
    (known sp ps).value sp (startIdent parent) = some h ↔
      ∃ before owner after, ps = before ++ .start owner :: after ∧
        startKey sp owner = startKey sp parent ∧
        (∀ q, .start q ∈ after → startKey sp q ≠ startKey sp parent) ∧
        h = .made before.length := by
  have hkey : ∀ p : Part, p.key? sp = some (sp.key (startIdent parent)) ↔
      ∃ owner, p = .start owner ∧ startKey sp owner = startKey sp parent := by
    intro p
    cases p with
    | state s => simpa [Part.key?, Part.binding?] using sp.state_ne_start s.name parent
    | start owner => simp [Part.key?, Part.binding?, startKey]
    | stop => simpa [Part.key?, Part.binding?] using (sp.start_ne_end parent).symm
    | link t => simp [Part.key?, Part.binding?]
  rw [Env.value, known_lookup (sp.top_ne.2.1 parent).symm]
  constructor
  · rintro ⟨before, p, after, rfl, hp, hafter, rfl⟩
    obtain ⟨owner, rfl, howner⟩ := (hkey p).1 hp
    refine ⟨before, owner, after, rfl, howner, ?_, rfl⟩
    intro q hq heq
    exact hafter _ hq ((hkey _).2 ⟨q, rfl, heq⟩)
  · rintro ⟨before, owner, after, rfl, howner, hafter, rfl⟩
    refine ⟨before, .start owner, after, rfl, (hkey _).2 ⟨owner, rfl, howner⟩, ?_, rfl⟩
    intro q hq heq
    obtain ⟨owner', rfl, howner'⟩ := (hkey q).1 heq
    exact hafter owner' hq howner'

theorem last_start {parent : Option String} {ps : List Part} :
    Last (startKey sp) (ps.filterMap Part.start?) parent ↔
      ∃ before after, ps = before ++ .start parent :: after ∧
        ∀ q, .start q ∈ after → startKey sp q ≠ startKey sp parent := by
  constructor
  · rintro ⟨earlier, later, hsplit, hlater⟩
    obtain ⟨l₁, l₂, rfl, rfl, hl₂⟩ := List.filterMap_eq_append_iff.1 hsplit
    obtain ⟨m₁, p, after, rfl, -, hp, rfl⟩ := List.filterMap_eq_cons_iff.1 hl₂
    obtain rfl := start?_eq_some.1 hp
    refine ⟨l₁ ++ m₁, after, by simp, ?_⟩
    intro q hq
    exact hlater q (List.mem_filterMap.2 ⟨.start q, hq, rfl⟩)
  · rintro ⟨before, after, rfl, hafter⟩
    refine ⟨before.filterMap Part.start?, after.filterMap Part.start?, by simp [Part.start?], ?_⟩
    intro q hq
    obtain ⟨p, hp, hq⟩ := List.mem_filterMap.1 hq
    obtain rfl := start?_eq_some.1 hq
    exact hafter q hp

def HomeFound (sp : Spelling) (c : Chart) (parent : Option String) : Prop :=
  ∃ home, (known sp ((parentFirst c).map .state)).value sp (homeIdent parent) = some home ∧
    IsHome (chartCalls sp c) parent home

/-- Where starts are owned by their parents, the variable of a start leads to it exactly if no start
with that variable was declared later. -/
theorem start_found {before after : List Transition} {t : Transition}
    (hts : c.enabledTransitions = before ++ t :: after)
    (hhomes : ∀ parent ∈ startParents c c.enabledTransitions, HomeFound sp c parent)
    {parent : Option String} (hparent : startParent? c t = some parent) :
    (∃ h, inView sp c before t (startIdent parent) = some h ∧
        IsStart (chartCalls sp c) parent h) ↔
      Last (startKey sp) (startParents c (before ++ [t])) parent := by
  have hused : HomeFound sp c parent :=
    hhomes parent (List.mem_eraseDups.2 (List.mem_filterMap.2 ⟨t, by simp [hts], hparent⟩))
  rw [← starts_in_view, last_start]
  constructor
  · rintro ⟨h, hvalue, hstart⟩
    obtain ⟨b, owner, a, hsplit, hkey, ha, hb⟩ := start_value.1 hvalue
    have hdeclared : owner ∈ startParents c (before ++ [t]) := by
      rw [← starts_in_view, hsplit]
      simp [Part.start?]
    have howner : HomeFound sp c owner := by
      refine hhomes owner (List.mem_eraseDups.2 ?_)
      have hmem := List.mem_eraseDups.1 hdeclared
      rw [hts, List.append_cons, List.filterMap_append]
      exact List.mem_append_left _ hmem
    -- The start that was found belongs to `owner`, and it leads to the home of `parent`.
    obtain ⟨home, hvalue', hhome⟩ := (home_of_isStart (start_call hts hsplit) hb).1 hstart
    obtain ⟨home', hvalue'', hhome'⟩ := howner
    obtain rfl : home = home' := Option.some.inj (hvalue'.symm.trans hvalue'')
    obtain rfl : parent = owner := hhome.inj hhome'
    exact ⟨b, a, hsplit, ha⟩
  · rintro ⟨b, a, hsplit, ha⟩
    refine ⟨.made b.length, start_value.2 ⟨b, parent, a, hsplit, rfl, ha, rfl⟩, ?_⟩
    exact (home_of_isStart (start_call hts hsplit) rfl).2 hused

/-- At its first use a start has just been declared, so its variable leads to it. -/
theorem home_of_first_use {before after : List Transition} {t : Transition}
    (hts : c.enabledTransitions = before ++ t :: after) {parent : Option String}
    (hparent : startParent? c t = some parent)
    (hnew : parent ∉ before.filterMap (startParent? c))
    (hstart : ∃ h, inView sp c before t (startIdent parent) = some h ∧
      IsStart (chartCalls sp c) parent h) : HomeFound sp c parent := by
  have hsplit : (parentFirst c).map .state ++ prelude c before t =
      (parentFirst c).map .state ++ links c [] before ++
        .start parent :: freshStop before t := by
    simp [prelude, freshStart, hparent, hnew]
  have hnone : ∀ q, Part.start q ∉ freshStop before t := by
    intro q
    rw [freshStop]
    split <;> simp
  obtain ⟨h, hvalue, hstart⟩ := hstart
  have hvalue' : inView sp c before t (startIdent parent) =
      some (.made ((parentFirst c).map Part.state ++ links c [] before).length) :=
    start_value.2 ⟨_, parent, _, hsplit, rfl, fun q hq => absurd hq (hnone q), rfl⟩
  exact (home_of_isStart (start_call hts hsplit)
    (Option.some.inj (hvalue.symm.trans hvalue'))).1 hstart

/-- A transition joins what it should exactly if the states and the start it needs are found. -/
theorem joins_iff (hnames : (c.states.map State.name).Nodup) {t : Transition}
    (hanchored : Anchored c (parentFirst c) t) {before : List Transition} :
    Joins c (chartCalls sp c) t (linkEnds sp c before t) ↔
      (∀ p ∈ parentFirst c, t.source = .state p.name ∨ t.target = .state p.name →
        Last (stateKey sp) (parentFirst c) p) ∧
      ∀ parent, startParent? c t = some parent →
        ∃ h, inView sp c before t (startIdent parent) = some h ∧
          IsStart (chartCalls sp c) parent h := by
  have hfound : ∀ p ∈ parentFirst c,
      ((∃ h, inView sp c before t (stateIdent p.name) = some h ∧
          IsState (chartCalls sp c) p.name h) ↔ Last (stateKey sp) (parentFirst c) p) :=
    fun p hp => state_found (List.append_nil _).symm (state_not_mem_prelude before t) hp
  constructor
  · intro hjoins
    refine ⟨?_, ?_⟩
    · rintro p hp (hsource | htarget)
      · refine (hfound p hp).1 ?_
        simpa [linkEnds, sourceIdent, hsource] using hjoins.source p.name hsource
      · refine (hfound p hp).1 ?_
        simpa [linkEnds, targetIdent, htarget] using hjoins.target p.name htarget
    · intro parent hparent
      obtain ⟨hsource, x, hx, htarget, rfl⟩ := (startParent?_eq_some hnames).1 hparent
      simpa [linkEnds, sourceIdent, hsource, hparent] using hjoins.start hsource x hx htarget
  · rintro ⟨hstates, hstarts⟩
    refine ⟨?_, ?_, ?_⟩
    · intro name hsource
      obtain ⟨p, hp, rfl⟩ := List.mem_map.1 (hanchored.ends name (.inl hsource))
      simpa [linkEnds, sourceIdent, hsource] using (hfound p hp).2 (hstates p hp (.inl hsource))
    · intro hsource x hx htarget
      have hparent := (startParent?_eq_some hnames).2 ⟨hsource, x, hx, htarget, rfl⟩
      simpa [linkEnds, sourceIdent, hsource, hparent] using hstarts x.parent hparent
    · intro name htarget
      obtain ⟨p, hp, rfl⟩ := List.mem_map.1 (hanchored.ends name (.inr htarget))
      simpa [linkEnds, targetIdent, htarget] using (hfound p hp).2 (hstates p hp (.inr htarget))

theorem homeFound_iff {parent : Option String}
    (hparent : ∀ p, parent = some p → p ∈ (parentFirst c).map State.name) :
    HomeFound sp c parent ↔
      ∀ p ∈ parentFirst c, parent = some p.name → Last (stateKey sp) (parentFirst c) p :=
  home_found (List.append_nil _).symm hparent

theorem Faithful.homes (hnames : (c.states.map State.name).Nodup)
    (hanchored : ∀ t ∈ c.enabledTransitions, Anchored c (parentFirst c) t)
    (h : Faithful c (chartCalls sp c)) {parent : Option String}
    (hparent : parent ∈ startParents c c.enabledTransitions) : HomeFound sp c parent := by
  -- A later use might find another start, but the first one cannot.
  obtain ⟨before, t, after, hts, ht, hnew⟩ := first_use hparent
  have hjoins := forall₂_chartCalls_iff.1 h.joins before t after hts
  have hstarts := ((joins_iff hnames (hanchored t (by simp [hts]))).1 hjoins).2
  exact home_of_first_use hts ht hnew (hstarts parent ht)

theorem faithful_iff (hnames : (c.states.map State.name).Nodup)
    (hanchored : ∀ t ∈ c.enabledTransitions, Anchored c (parentFirst c) t) :
    Faithful c (chartCalls sp c) ↔ Unshadowed sp c := by
  have hsplit : ∀ t ∈ c.enabledTransitions, ∃ before after,
      c.enabledTransitions = before ++ t :: after := fun t ht => List.append_of_mem ht
  constructor
  · intro h
    have hjoins := forall₂_chartCalls_iff.1 h.joins
    refine ⟨(parents_faithful_iff hnames).1 h.parents, ?_, ?_, ?_⟩
    · intro t ht
      obtain ⟨before, after, hts⟩ := hsplit t ht
      exact ((joins_iff hnames (hanchored t ht)).1 (hjoins before t after hts)).1
    · intro t ht p hp hparent
      have hdeclared : some p.name ∈ startParents c c.enabledTransitions :=
        List.mem_eraseDups.2 (List.mem_filterMap.2 ⟨t, ht, hparent⟩)
      have hhome := h.homes hnames hanchored hdeclared
      exact (homeFound_iff fun q hq => (hanchored t ht).home q (hq ▸ hparent)).1 hhome p hp rfl
    · intro before t after hts parent hparent
      refine (start_found hts (fun q hq => h.homes hnames hanchored hq) hparent).1 ?_
      exact ((joins_iff hnames (hanchored t (by simp [hts]))).1
        (hjoins before t after hts)).2 parent hparent
  · intro h
    -- Starts lead where they should only once their owners are known to.
    have hhomes : ∀ parent ∈ startParents c c.enabledTransitions, HomeFound sp c parent := by
      intro parent hparent
      obtain ⟨t, ht, htp⟩ := List.mem_filterMap.1 (List.mem_eraseDups.1 hparent)
      refine (homeFound_iff fun q hq => (hanchored t ht).home q (hq ▸ htp)).2 ?_
      rintro p hp rfl
      exact h.owners t ht p hp htp
    refine ⟨(parents_faithful_iff hnames).2 h.parents, forall₂_chartCalls_iff.2 ?_⟩
    intro before t after hts
    have ht : t ∈ c.enabledTransitions := by simp [hts]
    refine (joins_iff hnames (hanchored t ht)).2 ⟨h.ends t ht, ?_⟩
    intro parent hparent
    exact (start_found hts hhomes hparent).2 (h.starts before t after hts parent hparent)

end

theorem faithful_calls_iff {sp : Spelling} {c : Chart} {callbacks : Callbacks} {chart : Ident}
    {tokens : List Token} {is : List Instruction} (hc : Validation.Validated c)
    (hbuild : buildStatechart c callbacks chart = .ok tokens)
    (htells : List.Forall₂ (Tells c callbacks) (outline c) is) :
    Faithful c (calls sp is) ↔ Unshadowed sp c := by
  rw [calls_eq htells]
  exact faithful_iff hc.states_nodup fun t ht => (routes_of_buildStatechart hbuild t ht).1

/-- The constructor of a validated chart adds every state to its parent and joins what every
transition joins exactly if no use of a variable is hidden by a later binding. -/
theorem wired_faithfully_iff_unshadowed (sp : Spelling) {c : Chart} {callbacks : Callbacks}
    {chart : Ident} {tokens : List Token} (hc : Validation.Validated c)
    (hbuild : buildStatechart c callbacks chart = .ok tokens) :
    ∃ is, instructions? chart.text tokens = some is ∧
      (Faithful c (calls sp is) ↔ Unshadowed sp c) := by
  obtain ⟨is, hread, htells⟩ := exists_tells hbuild
  exact ⟨is, hread, faithful_calls_iff hc hbuild htells⟩

open Validation

def lampCallbacks : Callbacks where
  states := ["top", "Idle", "Lit"].map fun name =>
    (name, ⟨.named "do_nothing", .named "do_nothing", .named "do_nothing"⟩)
  transitions := ["TRANSITION_1", "TRANSITION_2", "TRANSITION_3", "TRANSITION_4"].map fun name =>
    (name, ⟨.named "always_true", .named "do_nothing"⟩)

theorem lamp_builds :
    ∃ tokens, buildStatechart (all lamp).state lampCallbacks ⟨false, "Lamp"⟩ = .ok tokens :=
  exists_of_toOption (by decide +kernel)

theorem lamp_wired_faithfully_iff : Validated (all lamp).state ∧
    ∃ tokens, buildStatechart (all lamp).state lampCallbacks ⟨false, "Lamp"⟩ = .ok tokens ∧
      ∃ is, instructions? "Lamp" tokens = some is ∧
        (Faithful (all lamp).state (calls .exact is) ↔ Unshadowed .exact (all lamp).state) := by
  obtain ⟨tokens, htokens⟩ := lamp_builds
  exact ⟨lamp_validated, tokens, htokens,
    wired_faithfully_iff_unshadowed .exact lamp_validated htokens⟩

theorem lamp_transitions : (all lamp).state.enabledTransitions =
    lamp.transitions.take 2 ++
      ⟨"TRANSITION_3", .start, .state "top", none, .absent, .absent, false⟩ ::
      [⟨"TRANSITION_4", .state "top", .state "Idle", some "Key.press", .absent, .bare "dim",
        false⟩] := by
  decide +kernel

theorem lamp_not_unshadowed (sp : Spelling) : ¬ Unshadowed sp (all lamp).state := by
  intro h
  have hlast := h.starts _ _ _ lamp_transitions none (by decide +kernel)
  have hstarts : startParents (all lamp).state (lamp.transitions.take 2 ++
      [⟨"TRANSITION_3", .start, .state "top", none, .absent, .absent, false⟩]) =
        [none] ++ [some "top"] := by
    decide +kernel
  have hkey : startKey sp (some "top") = startKey sp none := by
    have hstem : stem "top" = "top" := by decide +kernel
    rw [startKey, startKey, sp.key_start, sp.key_start]
    simp [hstem, sp.form_top]
  rw [hstarts, last_snoc] at hlast
  rcases hlast with h | ⟨hne, -⟩
  · cases h
  · exact hne hkey

/-- The third transition of the lamp starts inside `top`, and not beside it. -/
theorem lamp_misrouted : Validated (all lamp).state ∧
    ∃ tokens is, buildStatechart (all lamp).state lampCallbacks ⟨false, "Lamp"⟩ = .ok tokens ∧
      instructions? "Lamp" tokens = some is ∧
      ∀ sp : Spelling, ¬ Faithful (all lamp).state (calls sp is) := by
  obtain ⟨tokens, htokens⟩ := lamp_builds
  obtain ⟨is, hread, htells⟩ := exists_tells htokens
  refine ⟨lamp_validated, tokens, is, htokens, hread, ?_⟩
  intro sp h
  exact lamp_not_unshadowed sp ((faithful_calls_iff lamp_validated htokens htells).1 h)

end Statechart.Module
