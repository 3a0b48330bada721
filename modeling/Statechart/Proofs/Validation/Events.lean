import Mathlib.Data.List.Forall2
import Statechart.Proofs.Text
import Statechart.Proofs.Work
import Statechart.Validation.Events

/-!
Resolved references and given-out identifiers.

A resolved reference is an event of a declared group, qualified. Where group names have no point,
resolving it again changes nothing; neither does giving out identifiers again.
-/
set_option autoImplicit false

namespace Statechart

def Declared (groups : List EventGroup) (qualified : String) : Prop :=
  ∃ g ∈ groups, ∃ e ∈ g.events, qualified = g.name ++ "." ++ e

theorem lookupEvent_declared {groups : List EventGroup} {context reference : String}
    {resolved : Resolved} (h : lookupEvent groups context reference = .ok resolved) :
    Declared groups resolved.qualified := by
  simp only [lookupEvent] at h
  split at h
  · rename_i group event hcut
    split at h
    · rename_i hany
      cases h
      obtain ⟨g, hg, hge⟩ := List.any_eq_true.1 hany
      simp only [Bool.and_eq_true, beq_iff_eq, EventGroup.contains, List.contains_iff_mem] at hge
      exact ⟨g, hg, _, hge.2, by rw [hge.1]⟩
    · cases h
  · split at h
    · cases h
    · rename_i g hone
      cases h
      have hg : g ∈ groups.filter (·.contains (Text.trim reference)) := by simp [hone]
      simp only [List.mem_filter, EventGroup.contains, List.contains_iff_mem] at hg
      exact ⟨g, hg.1, _, hg.2, rfl⟩
    · cases h

/-- What a reference means does not depend on where it stands. -/
theorem lookupEvent_context {groups : List EventGroup} {context reference : String}
    {resolved : Resolved} (other : String)
    (h : lookupEvent groups context reference = .ok resolved) :
    lookupEvent groups other reference = .ok resolved := by
  unfold lookupEvent at h ⊢
  grind

/-- Groups as a design writes them, with names that a qualified event can be taken apart at. -/
structure Separable (groups : List EventGroup) : Prop where
  name_trimmed : ∀ g ∈ groups, Text.trim g.name = g.name
  event_trimmed : ∀ g ∈ groups, ∀ e ∈ g.events, Text.trim e = e
  no_point : ∀ g ∈ groups, Text.containsChar '.' g.name = false

theorem Separable.lookupEvent_eq {groups : List EventGroup} (hs : Separable groups)
    {qualified : String} (h : Declared groups qualified) (context : String) :
    lookupEvent groups context qualified = .ok ⟨qualified, false⟩ := by
  obtain ⟨g, hg, e, he, rfl⟩ := h
  have hn := hs.name_trimmed g hg
  have hv := hs.event_trimmed g hg e he
  have htrim : Text.trim (g.name ++ "." ++ e) = g.name ++ "." ++ e :=
    Text.trim_around hn hv (c := '.') rfl
  have hcut : Text.cut? (· = '.') (g.name ++ "." ++ e) = some (g.name, e) :=
    Text.cut?_around (hs.no_point g hg)
  have hany : (groups.any fun g' => g'.name == g.name && g'.contains e) = true :=
    List.any_eq_true.2 ⟨g, hg, by simp [EventGroup.contains, he]⟩
  simp only [lookupEvent, htrim, hcut, hn, hv, hany, if_true]

namespace Validation

theorem fillBases_isSome {previous : Option Nat} {groups : List EventGroup} {g : EventGroup}
    (hg : g ∈ fillBases previous groups) : g.base.isSome := by
  induction groups generalizing previous with
  | nil => simp [fillBases] at hg
  | cons a as ih =>
    simp only [fillBases, List.mem_cons] at hg
    rcases hg with rfl | hg
    · simp [withBase]
    · exact ih hg

theorem fillBases_eq_self {groups : List EventGroup} (h : ∀ g ∈ groups, g.base.isSome)
    (previous : Option Nat) : fillBases previous groups = groups := by
  induction groups generalizing previous with
  | nil => rfl
  | cons g gs ih =>
    obtain ⟨base, hb⟩ := Option.isSome_iff_exists.1 (h g (by simp))
    have hg : withBase previous g = g := by
      cases g
      simp_all [withBase]
    simp only [fillBases, hg]
    rw [ih fun g' hg' => h g' (by simp [hg'])]

theorem baseWarnings_eq_nil {groups : List EventGroup} (h : ∀ g ∈ groups, g.base.isSome)
    (previous : Option Nat) : baseWarnings previous groups = [] := by
  induction groups generalizing previous with
  | nil => rfl
  | cons g gs ih =>
    have hg : g.base.isNone = false := by
      have := h g (by simp)
      cases hb : g.base <;> simp_all
    simp only [baseWarnings, hg]
    exact ih (fun g' hg' => h g' (by simp [hg'])) _

@[simp] theorem numbered_numbered (g : EventGroup) : numbered (numbered g) = numbered g := rfl

/-- Numbers do not change which identifiers a group claims. -/
theorem collision?_numbered (groups : List EventGroup) :
    collision? (groups.map numbered) = collision? groups := by
  have h : ((groups.map numbered).filter (!·.isEmpty)).map EventGroup.range =
      (groups.filter (!·.isEmpty)).map EventGroup.range := by
    rw [List.filter_map, List.map_map]
    rfl
  simp only [collision?, h]

def allocated (groups : List EventGroup) : List EventGroup :=
  (fillBases none groups).map numbered

theorem allocated_isSome {groups : List EventGroup} {g : EventGroup} (hg : g ∈ allocated groups) :
    g.base.isSome := by
  obtain ⟨g', hg', rfl⟩ := List.mem_map.1 hg
  exact fillBases_isSome (g := g') hg'

@[simp] theorem allocated_allocated (groups : List EventGroup) :
    allocated (allocated groups) = allocated groups := by
  have h : fillBases none (allocated groups) = allocated groups :=
    fillBases_eq_self (fun _ hg => allocated_isSome hg) none
  simp only [allocated] at h ⊢
  rw [h, List.map_map]
  exact List.map_congr_left fun g _ => numbered_numbered g

theorem exists_of_mem_allocated {groups : List EventGroup} {g : EventGroup}
    (hg : g ∈ allocated groups) :
    ∃ g' ∈ groups, g'.name = g.name ∧ g'.events = g.events := by
  obtain ⟨f, hf, rfl⟩ := List.mem_map.1 hg
  have hp : ∀ (previous : Option Nat) (gs : List EventGroup), f ∈ fillBases previous gs →
      ∃ g' ∈ gs, g'.name = f.name ∧ g'.events = f.events := by
    intro previous gs
    induction gs generalizing previous with
    | nil => simp [fillBases]
    | cons a as ih =>
      intro h
      simp only [fillBases, List.mem_cons] at h
      rcases h with rfl | h
      · exact ⟨a, by simp, rfl, rfl⟩
      · obtain ⟨g', hg', hn⟩ := ih _ h
        exact ⟨g', by simp [hg'], hn⟩
  exact hp none groups hf

def allocationEntries (groups : List EventGroup) : Journal :=
  Work.warningsOf .autoAssignedBase (baseWarnings none groups) ++
    [.note ⟨.info, "event ids allocated", [
      ("groups", toString (allocated groups).length),
      ("events", toString ((allocated groups).flatMap (·.ids)).length)]⟩]

theorem allocateEventIds_yields {c c' : Chart} {u : Unit} {j : Journal} :
    allocateEventIds.Yields c u j c' ↔
      collision? (fillBases none c.groups) = none ∧
        (fillBases none c.groups).find? (·.base = some 0) = none ∧
        j = allocationEntries c.groups ∧ c' = { c with groups := allocated c.groups } := by
  simp only [allocateEventIds, Work.yields_get_bind, Work.yields_modify_bind,
    Work.yields_warnAll_bind]
  constructor
  · rintro ⟨_, h, rfl⟩
    split at h
    · simp at h
    · rename_i hcol
      split at h
      · simp at h
      · rename_i hzero
        simp only [Work.yields_modify_bind, Work.yields_note] at h
        obtain ⟨rfl, rfl⟩ := h
        exact ⟨hcol, hzero, rfl, rfl⟩
  · rintro ⟨hcol, hzero, rfl, rfl⟩
    refine ⟨_, ?_, rfl⟩
    simp only [hcol, hzero, Work.yields_modify_bind, Work.yields_note]
    exact ⟨rfl, rfl⟩

def resolutionEntries (context reference : String) (resolved : Resolved) : Journal :=
  if resolved.unqualified then
    [.warning ⟨.autoQualifiedEvent,
      s!"{context}: event {Text.trim reference} resolved to {resolved.qualified}"⟩]
  else []

theorem resolveEvent_yields {context reference q : String} {c c' : Chart} {j : Journal} :
    (resolveEvent context reference).Yields c q j c' ↔
      ∃ resolved, lookupEvent c.groups context reference = .ok resolved ∧
        q = resolved.qualified ∧ j = resolutionEntries context reference resolved ∧ c' = c := by
  simp only [resolveEvent, Work.yields_get_bind, Work.yields_ofExcept_bind, resolutionEntries]
  refine exists_congr fun resolved => and_congr_right fun _ => ?_
  by_cases hu : resolved.unqualified = true
  · simp only [hu, if_true, Work.yields_warn_bind, Work.yields_pure]
    constructor
    · rintro ⟨_, ⟨rfl, rfl, rfl⟩, rfl⟩
      exact ⟨rfl, rfl, rfl⟩
    · rintro ⟨rfl, rfl, rfl⟩
      exact ⟨[], ⟨rfl, rfl, rfl⟩, rfl⟩
  · simp [hu]

theorem collect_resolveEvent_yields {context : String} {references qs : List String}
    {c c' : Chart} {j : Journal} :
    (Work.collect (resolveEvent context) references).Yields c qs j c' ↔
      ∃ rs, List.Forall₂ (fun reference r => lookupEvent c.groups context reference = .ok r)
          references rs ∧
        qs = rs.map Resolved.qualified ∧
        j = (List.zipWith (resolutionEntries context) references rs).flatten ∧ c' = c := by
  induction references generalizing qs j with
  | nil => simp
  | cons reference references ih =>
    simp only [Work.yields_collect_cons, resolveEvent_yields]
    constructor
    · rintro ⟨_, _, _, qs, j₂, ⟨r, hr, rfl, rfl, rfl⟩, hrest, rfl, rfl⟩
      obtain ⟨rs, hrs, rfl, rfl, rfl⟩ := ih.1 hrest
      exact ⟨r :: rs, .cons hr hrs, rfl, rfl, rfl⟩
    · rintro ⟨_, hrs, rfl, rfl, rfl⟩
      cases hrs with
      | @cons _ r _ rs hr hrs =>
        exact ⟨_, _, _, _, _, ⟨r, hr, rfl, rfl, rfl⟩, ih.2 ⟨rs, hrs, rfl, rfl, rfl⟩, rfl, rfl⟩

theorem resolveSuppressed_yields {c c' : Chart} {u : Unit} {j : Journal} :
    resolveSuppressed.Yields c u j c' ↔
      ∃ rs, List.Forall₂
          (fun reference r => lookupEvent c.groups "SUPPRESS_PRINT" reference = .ok r)
          c.suppressed rs ∧
        j = (List.zipWith (resolutionEntries "SUPPRESS_PRINT") c.suppressed rs).flatten ∧
        c' = { c with suppressed := rs.map Resolved.qualified } := by
  rw [resolveSuppressed, Work.yields_get_bind, Work.yields_modify_bind]
  simp only [Work.yields_bind, Work.yields_modify, collect_resolveEvent_yields]
  constructor
  · rintro ⟨_, _, _, _, ⟨rs, hrs, rfl, rfl, rfl⟩, ⟨rfl, rfl⟩, rfl⟩
    exact ⟨rs, hrs, by simp, rfl⟩
  · rintro ⟨rs, hrs, rfl, rfl⟩
    exact ⟨_, _, _, _, ⟨rs, hrs, rfl, rfl, rfl⟩, ⟨rfl, rfl⟩, by simp⟩

theorem declared_of_lookups {groups : List EventGroup} {context : String}
    {references : List String} {rs : List Resolved}
    (h : List.Forall₂ (fun reference r => lookupEvent groups context reference = .ok r)
      references rs) :
    ∀ q ∈ rs.map Resolved.qualified, Declared groups q := by
  induction h with
  | nil => simp
  | cons hr _ ih =>
    intro q hq
    rcases List.mem_cons.1 hq with rfl | hq
    · exact lookupEvent_declared hr
    · exact ih q hq

theorem Separable.lookups {groups : List EventGroup} (hs : Separable groups) (context : String)
    {qs : List String} (h : ∀ q ∈ qs, Declared groups q) :
    List.Forall₂ (fun reference r => lookupEvent groups context reference = .ok r) qs
      (qs.map fun q => ⟨q, false⟩) := by
  induction qs with
  | nil => exact .nil
  | cons q qs ih =>
    exact .cons (hs.lookupEvent_eq (h q (by simp)) context)
      (ih fun q' hq' => h q' (by simp [hq']))

theorem verifyPorts_yields {c c' : Chart} {u : Unit} {j : Journal} :
    verifyPorts.Yields c u j c' ↔
      j = Work.warningsOf .designSmell (c.ports.filterMap (portWarning? c)) ∧ c' = c := by
  simp only [verifyPorts, Work.yields_get_bind, Work.yields_warnAll]

end Validation

end Statechart
