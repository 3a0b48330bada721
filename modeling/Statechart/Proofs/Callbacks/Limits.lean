import Statechart.Proofs.Callbacks.Closure
import Statechart.Proofs.Callbacks.Meaning
import Statechart.Proofs.Reading.Chart
import Statechart.Proofs.Validation.Events

/-!
Charts with limited actions.

The routines of such a chart have no code of the design. Each is empty, prints a line or sends one
event, and nobody is warned of copied code. The event is declared, and it is sent by the constant
that its qualified name spells. That is the constant of the event where the name of its group has no
point; a point in it, hidden from the identifier by a comment, leads to another constant.
-/
set_option autoImplicit false

namespace Statechart

namespace Work

variable {ε σ α β γ : Type} {concern : Concern}

/-- Work that does not warn of a concern, whatever becomes of it. -/
def Spares (concern : Concern) (w : Work ε σ α) : Prop :=
  ∀ s, ∀ x ∈ (w s).journal.warnings, x.concern ≠ concern

theorem spares_of_silent {w : Work ε σ α} (h : ∀ s, (w s).journal = []) : w.Spares concern := by
  intro s
  simp [h, Journal.warnings]

theorem spares_pure (a : α) : (Pure.pure a : Work ε σ α).Spares concern :=
  spares_of_silent fun _ => rfl

theorem spares_fail (e : ε) : (fail e : Work ε σ α).Spares concern :=
  spares_of_silent fun _ => rfl

theorem spares_ofExcept (r : Except ε α) : (ofExcept r : Work ε σ α).Spares concern :=
  spares_of_silent fun _ => rfl

theorem spares_get : (get : Work ε σ σ).Spares concern :=
  spares_of_silent fun _ => rfl

theorem spares_modify (f : σ → σ) : (modify f : Work ε σ Unit).Spares concern :=
  spares_of_silent fun _ => rfl

theorem spares_warn {other : Concern} (h : other ≠ concern) (message : String) :
    (warn other message : Work ε σ Unit).Spares concern := by
  intro s x hx
  obtain rfl : x = ⟨other, message⟩ := by simpa [warn, enter, Journal.warnings] using hx
  exact h

theorem spares_note (level : Level) (message : String) (fields : List (String × String)) :
    (note level message fields : Work ε σ Unit).Spares concern := by
  intro s
  simp [note, enter, Journal.warnings]

theorem Spares.bind {w : Work ε σ α} {f : α → Work ε σ β} (hw : w.Spares concern)
    (hf : ∀ a, (f a).Spares concern) : (w >>= f).Spares concern := by
  intro s
  rw [bind_apply]
  cases (w s).result with
  | error e => exact hw s
  | ok a =>
    intro x hx
    rw [Journal.warnings_append, List.mem_append] at hx
    rcases hx with hx | hx
    · exact hw s x hx
    · exact hf a _ x hx

theorem Spares.collect {f : γ → Work ε σ α} (hf : ∀ c, (f c).Spares concern) (cs : List γ) :
    (Work.collect f cs).Spares concern := by
  induction cs with
  | nil => exact spares_pure []
  | cons c cs ih => exact (hf c).bind fun a => ih.bind fun as => spares_pure (a :: as)

end Work

def EventPath.IsConstant (p : EventPath) (g : EventGroup) (event : String) : Prop :=
  Target.Fragment.ident? (Text.trim g.name) = some p.group ∧
    Target.Fragment.ident? (Text.trim event) = some p.event

/-- A qualified name spells the constant of its event if the name of the group has no point. -/
theorem EventPath.Spelled.isConstant {p : EventPath} {g : EventGroup} {event : String}
    (h : p.Spelled (g.name ++ "." ++ event)) (hpoint : Text.containsChar '.' g.name = false) :
    p.IsConstant g event := by
  obtain ⟨group, rest, hgroup, heq, hg, he⟩ := h
  obtain ⟨rfl, rfl⟩ := Text.around_inj hpoint hgroup heq
  exact ⟨hg, he⟩

theorem Word.declared_of_event {c : Chart} {context word : String} {resolved : Resolved}
    (h : classify c context word = .ok (.event resolved)) :
    Declared c.groups resolved.qualified := by
  unfold classify at h
  dsimp only at h
  split at h
  · rename_i hlookup
    obtain rfl := Word.event.inj (Except.ok.inj h)
    exact lookupEvent_declared hlookup
  · split at h <;> cases h
  · cases h

namespace Generator

open Validation

variable {c : Chart}

/-- A body without code of the design: empty, a printed line, or one event that is declared. -/
def CodeFree (c : Chart) (line : String) (b : List Statement) : Prop :=
  b = [] ∨ b = [.trace line] ∨
    ∃ port path data, b = [.send port path data] ∧
      ∃ g ∈ c.groups, ∃ e ∈ g.events, path.Spelled (g.name ++ "." ++ e)

theorem Copied.eq_nil (hlimit : c.options.limitActions = true) {words : List String}
    {code : List Statement} (h : Copied c words code) : code = [] := by
  cases words with
  | nil => exact copied_nil.1 h
  | cons word words =>
    obtain ⟨_, _, ⟨hfree, -⟩, -⟩ := copied_cons.1 h
    simp [hlimit] at hfree

theorem codeFree_body (hlimit : c.options.limitActions = true) {name context line : String}
    {pieces : List String} {g : Generator} {b : List Statement}
    (h : (body c name context pieces g).result = .ok b) : CodeFree c line b := by
  rw [body, Work.bind_result_eq_ok] at h
  obtain ⟨words, -, h⟩ := h
  rcases (statements_eq_ok _ _ _ _ _).1 h with ⟨-, -, hcode⟩ | hsends
  · exact .inl (hcode.eq_nil hlimit)
  · obtain ⟨_, _, _, _, path, code, -, -, hevent, hpath, hcode, rfl⟩ := hsends
    obtain rfl := hcode.eq_nil hlimit
    obtain ⟨g, hg, e, he, hq⟩ := Word.declared_of_event hevent
    exact .inr (.inr ⟨_, path, _, rfl, g, hg, e, he, hq ▸ hpath⟩)

theorem Use.codeFree (hlimit : c.options.limitActions = true) {u : Use} {b : List Statement}
    (h : u.body c = .ok b) : CodeFree c u.site.traceLine b := by
  have htrace : ∀ {traced : Prop} [Decidable traced],
      CodeFree c u.site.traceLine (if traced then [.trace u.site.traceLine] else []) := by
    intro traced _
    split
    · exact .inr (.inl rfl)
    · exact .inl rfl
  obtain ⟨role, site, callback⟩ := u
  cases callback with
  | absent =>
    cases role with
    | guard =>
      cases h
      exact .inl rfl
    | action =>
      cases site with
      | state s =>
        cases h
        exact .inl rfl
      | transition t =>
        cases h
        exact htrace
  | bare text =>
    cases h
    exact htrace
  | structured name pieces => exact codeFree_body hlimit h

theorem spares_statements (hlimit : c.options.limitActions = true) (name context : String)
    (port : Option String) (chosen : Bool) (words : List String) :
    (statements c name context port chosen words).Spares .embeddedCode := by
  induction words generalizing port chosen with
  | nil =>
    cases port with
    | none => exact Work.spares_pure _
    | some port =>
      cases chosen with
      | false => exact Work.spares_pure _
      | true => exact Work.spares_fail _
  | cons word words ih =>
    rw [statements_cons]
    refine (Work.spares_ofExcept _).bind fun kind => ?_
    cases kind with
    | event resolved =>
      have hsend : (do
          let path ← Work.ofExcept (EventPath.read context resolved.qualified)
          return [.send port path (words.map Datum.ofWord)] :
            Generate (List Statement)).Spares .embeddedCode :=
        (Work.spares_ofExcept _).bind fun path => Work.spares_pure _
      rw [onWord]
      split
      · exact (Work.spares_warn (by decide) _).bind fun _ => hsend
      · exact hsend
    | port via => exact ih (some via) true
    | literal =>
      rw [onWord, hlimit]
      exact (Work.spares_fail _).bind fun code => (ih port chosen).bind fun rest =>
        Work.spares_pure _

theorem spares_declare (name : String) (role : Role) :
    (declare name role).Spares .embeddedCode := by
  refine Work.spares_get.bind fun g => ?_
  split
  · split
    · exact Work.spares_pure _
    · exact Work.spares_fail _
  · exact (Work.spares_modify _).bind fun _ => Work.spares_pure _

theorem spares_stub (name : String) (role : Role) (site : Site) (traced : Bool) :
    (stub name role site traced).Spares .embeddedCode := by
  refine (Work.spares_ofExcept _).bind fun _ => (spares_declare name role).bind fun isNew => ?_
  split
  · exact (Work.spares_modify _).bind fun _ => Work.spares_pure _
  · exact Work.spares_pure _

theorem spares_structured (hlimit : c.options.limitActions = true) (name : String)
    (pieces : List String) (role : Role) (site : Site) :
    (structured c name pieces role site).Spares .embeddedCode := by
  refine (Work.spares_ofExcept _).bind fun _ => (spares_declare name role).bind fun isNew => ?_
  split
  · refine Work.Spares.bind ?_ fun b => (Work.spares_modify _).bind fun _ => Work.spares_pure _
    exact (Work.spares_ofExcept _).bind fun words => spares_statements hlimit name _ _ _ words
  · split
    · exact (Work.spares_warn (by decide) _).bind fun _ => Work.spares_pure _
    · exact Work.spares_pure _

theorem spares_reference (hlimit : c.options.limitActions = true) (role : Role) (site : Site)
    (callback : Callback) : (reference c role site callback).Spares .embeddedCode := by
  cases callback with
  | absent =>
    cases role with
    | guard => exact spares_stub _ _ _ _
    | action =>
      cases site with
      | state s => exact spares_stub _ _ _ _
      | transition t =>
        rw [reference, absent]
        split
        · exact spares_stub _ _ _ _
        · exact spares_stub _ _ _ _
  | bare text =>
    rw [reference, bare]
    split
    · generalize Target.Fragment.expr? (Callback.dropCall text) = tree
      cases tree with
      | none => exact Work.spares_fail _
      | some tree => exact Work.spares_pure _
    · exact spares_stub _ _ _ _
  | structured name pieces => exact spares_structured hlimit name pieces role site

theorem spares_stateHooks (hlimit : c.options.limitActions = true) :
    (stateHooks c).Spares .embeddedCode := by
  have hfield : ∀ field, (Work.collect (stateField c field) c.enabledStates).Spares
      .embeddedCode := fun field =>
    Work.Spares.collect (fun s => spares_reference hlimit .action (.state s) (field s)) _
  exact (hfield _).bind fun _ => (hfield _).bind fun _ => (hfield _).bind fun _ =>
    (Work.spares_modify _).bind fun _ => Work.spares_get.bind fun _ => Work.spares_note _ _ _

theorem spares_transitionHooks (hlimit : c.options.limitActions = true) :
    (transitionHooks c).Spares .embeddedCode := by
  have hfield : ∀ role field, (Work.collect (transitionField c role field)
      c.enabledTransitions).Spares .embeddedCode := fun role field =>
    Work.Spares.collect (fun t => spares_reference hlimit role (.transition t) (field t)) _
  exact (hfield _ _).bind fun _ => (hfield _ _).bind fun _ =>
    (Work.spares_modify _).bind fun _ => Work.spares_get.bind fun _ => Work.spares_note _ _ _

/-- The routines of a chart with limited actions. -/
theorem limited_routines {c : Chart} (hlimit : c.options.limitActions = true)
    (hstates : (stateHooks c (resume {})).result = .ok ())
    (htransitions : (transitionHooks c
      (resume (stateHooks c (resume {})).state.out)).result = .ok ()) :
    (∀ r ∈ (transitionHooks c (resume (stateHooks c (resume {})).state.out)).state.out.routines,
      r.body = [] ∨ (∃ u ∈ uses c, r.body = [.trace u.site.traceLine]) ∨
        ∃ port path data, r.body = [.send port path data] ∧
          ∃ g ∈ c.groups, ∃ e ∈ g.events, path.Spelled (g.name ++ "." ++ e) ∧
            (Text.containsChar '.' g.name = false → path.IsConstant g e)) ∧
      ∀ w ∈ Journal.warnings ((stateHooks c (resume {})).journal ++
          (transitionHooks c (resume (stateHooks c (resume {})).state.out)).journal),
        w.concern ≠ .embeddedCode := by
  have htracks := (stateHooks_yields (Tracks.empty c) (Work.yields_of_result hstates)).1.resume
  have hmade := (transitionHooks_yields htracks (Work.yields_of_result htransitions)).1.made
  constructor
  · intro r hr
    obtain ⟨u, ⟨before, after, hsplit, -⟩, -, hbody, -⟩ := hmade r hr
    rcases u.codeFree hlimit hbody with hnil | htrace | hsend
    · exact .inl hnil
    · have hu : u ∈ uses c := by
        rw [uses, ← List.nil_append (stateUses c), hsplit]
        simp
      exact .inr (.inl ⟨u, hu, htrace⟩)
    · obtain ⟨port, path, data, hsend, g, hg, e, he, hpath⟩ := hsend
      exact .inr (.inr ⟨port, path, data, hsend, g, hg, e, he, hpath, hpath.isConstant⟩)
  · rw [Journal.warnings_append]
    exact List.forall_mem_append.2
      ⟨spares_stateHooks hlimit _, spares_transitionHooks hlimit _⟩

def sentBy? : List Statement → Option EventPath
  | [.send _ path _] => some path
  | _ => none

theorem exists_of_sentBy? {b : List Statement} {path : EventPath} (h : sentBy? b = some path) :
    ∃ port data, b = [.send port path data] := by
  unfold sentBy? at h
  split at h
  · cases h
    exact ⟨_, _, rfl⟩
  · cases h

def buoy : Chart where
  name := "Buoy"
  options := { debug := true, limitActions := true }
  states :=
    [⟨"STATE_1", "Lit", none, .simple, .structured "call" ["out, seen, 7"], .bare "tick()",
      .absent, false⟩]
  groups := [⟨"EVENTS_1", "Ship", some 1, ["seen", "gone"], []⟩]
  transitions := [⟨"TRANSITION_1", .start, .state "Lit", none, .absent, .absent, false⟩]
  transport := some ⟨"zmq", "wire"⟩
  ports := [⟨"PORT_1", "h", 1, "out", .push, .anyEvent, none, false⟩]

theorem buoy_limited :
    buoy.options.limitActions = true ∧ (stateHooks buoy (resume {})).result = .ok () ∧
      (transitionHooks buoy
        (resume (stateHooks buoy (resume {})).state.out)).result = .ok () ∧
      (∃ r ∈ (transitionHooks buoy
          (resume (stateHooks buoy (resume {})).state.out)).state.out.routines,
        r.name = "call" ∧ ∃ port path data, r.body = [.send port path data] ∧
          ∃ e ∈ ["seen", "gone"],
            path.IsConstant ⟨"EVENTS_1", "Ship", some 1, ["seen", "gone"], []⟩ e) ∧
      ∀ w ∈ Journal.warnings ((stateHooks buoy (resume {})).journal ++
          (transitionHooks buoy (resume (stateHooks buoy (resume {})).state.out)).journal),
        w.concern ≠ .embeddedCode := by
  have hstates : (stateHooks buoy (resume {})).result = .ok () :=
    ok_of_toOption (by decide +kernel)
  have htransitions : (transitionHooks buoy
      (resume (stateHooks buoy (resume {})).state.out)).result = .ok () :=
    ok_of_toOption (by decide +kernel)
  obtain ⟨hbodies, hquiet⟩ := limited_routines rfl hstates htransitions
  refine ⟨rfl, hstates, htransitions, ?_, hquiet⟩
  have hcall : (((transitionHooks buoy
      (resume (stateHooks buoy (resume {})).state.out)).state.out.routines.find?
        (·.name == "call")).bind fun r => sentBy? r.body) =
      some ⟨⟨false, "Ship"⟩, ⟨false, "seen"⟩⟩ := by
    decide +kernel
  obtain ⟨r, hfind, hsent⟩ := Option.bind_eq_some_iff.1 hcall
  obtain ⟨port, data, hbody⟩ := exists_of_sentBy? hsent
  have hr := List.mem_of_find?_eq_some hfind
  refine ⟨r, hr, by simpa using List.find?_some hfind, ?_⟩
  rcases hbodies r hr with hnil | htrace | hsend
  · simp [hbody] at hnil
  · simp [hbody] at htrace
  · obtain ⟨port, path, data, hsend, g, hg, e, he, -, hconstant⟩ := hsend
    obtain rfl : g = _ := by simpa [buoy] using hg
    exact ⟨port, path, data, hsend, e, he, hconstant (by decide)⟩

/-- A siren whose group of events has a comment in its name, and a point in the comment. -/
def sirenLines : List String :=
  ["[STATECHART]", "name = Siren", "[OPTIONS]", "LimitAction = 1",
    "[EVENTS_1]", "name = A//.y//", "base = 1", "event_1 = x",
    "[STATE_1]", "name = Idle", "parent = None", "type = State",
    "entry = [wake(), x]", "do = None", "exit = None",
    "[TRANSITION_1]", "start = Start", "end = Idle", "event = None", "guard = None",
    "action = None"]

def siren : Chart where
  name := "Siren"
  options := { limitActions := true }
  states := [⟨"STATE_1", "Idle", none, .simple, .structured "wake" ["x"], .absent, .absent, false⟩]
  groups := [⟨"EVENTS_1", "A//.y//", some 1, ["x"], []⟩]
  transitions := [⟨"TRANSITION_1", .start, .state "Idle", none, .absent, .absent, false⟩]

/-- The siren is accepted, and sends an event by a constant that no event has. -/
theorem siren_sends_undeclared :
    Validated (all siren).state ∧ (all siren).state.options.limitActions = true ∧
      (stateHooks (all siren).state (resume {})).result = .ok () ∧
      (transitionHooks (all siren).state
        (resume (stateHooks (all siren).state (resume {})).state.out)).result = .ok () ∧
      ∃ r ∈ (transitionHooks (all siren).state
          (resume (stateHooks (all siren).state (resume {})).state.out)).state.out.routines,
        ∃ port path data, r.body = [.send port path data] ∧
          ∀ g ∈ (all siren).state.groups, ∀ e ∈ g.events, ¬ path.IsConstant g e := by
  have hread : (Chart.read "siren.ini" (Text.unlines sirenLines) ⟨""⟩
      (fun _ => .error .notFound) ()).result = .ok siren :=
    Chart.read_unlines (by repeat constructor) (by decide +kernel) (by decide +kernel)
  have hall : (all siren).result = .ok () := ok_of_toOption (by decide +kernel)
  have hstates : (stateHooks (all siren).state (resume {})).result = .ok () :=
    ok_of_toOption (by decide +kernel)
  have htransitions : (transitionHooks (all siren).state
      (resume (stateHooks (all siren).state (resume {})).state.out)).result = .ok () :=
    ok_of_toOption (by decide +kernel)
  refine ⟨⟨"siren.ini", _, _, _, siren, hread, hall, rfl⟩, by decide +kernel, hstates,
    htransitions, ?_⟩
  have hwake : (((transitionHooks (all siren).state
      (resume (stateHooks (all siren).state (resume {})).state.out)).state.out.routines.head?).bind
        fun r => sentBy? r.body) = some ⟨⟨false, "A"⟩, ⟨false, "y"⟩⟩ := by
    decide +kernel
  obtain ⟨r, hr, hsent⟩ := Option.bind_eq_some_iff.1 hwake
  obtain ⟨port, data, hbody⟩ := exists_of_sentBy? hsent
  refine ⟨r, List.mem_of_head? hr, port, _, data, hbody, ?_⟩
  have hnone : ∀ g ∈ (all siren).state.groups, ∀ e ∈ g.events,
      Target.Fragment.ident? (Text.trim e) ≠ some ⟨false, "y"⟩ := by
    decide +kernel
  intro g hg e he hconstant
  exact hnone g hg e he hconstant.2

end Generator

end Statechart
