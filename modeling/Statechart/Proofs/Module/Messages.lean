import Statechart.Proofs.Callbacks.Closure
import Statechart.Proofs.Callbacks.Meaning
import Statechart.Proofs.Module.Names
import Statechart.Proofs.Reading.Chart
import Statechart.Proofs.Target.Literals

/-!
Events that routines send as messages.

A routine sends an event through a port if a word of its callback names an enabled port, or if it is
named like one itself. Ports are not read without a transport. So a module with such a statement has
the wrapper that can send messages, and the port is in its table.
-/
set_option autoImplicit false

namespace Statechart

open Target

def Chart.HasPort (c : Chart) (name : String) : Prop :=
  ∃ p ∈ c.ports, p.disabled = false ∧ p.name = name

theorem Chart.hasPort_of_enabledPort? {c : Chart} {name : String} {p : Port}
    (h : c.enabledPort? name = some p) : p.name = name ∧ c.HasPort name := by
  obtain ⟨hfind, henabled⟩ := Option.filter_eq_some_iff.1 h
  have hname : p.name = name := by simpa using List.find?_some hfind
  exact ⟨hname, p, List.mem_of_find?_eq_some hfind, by simpa using henabled, hname⟩

theorem Word.hasPort_of_port {c : Chart} {context word via : String}
    (h : classify c context word = .ok (.port via)) : c.HasPort via := by
  unfold classify at h
  dsimp only at h
  split at h
  · cases h
  · split at h
    · rename_i hsome
      obtain ⟨p, hp⟩ := Option.isSome_iff_exists.1 hsome
      rw [← Word.port.inj (Except.ok.inj h)]
      exact (Chart.hasPort_of_enabledPort? hp).2
    · cases h
  · cases h

theorem Chart.read_transport {label text : String} {base : Path} {read : Reading.FileReader}
    {c : Chart} (h : (Chart.read label text base read ()).result = .ok c)
    (hports : c.ports ≠ []) : c.transport.isSome = true := by
  obtain ⟨f, -, -, -, -, _, _, hread⟩ := read_parts h
  rcases Reading.ports_inTurn hread with hnone | ⟨htransport, -, -⟩
  · exact absurd (Prod.mk.inj hnone).2 hports
  · exact htransport

structure Templates : Prop where
  print : code "println !" = [.ident "println", .punct '!' false]
  method : (Ident.ofText "send_event_as_msg").name = "send_event_as_msg"
  config : code "PortConfig" = [.ident "PortConfig"]
  name : code "name :" = [.ident "name", .punct ':' false]
  host : code ", host :" = [.punct ',' false, .ident "host", .punct ':' false]

theorem templates : Templates where
  print := code_ofList _
  method := rfl
  config := code_ofList _
  name := code_ofList _
  host := code_ofList _

namespace Statement

def via? : Statement → Option String
  | send port _ _ => port
  | _ => none

/-- A statement that sends a message, and is no code of the design. -/
def IsMessage (s : Statement) : Prop :=
  (∀ tree, s ≠ .embedded tree) ∧ .ident "send_event_as_msg" ∈ s.tokens

theorem isMessage_iff {s : Statement} : s.IsMessage ↔ ∃ port, s.via? = some port := by
  have hend : Token.op ";" = [.punct ';' false] := rfl
  unfold IsMessage
  cases s with
  | embedded tree => simp [via?]
  | trace line => simp [via?, tokens, templates.print, hend, Token.parens]
  | send port path data =>
    cases port with
    | none => simp [via?, tokens_send, sendTokens]
    | some port => simp [via?, tokens_send, sendTokens]

end Statement

/-- The port of a statement that sends a message, as its text has it. -/
def messagePort? : List Token → Option String
  | [.ident "param", .punct '.' false, .ident "send_event_as_msg",
      .group .paren (.literal port :: .punct ',' false :: _), .punct ';' false] =>
    Literal.string? port
  | _ => none

theorem Statement.messagePort?_tokens {s : Statement} {port : String} (h : s.via? = some port) :
    messagePort? s.tokens = some port := by
  cases s with
  | trace line => cases h
  | embedded tree => cases h
  | send via path data =>
    obtain rfl : via = some port := h
    simp [tokens_send, sendTokens, messagePort?, Literal.string?_quoted]

namespace Generator

variable {c : Chart}

theorem Copied.via? {words : List String} {code : List Statement} (h : Copied c words code)
    {s : Statement} (hs : s ∈ code) : s.via? = none := by
  obtain ⟨parts, -, rfl⟩ := h
  obtain ⟨tree, -, rfl⟩ := List.mem_map.1 hs
  rfl

/-- An event goes through the last port that was named, or that of the callback. -/
theorem Sends.hasPort {context port : String} {own : Option String} {words : List String}
    {b : List Statement} {s : Statement} (h : Sends c context own words b)
    (hown : ∀ via, own = some via → c.HasPort via) (hs : s ∈ b) (hvia : s.via? = some port) :
    c.HasPort port := by
  obtain ⟨before, event, after, resolved, path, code, -, -, -, -, hcode, rfl⟩ := h
  rcases List.mem_append.1 hs with hs | hs
  · cases (hcode.via? hs).symm.trans hvia
  · obtain rfl := List.mem_singleton.1 hs
    rcases Option.or_eq_some_iff.1 hvia with hlast | ⟨-, hport⟩
    · obtain ⟨word, -, hword⟩ := List.mem_filterMap.1 (List.mem_of_getLast? hlast)
      exact Word.hasPort_of_port (Word.port?_eq_some.1 hword)
    · exact hown port hport

theorem Use.hasPort {u : Use} {b : List Statement} {s : Statement} {port : String}
    (h : u.body c = .ok b) (hs : s ∈ b) (hvia : s.via? = some port) : c.HasPort port := by
  have hsilent : ∀ line, s ≠ .trace line := by
    rintro line rfl
    cases hvia
  obtain ⟨role, site, callback⟩ := u
  cases callback with
  | absent =>
    unfold Use.body at h
    dsimp only at h
    split at h
    · cases h
      split at hs <;> simp [hsilent] at hs
    · cases h
      simp at hs
  | bare text =>
    cases h
    split at hs <;> simp [hsilent] at hs
  | structured name pieces =>
    obtain ⟨words, -, ⟨-, hcode⟩ | hsends⟩ := body_eq_ok.1 h
    · cases (hcode.via? hs).symm.trans hvia
    · refine hsends.hasPort ?_ hs hvia
      intro via hown
      obtain ⟨p, hp, rfl⟩ := Option.map_eq_some_iff.1 hown
      obtain ⟨hname, hport⟩ := Chart.hasPort_of_enabledPort? hp
      rwa [hname]

end Generator

namespace Module

def methodsAt (type : String) : List Token → List String
  | .ident word :: .ident name :: .group .brace inner :: _ =>
    if word = "impl" ∧ name = type then definitions .value inner else []
  | _ => []

def methods (type : String) : List Token → List String
  | [] => []
  | t :: ts => methodsAt type (t :: ts) ++ methods type ts

theorem mem_methods_append {type name : String} {as bs : List Token}
    (h : name ∈ methods type bs) : name ∈ methods type (as ++ bs) := by
  induction as with
  | nil => exact h
  | cons t as ih => exact List.mem_append_right _ ih

theorem mem_methods_impl {chart : Ident} {name : String} {before inner after : List Token}
    (h : name ∈ definitions .value inner) :
    name ∈ methods chart.text
      (before ++ code "impl" ++ chart.tokens ++ Token.braces inner ++ after) := by
  simp only [code_impl, List.append_assoc]
  apply mem_methods_append
  simp [Ident.tokens, Token.word, Token.braces, methods, methodsAt, h]

theorem mem_definitions_append {space : Space} {name : String} {as bs : List Token}
    (h : name ∈ definitions space bs) : name ∈ definitions space (as ++ bs) := by
  induction as with
  | nil => exact h
  | cons t as ih => exact List.mem_append_right _ ih

/-- A template that begins with the head of a function defines it, whatever comes next. -/
theorem mem_definitions_fn {name : String} {template rest : List Token}
    (h : template.take 3 = [.ident "pub", .ident "fn", .ident name])
    (hname : (Ident.ofText name).name = name) :
    name ∈ definitions .value (template ++ rest) := by
  rw [← List.take_append_drop 3 template, h]
  simp [definitions, definedAt, introduces, hname]

theorem send_event_as_msg_mem_methods (c : Chart) (chart : Ident) :
    "send_event_as_msg" ∈ methods chart.text (portWrapper c chart) := by
  apply mem_methods_impl
  simp only [List.append_assoc]
  -- Five parts stand in front of the template.
  iterate 5 apply mem_definitions_append
  refine mem_definitions_fn ?_ templates.method
  simp only [code, Lexer.tokens?, String.toList_append, String.reduceToList]
  decide +kernel

def tableAt (name : String) : List Token → List Token
  | .ident word :: .punct ':' false :: .punct '&' false :: .group .bracket _ :: .punct '=' false ::
      .punct '&' false :: .group .bracket inner :: _ => if word = name then inner else []
  | _ => []

def table (name : String) : List Token → List Token
  | [] => []
  | t :: ts => tableAt name (t :: ts) ++ table name ts

def configAt : List Token → List String
  | .ident "PortConfig" :: .group .brace (.ident "name" :: .punct ':' false :: .literal name ::
      .punct ',' false :: _) :: _ => (Literal.string? name).toList
  | _ => []

def configNames : List Token → List String
  | [] => []
  | t :: ts => configAt (t :: ts) ++ configNames ts

def listedPorts (ts : List Token) : List String :=
  configNames (table "PORTS" ts)

theorem configNames_portConfig (p : Port) (rest : List Token) :
    configNames (portConfig p ++ rest) = p.name :: configNames rest := by
  rw [portConfig, templates.config, templates.name, templates.host]
  simp [configNames, configAt, Token.braces, stringLiteral, Literal.string?_quoted]

theorem configNames_portConfigs (ps : List Port) :
    configNames (Token.commaSeparated (ps.map portConfig)) = ps.map Port.name := by
  induction ps with
  | nil => rfl
  | cons p ps ih =>
    cases ps with
    | nil => simpa [Token.commaSeparated, configNames] using configNames_portConfig p []
    | cons q ps =>
      have hcomma : ∀ ts, configNames (Token.op "," ++ ts) = configNames ts := fun _ => rfl
      simp only [List.map_cons, Token.commaSeparated, List.append_assoc, configNames_portConfig,
        hcomma] at ih ⊢
      rw [ih]

theorem listedPorts_portTables (c : Chart) :
    listedPorts (portTables c) =
      if c.transport.isSome then c.enabledPorts.map Port.name else [] := by
  have hand : Token.op "&" = [.punct '&' false] := rfl
  have hend : Token.op ";" = [.punct ';' false] := rfl
  unfold portTables
  cases c.transport with
  | none => rfl
  | some t =>
    rw [code_transport, code_ports, hend]
    simp [listedPorts, table, tableAt, slice, hand, Token.brackets, Token.braces,
      configNames_portConfigs]

/-- What the module of a chart offers to a statement that sends through a port. -/
structure Carries (c : Chart) (port : String) : Prop where
  declared : c.HasPort port
  listed : port ∈ listedPorts (portTables c)
  wrapper : ∀ chart, wrapper c chart = portWrapper c chart ∧
    "send_event_as_msg" ∈ methods chart.text (wrapper c chart)

theorem carries_of_hasPort {c : Chart} {port : String}
    (htransport : c.ports ≠ [] → c.transport.isSome = true) (h : c.HasPort port) :
    Carries c port := by
  have hport := h
  obtain ⟨p, hp, henabled, rfl⟩ := hport
  have hsome := htransport (List.ne_nil_of_mem hp)
  have hmem : p ∈ c.enabledPorts := List.mem_filter.2 ⟨hp, by simp [henabled]⟩
  have hhas : hasPorts c = true := by
    rw [hasPorts, hsome, Bool.true_and, Bool.not_eq_true', List.isEmpty_eq_false_iff]
    exact List.ne_nil_of_mem hmem
  refine ⟨h, ?_, fun chart => ?_⟩
  · rw [listedPorts_portTables, if_pos hsome]
    exact List.mem_map_of_mem hmem
  · have hwrapper : Module.wrapper c chart = portWrapper c chart := if_pos hhas
    rw [hwrapper]
    exact ⟨rfl, send_event_as_msg_mem_methods c chart⟩

end Module

namespace Generator

/-- A statement that sends a message names a port that the module of the chart has. -/
theorem messages_carried {label text : String} {base : Path} {read : Reading.FileReader}
    {c : Chart} (hread : (Chart.read label text base read ()).result = .ok c)
    (hstates : (stateHooks c (resume {})).result = .ok ())
    (htransitions : (transitionHooks c
      (resume (stateHooks c (resume {})).state.out)).result = .ok ()) :
    ∀ r ∈ (transitionHooks c (resume (stateHooks c (resume {})).state.out)).state.out.routines,
      ∀ s ∈ r.body, s.IsMessage →
        ∃ port, messagePort? s.tokens = some port ∧ Module.Carries c port := by
  obtain ⟨h₁, -⟩ := stateHooks_yields (Tracks.empty c) (Work.yields_of_result hstates)
  obtain ⟨h₂, -⟩ := transitionHooks_yields h₁.resume (Work.yields_of_result htransitions)
  intro r hr s hs hmessage
  obtain ⟨port, hvia⟩ := Statement.isMessage_iff.1 hmessage
  obtain ⟨u, -, -, hbody, -⟩ := h₂.made r hr
  exact ⟨port, Statement.messagePort?_tokens hvia,
    Module.carries_of_hasPort (Chart.read_transport hread) (Use.hasPort hbody hs hvia)⟩

def dockLines : List String :=
  ["[STATECHART]", "name = Dock", "[OPTIONS]",
    "[EVENTS_1]", "name = Bay", "base = 1", "event_1 = go",
    "[STATE_1]", "name = Idle", "parent = None", "type = State",
    "entry = [hail(), quay, go]", "do = None", "exit = None",
    "[TRANSITION_1]", "start = Start", "end = Idle", "event = None", "guard = None",
    "action = None",
    "[PORT_INIT]", "import_type = zmq", "import_name = wire",
    "[PORT_1]", "host = h", "port = 1", "name = quay", "type = push", "format = AnyEvent",
    "events = None"]

def dock : Chart where
  name := "Dock"
  states := [⟨"STATE_1", "Idle", none, .simple, .structured "hail" ["quay, go"], .absent, .absent,
    false⟩]
  groups := [⟨"EVENTS_1", "Bay", some 1, ["go"], []⟩]
  transitions := [⟨"TRANSITION_1", .start, .state "Idle", none, .absent, .absent, false⟩]
  transport := some ⟨"zmq", "wire"⟩
  ports := [⟨"PORT_1", "h", 1, "quay", .push, .anyEvent, none, false⟩]

theorem dock_messages_carried :
    (Chart.read "dock.ini" (Text.unlines dockLines) ⟨""⟩ (fun _ => .error .notFound) ()).result =
        .ok dock ∧
      (stateHooks dock (resume {})).result = .ok () ∧
      (transitionHooks dock (resume (stateHooks dock (resume {})).state.out)).result = .ok () ∧
      ∃ r ∈ (transitionHooks dock
          (resume (stateHooks dock (resume {})).state.out)).state.out.routines,
        ∃ s ∈ r.body, s.IsMessage ∧
          ∃ port, messagePort? s.tokens = some port ∧ Module.Carries dock port := by
  have hread : (Chart.read "dock.ini" (Text.unlines dockLines) ⟨""⟩
      (fun _ => .error .notFound) ()).result = .ok dock :=
    Chart.read_unlines (by repeat constructor) (by decide +kernel) (by decide +kernel)
  have hstates : (stateHooks dock (resume {})).result = .ok () :=
    ok_of_toOption (by decide +kernel)
  have htransitions : (transitionHooks dock
      (resume (stateHooks dock (resume {})).state.out)).result = .ok () :=
    ok_of_toOption (by decide +kernel)
  have hmessages : some "quay" ∈ ((transitionHooks dock (resume (stateHooks dock
      (resume {})).state.out)).state.out.routines.flatMap Routine.body).map Statement.via? := by
    decide +kernel
  obtain ⟨s, hs, hvia⟩ := List.mem_map.1 hmessages
  obtain ⟨r, hr, hs⟩ := List.mem_flatMap.1 hs
  have hmessage := Statement.isMessage_iff.2 ⟨_, hvia⟩
  exact ⟨hread, hstates, htransitions, r, hr, s, hs, hmessage,
    messages_carried hread hstates htransitions r hr s hs hmessage⟩

end Generator

end Statechart
