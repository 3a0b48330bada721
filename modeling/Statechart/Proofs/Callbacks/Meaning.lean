import Mathlib.Data.List.Forall2
import Statechart.Proofs.Callbacks.Uses
import Statechart.Proofs.Target.Spelling
import Statechart.Proofs.Text

/-!
What a structured callback means.

Its words are code, ports and events. The first event ends the callback: it is sent, with the words
after it as data, through the last port named before it. A callback that is named like a port has
that port to begin with. The code among the words before the event is copied in front of it. Ports
need an event; without one there is only code.
-/
set_option autoImplicit false

namespace Statechart

open Target (Token Tree Ident code code_ofList)

/-- A constant as a qualified name spells it: the group up to the first point, then the event. -/
def EventPath.Spelled (p : EventPath) (qualified : String) : Prop :=
  ∃ group event, Text.containsChar '.' group = false ∧ qualified = group ++ "." ++ event ∧
    Target.Fragment.ident? (Text.trim group) = some p.group ∧
    Target.Fragment.ident? (Text.trim event) = some p.event

theorem EventPath.read_eq_ok {origin qualified : String} {p : EventPath} :
    EventPath.read origin qualified = .ok p ↔ p.Spelled qualified := by
  unfold EventPath.read EventPath.Spelled
  cases hcut : Text.cut? (· = '.') qualified with
  | none =>
    simp only [reduceCtorEq, false_iff]
    intro h
    obtain ⟨group, event, hgroup, rfl, -⟩ := h
    cases hcut.symm.trans (Text.cut?_around hgroup)
  | some sides =>
    obtain ⟨group, event⟩ := sides
    obtain ⟨hgroup, rfl⟩ := Text.cut?_eq_some.1 hcut
    simp only [bind_eq_ok, readIdent_eq_ok, pure, Except.pure, Except.ok.injEq]
    constructor
    · intro h
      obtain ⟨i, hi, j, hj, rfl⟩ := h
      exact ⟨group, event, hgroup, rfl, hi, hj⟩
    · intro h
      obtain ⟨group', event', hgroup', heq, hi, hj⟩ := h
      obtain ⟨rfl, rfl⟩ := Text.around_inj hgroup hgroup' heq
      exact ⟨p.group, hi, p.event, hj, rfl⟩

theorem Work.result_warn_bind {ε σ β : Type} (concern : Concern) (message : String)
    (f : Unit → Work ε σ β) (s : σ) :
    ((Work.warn concern message >>= f) s).result = (f () s).result := rfl

namespace Word

def via? : Word → Option String
  | port via => some via
  | _ => none

def port? (c : Chart) (context word : String) : Option String :=
  (classify c context word).toOption.bind via?

def isLiteral (c : Chart) (context word : String) : Bool :=
  (classify c context word).toOption = some literal

variable {c : Chart} {context word : String}

theorem port?_eq_some {via : String} :
    port? c context word = some via ↔ classify c context word = .ok (.port via) := by
  unfold port?
  generalize classify c context word = r
  cases r with
  | error e => simp [Except.toOption]
  | ok kind => cases kind <;> simp [Except.toOption, via?]

theorem port?_of_literal (h : classify c context word = .ok .literal) :
    port? c context word = none := by
  rw [port?, h]
  rfl

theorem isLiteral_iff :
    isLiteral c context word = true ↔ classify c context word = .ok .literal := by
  unfold isLiteral
  generalize classify c context word = r
  cases r with
  | error e => simp [Except.toOption]
  | ok kind => simp [Except.toOption]

theorem isLiteral_of_port {via : String} (h : classify c context word = .ok (.port via)) :
    isLiteral c context word = false := by
  rw [isLiteral, h]
  rfl

end Word

namespace Generator

variable {c : Chart} {name context : String}

def Copies (c : Chart) (word : String) (trees : List Tree) : Prop :=
  c.options.limitActions = false ∧
    ∃ block, Target.Fragment.block? ("\x7b " ++ Embedded.blockText word ++ " \x7d") = some block ∧
      trees = Target.Fragment.stmts block

def Copied (c : Chart) (words : List String) (code : List Statement) : Prop :=
  ∃ parts, List.Forall₂ (Copies c) words parts ∧ code = parts.flatten.map Statement.embedded

/-- Words whose first event is sent. `port` is where it goes if no word before it names a port. -/
def Sends (c : Chart) (context : String) (port : Option String) (words : List String)
    (body : List Statement) : Prop :=
  ∃ before event after resolved path code, words = before ++ event :: after ∧
    (∀ w ∈ before, Word.classify c context w = .ok .literal ∨
      ∃ via, Word.classify c context w = .ok (.port via)) ∧
    Word.classify c context event = .ok (.event resolved) ∧ path.Spelled resolved.qualified ∧
    Copied c (before.filter (Word.isLiteral c context)) code ∧
    body = code ++ [.send ((before.filterMap (Word.port? c context)).getLast?.or port) path
      (after.map Datum.ofWord)]

theorem copied_nil {code : List Statement} : Copied c [] code ↔ code = [] := by
  constructor
  · intro h
    obtain ⟨parts, hparts, rfl⟩ := h
    cases hparts
    rfl
  · intro h
    subst h
    exact ⟨[], .nil, rfl⟩

theorem copied_cons {word : String} {words : List String} {code : List Statement} :
    Copied c (word :: words) code ↔
      ∃ trees rest, Copies c word trees ∧ Copied c words rest ∧
        code = trees.map Statement.embedded ++ rest := by
  constructor
  · intro h
    obtain ⟨parts, hparts, rfl⟩ := h
    obtain ⟨trees, parts, hword, hwords, rfl⟩ := List.forall₂_cons_left_iff.1 hparts
    exact ⟨trees, _, hword, ⟨parts, hwords, rfl⟩, by simp⟩
  · intro h
    obtain ⟨trees, _, hword, ⟨parts, hwords, rfl⟩, rfl⟩ := h
    exact ⟨trees :: parts, .cons hword hwords, by simp⟩

theorem not_sends_nil {port : Option String} {body : List Statement} :
    ¬ Sends c context port [] body := by
  intro h
  obtain ⟨before, event, after, resolved, path, code, hwords, -⟩ := h
  cases before <;> cases hwords

theorem getLast?_ports_cons {port : Option String} {word via : String} {before : List String}
    (h : Word.classify c context word = .ok (.port via)) :
    ((word :: before).filterMap (Word.port? c context)).getLast?.or port =
      (before.filterMap (Word.port? c context)).getLast?.or (some via) := by
  rw [List.filterMap_cons_some (Word.port?_eq_some.2 h), List.getLast?_cons]
  cases (before.filterMap (Word.port? c context)).getLast? <;> rfl

theorem sends_cons {port : Option String} {word : String} {words : List String}
    {body : List Statement} :
    Sends c context port (word :: words) body ↔
      (∃ resolved, Word.classify c context word = .ok (.event resolved) ∧
        ∃ path : EventPath, path.Spelled resolved.qualified ∧
          body = [.send port path (words.map Datum.ofWord)]) ∨
      (∃ via, Word.classify c context word = .ok (.port via) ∧
        Sends c context (some via) words body) ∨
      (Word.classify c context word = .ok .literal ∧
        ∃ trees rest, Copies c word trees ∧ Sends c context port words rest ∧
          body = trees.map Statement.embedded ++ rest) := by
  constructor
  · intro h
    obtain ⟨before, event, after, resolved, path, code, hwords, hbefore, hevent, hpath, hcode,
      rfl⟩ := h
    cases before with
    | nil =>
      cases hwords
      obtain rfl := copied_nil.1 hcode
      exact .inl ⟨resolved, hevent, path, hpath, rfl⟩
    | cons w before =>
      cases hwords
      obtain ⟨hword, hbefore⟩ := List.forall_mem_cons.1 hbefore
      rcases hword with hliteral | ⟨via, hport⟩
      · rw [List.filter_cons_of_pos (Word.isLiteral_iff.2 hliteral), copied_cons] at hcode
        obtain ⟨trees, code, htrees, hcode, rfl⟩ := hcode
        refine .inr (.inr ⟨hliteral, trees, _, htrees, ⟨before, event, after, resolved, path, code,
          rfl, hbefore, hevent, hpath, hcode, rfl⟩, ?_⟩)
        rw [List.filterMap_cons_none (Word.port?_of_literal hliteral), List.append_assoc]
      · rw [List.filter_cons_of_neg (by simp [Word.isLiteral_of_port hport])] at hcode
        rw [getLast?_ports_cons hport]
        exact .inr (.inl ⟨via, hport, before, event, after, resolved, path, code, rfl, hbefore,
          hevent, hpath, hcode, rfl⟩)
  · intro h
    rcases h with ⟨resolved, hevent, path, hpath, rfl⟩ | ⟨via, hport, hsends⟩ |
      ⟨hliteral, trees, rest, htrees, hsends, rfl⟩
    · exact ⟨[], word, words, resolved, path, [], rfl, by simp, hevent, hpath, copied_nil.2 rfl,
        rfl⟩
    · obtain ⟨before, event, after, resolved, path, code, rfl, hbefore, hevent, hpath, hcode,
        rfl⟩ := hsends
      refine ⟨word :: before, event, after, resolved, path, code, rfl,
        List.forall_mem_cons.2 ⟨.inr ⟨via, hport⟩, hbefore⟩, hevent, hpath, ?_, ?_⟩
      · rwa [List.filter_cons_of_neg (by simp [Word.isLiteral_of_port hport])]
      · rw [getLast?_ports_cons hport]
    · obtain ⟨before, event, after, resolved, path, code, rfl, hbefore, hevent, hpath, hcode,
        rfl⟩ := hsends
      refine ⟨word :: before, event, after, resolved, path, trees.map Statement.embedded ++ code,
        rfl, List.forall_mem_cons.2 ⟨.inl hliteral, hbefore⟩, hevent, hpath, ?_, ?_⟩
      · rw [List.filter_cons_of_pos (Word.isLiteral_iff.2 hliteral)]
        exact copied_cons.2 ⟨trees, code, htrees, hcode, rfl⟩
      · rw [List.filterMap_cons_none (Word.port?_of_literal hliteral), List.append_assoc]

theorem embedded_eq_ok {word : String} {trees : List Tree} (g : Generator) :
    (Embedded.statements name word c.options.limitActions g).result = .ok trees ↔
      Copies c word trees := by
  unfold Embedded.statements Copies
  cases c.options.limitActions with
  | true => simp [Work.fail]
  | false =>
    simp only [Bool.false_eq_true, if_false]
    generalize Target.Fragment.block? ("\x7b " ++ Embedded.blockText word ++ " \x7d") = block
    cases block with
    | none => simp [Work.fail]
    | some block =>
      simp only
      split
      · rw [Work.bind_result_eq_ok]
        simp [Work.warn, Work.enter, eq_comm]
      · simp [eq_comm]

theorem statements_nil_eq_ok {port : Option String} {chosen : Bool} {g : Generator}
    {b : List Statement} :
    (statements c name context port chosen [] g).result = .ok b ↔
      (chosen = true → port = none) ∧ b = [] := by
  have hpure : (Except.ok [] : Except Error (List Statement)) = .ok b ↔ b = [] := by
    simp [eq_comm]
  cases port with
  | none =>
    have hnil : (statements c name context none chosen [] g).result = .ok [] := by
      cases chosen <;> rfl
    simp [hnil, hpure]
  | some port =>
    cases chosen with
    | false =>
      have hnil : (statements c name context (some port) false [] g).result = .ok [] := rfl
      simp [hnil, hpure]
    | true =>
      have hnil : (statements c name context (some port) true [] g).result =
          .error (.unresolved context .eventOnPort port) := rfl
      simp [hnil]

/-- The statements for some words, where `chosen` tells whether a word before them named `port`. -/
theorem statements_eq_ok (port : Option String) (chosen : Bool) (words : List String)
    (g : Generator) (b : List Statement) :
    (statements c name context port chosen words g).result = .ok b ↔
      ((chosen = true → port = none) ∧ (∀ w ∈ words, Word.classify c context w = .ok .literal) ∧
        Copied c words b) ∨ Sends c context port words b := by
  induction words generalizing port chosen g b with
  | nil =>
    simp [statements_nil_eq_ok, not_sends_nil, copied_nil]
  | cons word words ih =>
    rw [statements_cons, Work.bind_result_eq_ok, sends_cons, List.forall_mem_cons]
    simp only [Work.ofExcept]
    cases Word.classify c context word with
    | error e => simp
    | ok kind =>
      simp only [Except.ok.injEq, exists_eq_left']
      cases kind with
      | event resolved =>
        have hsend : ∀ g : Generator, ((do
            let path ← Work.ofExcept (EventPath.read context resolved.qualified)
            return [.send port path (words.map Datum.ofWord)] :
              Generate (List Statement)) g).result = .ok b ↔
              ∃ path : EventPath, path.Spelled resolved.qualified ∧
                b = [.send port path (words.map Datum.ofWord)] := by
          intro g
          rw [Work.bind_result_eq_ok]
          simp only [Work.ofExcept, EventPath.read_eq_ok, Work.pure_apply, Except.ok.injEq,
            eq_comm (b := b)]
        simp only [Word.event.injEq, exists_eq_left', reduceCtorEq, false_and, and_false,
          exists_false, or_false, false_or]
        rw [onWord]
        split
        · rw [Work.result_warn_bind]
          exact hsend g
        · exact hsend g
      | port via =>
        rw [onWord, ih]
        simp
      | literal =>
        simp only [onWord, Work.bind_result_eq_ok, embedded_eq_ok, ih, copied_cons, true_and,
          Work.pure_apply, Except.ok.injEq, reduceCtorEq, false_and, exists_false, false_or]
        constructor
        · intro h
          obtain ⟨trees, htrees, rest, ⟨hport, hwords, hrest⟩ | hrest, rfl⟩ := h
          · exact .inl ⟨hport, hwords, trees, rest, htrees, hrest, rfl⟩
          · exact .inr ⟨trees, rest, htrees, hrest, rfl⟩
        · intro h
          rcases h with ⟨hport, hwords, trees, rest, htrees, hrest, rfl⟩ |
            ⟨trees, rest, htrees, hrest, rfl⟩
          · exact ⟨trees, htrees, rest, .inl ⟨hport, hwords, hrest⟩, rfl⟩
          · exact ⟨trees, htrees, rest, .inr hrest, rfl⟩

theorem body_eq_ok {pieces : List String} {g : Generator} {b : List Statement} :
    (body c name context pieces g).result = .ok b ↔
      ∃ words, Word.split c context pieces = .ok words ∧
        (((∀ w ∈ words, Word.classify c context w = .ok .literal) ∧ Copied c words b) ∨
          Sends c context ((c.enabledPort? name).map Port.name) words b) := by
  rw [body, Work.bind_result_eq_ok]
  simp [Work.ofExcept, statements_eq_ok]

end Generator

/-- A word that is sent along with an event stands in the text as the expression that it is, or else
as a string. -/
inductive Datum.Spelled : String → List Token → Prop where
  | expr {word : String} {tree : Tree} (h : Target.Fragment.expr? word = some tree) :
      Datum.Spelled word tree.tokens
  | text {word : String} (h : Target.Fragment.expr? word = none) :
      Datum.Spelled word [.literal (Text.quoted word)]

def eventData (value : List Token) : List Token :=
  [.ident "Some", .group .paren [.ident "EventData", .punct ':' true, .punct ':' false,
    .ident "from", .group .paren value]]

/-- The last argument of a statement that sends an event, for the words after the event. -/
inductive DataSpelled : List String → List Token → Prop where
  | none : DataSpelled [] [.ident "None"]
  | one {word : String} {ts : List Token} (h : Datum.Spelled word ts) :
      DataSpelled [word] (eventData ts)
  | tuple {words : List String} {tss : List (List Token)} (hwords : 2 ≤ words.length)
      (h : List.Forall₂ Datum.Spelled words tss) :
      DataSpelled words (eventData [.group .paren ([.punct ',' false].intercalate tss)])

def sendTokens (port : Option String) (path : EventPath) (data : List Token) : List Token :=
  let event : List Token := [.ident path.group.text, .punct ':' true, .punct ':' false,
    .ident path.event.text, .punct ',' false]
  match port with
  | none =>
    [.ident "param", .punct '.' false, .ident "send_event", .group .paren (event ++ data),
      .punct ';' false]
  | some port =>
    [.ident "param", .punct '.' false, .ident "send_event_as_msg",
      .group .paren (.literal (Text.quoted port) :: .punct ',' false :: event ++ data),
      .punct ';' false]

theorem Target.Token.commaSeparated_eq (tss : List (List Token)) :
    Token.commaSeparated tss = [.punct ',' false].intercalate tss := by
  have hcomma : Token.op "," = [.punct ',' false] := rfl
  induction tss with
  | nil => rfl
  | cons ts tss ih =>
    cases tss with
    | nil => simp [Token.commaSeparated]
    | cons ts' tss =>
      rw [List.intercalate_cons_cons, ← ih, ← hcomma]
      rfl

theorem Datum.spelled_iff {word : String} {ts : List Token} :
    Datum.Spelled word ts ↔ ts = (Datum.ofWord word).tokens := by
  unfold Datum.ofWord
  constructor
  · intro h
    cases h with
    | expr h =>
      rw [h]
      rfl
    | text h =>
      rw [h]
      rfl
  · rintro rfl
    cases h : Target.Fragment.expr? word with
    | none => exact .text h
    | some tree => exact .expr h

theorem Datum.forall₂_spelled_iff {words : List String} {tss : List (List Token)} :
    List.Forall₂ Datum.Spelled words tss ↔ tss = (words.map Datum.ofWord).map Datum.tokens := by
  induction words generalizing tss with
  | nil => simp
  | cons word words ih => simp [List.forall₂_cons_left_iff, spelled_iff, ih]

theorem Datum.optionTokens_some (value : List Token) :
    Datum.optionTokens.some value = eventData value := by
  have hsome : code "Some" = [.ident "Some"] := code_ofList _
  have hfrom : code "EventData :: from" =
      [.ident "EventData", .punct ':' true, .punct ':' false, .ident "from"] := code_ofList _
  rw [Datum.optionTokens.some, hsome, hfrom]
  rfl

theorem dataSpelled_iff {words : List String} {ts : List Token} :
    DataSpelled words ts ↔ ts = Datum.optionTokens (words.map Datum.ofWord) := by
  match words with
  | [] =>
    have hnone : code "None" = [.ident "None"] := code_ofList _
    rw [List.map_nil, Datum.optionTokens, hnone]
    constructor
    · intro h
      cases h with
      | none => rfl
      | tuple hwords => cases hwords
    · rintro rfl
      exact .none
  | [word] =>
    rw [List.map_singleton, Datum.optionTokens, Datum.optionTokens_some]
    constructor
    · intro h
      cases h with
      | one h => rw [Datum.spelled_iff.1 h]
      | tuple hwords => simp at hwords
    · rintro rfl
      exact .one (Datum.spelled_iff.2 rfl)
  | first :: second :: rest =>
    have htuple : Datum.optionTokens ((first :: second :: rest).map Datum.ofWord) =
        eventData [.group .paren ([.punct ',' false].intercalate
          (((first :: second :: rest).map Datum.ofWord).map Datum.tokens))] := by
      rw [← Token.commaSeparated_eq, ← Datum.optionTokens_some]
      rfl
    rw [htuple]
    constructor
    · intro h
      cases h with
      | tuple _ h => rw [Datum.forall₂_spelled_iff.1 h]
    · rintro rfl
      exact .tuple (by simp) (Datum.forall₂_spelled_iff.2 rfl)

theorem Statement.tokens_send (port : Option String) (path : EventPath) (data : List Datum) :
    (Statement.send port path data).tokens =
      sendTokens port path (Datum.optionTokens data) := by
  have hend : Token.op ";" = [.punct ';' false] := rfl
  have hpath : Token.op "::" = [.punct ':' true, .punct ':' false] := rfl
  have hcomma : Token.op "," = [.punct ',' false] := rfl
  cases port with
  | none =>
    have hsend : code "param . send_event" =
        [.ident "param", .punct '.' false, .ident "send_event"] := code_ofList _
    rw [Statement.tokens, hsend, hend]
    simp [sendTokens, Token.parens, Token.commaSeparated, EventPath.tokens, Ident.tokens,
      Token.word, hpath, hcomma]
  | some port =>
    have hsend : code "param . send_event_as_msg" =
        [.ident "param", .punct '.' false, .ident "send_event_as_msg"] := code_ofList _
    rw [Statement.tokens, hsend, hend]
    simp [sendTokens, Token.parens, Token.commaSeparated, EventPath.tokens, Ident.tokens,
      Token.word, Target.stringLiteral, hpath, hcomma]

namespace Generator

variable {c : Chart} {name context : String}

def CopiedTokens (c : Chart) (words : List String) (ts : List Token) : Prop :=
  ∃ parts, List.Forall₂ (Copies c) words parts ∧ ts = parts.flatten.flatMap Tree.tokens

/-- The text for words whose first event is sent. `port` is where it goes if no word before it names
a port. -/
def SendsTokens (c : Chart) (context : String) (port : Option String) (words : List String)
    (ts : List Token) : Prop :=
  ∃ before event after resolved path code data, words = before ++ event :: after ∧
    (∀ w ∈ before, Word.classify c context w = .ok .literal ∨
      ∃ via, Word.classify c context w = .ok (.port via)) ∧
    Word.classify c context event = .ok (.event resolved) ∧ path.Spelled resolved.qualified ∧
    CopiedTokens c (before.filter (Word.isLiteral c context)) code ∧ DataSpelled after data ∧
    ts = code ++
      sendTokens ((before.filterMap (Word.port? c context)).getLast?.or port) path data

theorem flatMap_embedded (trees : List Tree) :
    (trees.map Statement.embedded).flatMap Statement.tokens = trees.flatMap Tree.tokens := by
  rw [List.flatMap_map]
  rfl

theorem copiedTokens_iff {words : List String} {ts : List Token} :
    CopiedTokens c words ts ↔ ∃ code, Copied c words code ∧ code.flatMap Statement.tokens = ts := by
  constructor
  · intro h
    obtain ⟨parts, hparts, rfl⟩ := h
    exact ⟨_, ⟨parts, hparts, rfl⟩, flatMap_embedded _⟩
  · intro h
    obtain ⟨_, ⟨parts, hparts, rfl⟩, rfl⟩ := h
    exact ⟨parts, hparts, flatMap_embedded _⟩

theorem sendsTokens_iff {port : Option String} {words : List String} {ts : List Token} :
    SendsTokens c context port words ts ↔
      ∃ b, Sends c context port words b ∧ b.flatMap Statement.tokens = ts := by
  constructor
  · intro h
    obtain ⟨before, event, after, resolved, path, _, _, hwords, hbefore, hevent, hpath, hcode,
      hdata, rfl⟩ := h
    obtain ⟨code, hcopied, rfl⟩ := copiedTokens_iff.1 hcode
    obtain rfl := dataSpelled_iff.1 hdata
    refine ⟨_, ⟨before, event, after, resolved, path, code, hwords, hbefore, hevent, hpath,
      hcopied, rfl⟩, ?_⟩
    rw [List.flatMap_append, List.flatMap_singleton, Statement.tokens_send]
  · intro h
    obtain ⟨_, ⟨before, event, after, resolved, path, code, hwords, hbefore, hevent, hpath, hcode,
      rfl⟩, rfl⟩ := h
    refine ⟨before, event, after, resolved, path, _, _, hwords, hbefore, hevent, hpath,
      copiedTokens_iff.2 ⟨code, hcode, rfl⟩, dataSpelled_iff.2 rfl, ?_⟩
    rw [List.flatMap_append, List.flatMap_singleton, Statement.tokens_send]

/-- The body of a callback is what its words mean. -/
theorem body_meaning (c : Chart) (name context : String) (pieces : List String) (g : Generator)
    (ts : List Token) :
    (∃ b, (body c name context pieces g).result = .ok b ∧ b.flatMap Statement.tokens = ts) ↔
      ∃ words, Word.split c context pieces = .ok words ∧
        (((∀ w ∈ words, Word.classify c context w = .ok .literal) ∧ CopiedTokens c words ts) ∨
          SendsTokens c context ((c.enabledPort? name).map Port.name) words ts) := by
  simp only [body_eq_ok, copiedTokens_iff, sendsTokens_iff]
  constructor
  · intro h
    obtain ⟨b, ⟨words, hsplit, ⟨hliteral, hcode⟩ | hsends⟩, rfl⟩ := h
    · exact ⟨words, hsplit, .inl ⟨hliteral, b, hcode, rfl⟩⟩
    · exact ⟨words, hsplit, .inr ⟨b, hsends, rfl⟩⟩
  · intro h
    obtain ⟨words, hsplit, ⟨hliteral, b, hcode, rfl⟩ | ⟨b, hsends, rfl⟩⟩ := h
    · exact ⟨b, ⟨words, hsplit, .inl ⟨hliteral, hcode⟩⟩, rfl⟩
    · exact ⟨b, ⟨words, hsplit, .inr hsends⟩, rfl⟩

/-- A skiff counts and then hails the quay. -/
def skiff : Chart where
  name := "Skiff"
  groups := [⟨"EVENTS_1", "Bay", some 1, ["go"], []⟩]
  ports := [⟨"PORT_1", "h", 1, "quay", .push, .anyEvent, none, false⟩]

theorem skiff_body : ∃ b,
    (body skiff "hail" "STATE_1" ["count += 1", "quay, go, 7, all aboard"] {}).result = .ok b ∧
      b.flatMap Statement.tokens =
        [.ident "count", .punct '+' true, .punct '=' false, .literal "1", .punct ';' false,
          .ident "param", .punct '.' false, .ident "send_event_as_msg",
          .group .paren [.literal "\"quay\"", .punct ',' false, .ident "Bay", .punct ':' true,
            .punct ':' false, .ident "go", .punct ',' false, .ident "Some",
            .group .paren [.ident "EventData", .punct ':' true, .punct ':' false, .ident "from",
              .group .paren [.group .paren [.literal "7", .punct ',' false,
                .literal "\"all aboard\""]]]],
          .punct ';' false] := by
  have hcode : (Target.Fragment.block? ("\x7b " ++ Embedded.blockText "count += 1" ++
      " \x7d")).map (fun block => (Target.Fragment.stmts block).flatMap Tree.tokens) =
        some [.ident "count", .punct '+' true, .punct '=' false, .literal "1",
          .punct ';' false] := by
    decide +kernel
  have hseven : (Target.Fragment.expr? "7").map Tree.tokens = some [.literal "7"] := by
    decide +kernel
  have hport : (["count += 1", "quay"].filterMap (Word.port? skiff "STATE_1")).getLast? =
      some "quay" := by
    decide +kernel
  obtain ⟨block, hblock, htrees⟩ := Option.map_eq_some_iff.1 hcode
  obtain ⟨tree, htree, htokens⟩ := Option.map_eq_some_iff.1 hseven
  have hdata : List.Forall₂ Datum.Spelled ["7", "all aboard"]
      [[.literal "7"], [.literal "\"all aboard\""]] :=
    .cons (htokens ▸ .expr htree) (.cons (.text (by decide +kernel)) .nil)
  refine (body_meaning skiff "hail" "STATE_1" _ {} _).2
    ⟨["count += 1", "quay", "go", "7", "all aboard"], ok_of_toOption (by decide +kernel), .inr
      ⟨["count += 1", "quay"], "go", ["7", "all aboard"], ⟨"Bay.go", true⟩,
        ⟨⟨false, "Bay"⟩, ⟨false, "go"⟩⟩, _, _, rfl, ?_, ok_of_toOption (by decide +kernel), ?_,
        ⟨_, .cons ⟨rfl, block, hblock, rfl⟩ .nil, rfl⟩, .tuple (by decide) hdata, ?_⟩⟩
  · refine List.forall_mem_cons.2 ⟨.inl (ok_of_toOption (by decide +kernel)), ?_⟩
    exact List.forall_mem_singleton.2 (.inr ⟨"quay", ok_of_toOption (by decide +kernel)⟩)
  · exact ⟨"Bay", "go", by decide +kernel, rfl, by decide +kernel, by decide +kernel⟩
  · simp only [hport, List.flatten_cons, List.flatten_nil, List.append_nil, htrees]
    rfl

end Generator

end Statechart
