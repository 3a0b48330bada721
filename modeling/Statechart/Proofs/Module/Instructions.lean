import Statechart.Proofs.Module.Outline
import Statechart.Proofs.Target.Literals
import Statechart.Proofs.Target.Spelling

/-!
The constructor, read.

The body of a constructor is a list of calls on the chart that it builds. They are read off its
tokens, so that what a constructor does is told by its text, and not by what the text was made from.
-/
set_option autoImplicit false

namespace Statechart.Module

open Target

/-- A call on the chart that is built. Variables are as they are spelled, and the hooks are what
stands where they are passed. -/
inductive Instruction where
  | addState (binding parent name kind : String) (hooks : List Token)
  | startState (binding owner : String)
  | endState (binding : String)
  | addTransition (source target : String) (event : Option (String × String)) (hooks : List Token)
  deriving Repr

namespace Instruction

def ofLet? (binding method : String) (arguments : List Token) : Option Instruction :=
  match method, arguments with
  | "add_state", .ident parent :: .punct ',' false :: .literal name :: .punct ',' false ::
      .ident "StateKind" :: .punct ':' true :: .punct ':' false :: .ident kind ::
      .punct ',' false :: hooks =>
    (Literal.string? name).map fun name => .addState binding parent name kind hooks
  | "start_state", [.ident owner] => some (.startState binding owner)
  | "end_state", [] => some (.endState binding)
  | _, _ => none

def ofTransition? : List Token → Option Instruction
  | .ident source :: .punct ',' false :: .ident target :: .punct ',' false :: .ident "None" ::
      .punct ',' false :: hooks => some (.addTransition source target none hooks)
  | .ident source :: .punct ',' false :: .ident target :: .punct ',' false :: .ident "Some" ::
      .group .paren [.ident group, .punct ':' true, .punct ':' false, .ident event] ::
      .punct ',' false :: hooks =>
    some (.addTransition source target (some (group, event)) hooks)
  | _ => none

def ofBlock? : List Token → Option (List Instruction)
  | [.ident "sc"] => some []
  | .ident "let" :: .ident binding :: .punct '=' false :: .ident "sc" :: .punct '.' false ::
      .ident method :: .group .paren arguments :: .punct ';' false :: rest => do
    return (← ofLet? binding method arguments) :: (← ofBlock? rest)
  | .ident "sc" :: .punct '.' false :: .ident "add_transition" :: .group .paren arguments ::
      .punct ';' false :: rest => do
    return (← ofTransition? arguments) :: (← ofBlock? rest)
  | _ => none

def afterRoot? (chart : String) : List Token → Option (List Token)
  | .ident "let" :: .ident "mut" :: .ident "sc" :: .punct '=' false :: .ident "Statechart" ::
      .punct ':' true :: .punct ':' false :: .ident "new" ::
      .group .paren [.ident named, .punct ':' true, .punct ':' false, .ident "NAME"] ::
      .punct ';' false :: .ident "let" :: .ident "top" :: .punct '=' false :: .ident "sc" ::
      .punct '.' false :: .ident "root" :: .group .paren [] :: .punct ';' false :: rest =>
    if named = chart then some rest else none
  | _ => none

end Instruction

/-- The calls of the constructor of a chart, after those that make the chart and its root. -/
def instructions? (chart : String) : List Token → Option (List Instruction)
  | [.ident "pub", .ident "fn", .ident "build_statechart", .group .paren [], .punct '-' true,
      .punct '>' false, .ident "Statechart", .punct '<' false, .ident named, .punct '>' false,
      .group .brace block] =>
    if named = chart then (Instruction.afterRoot? chart block).bind Instruction.ofBlock? else none
  | _ => none

inductive Hook.Reads : Hook → List Token → Prop where
  | named (name : String) : Hook.Reads (.named name) [.ident name]
  | builtin (tree : Tree) : Hook.Reads (.builtin tree) tree.tokens

inductive Wiring.Reads : Wiring → Instruction → Prop where
  | addState {binding parent : Ident} {name : String} {kind : StateKind} {hooks : StateHooks}
      {entry during exit : List Token} (hentry : Hook.Reads hooks.entry entry)
      (hduring : Hook.Reads hooks.during during) (hexit : Hook.Reads hooks.exit exit) :
      Wiring.Reads (.addState binding parent name kind hooks)
        (.addState binding.text parent.text name kind.name
          (entry ++ .punct ',' false :: during ++ .punct ',' false :: exit))
  | startState {binding owner : Ident} :
      Wiring.Reads (.startState binding owner) (.startState binding.text owner.text)
  | endState {binding : Ident} : Wiring.Reads (.endState binding) (.endState binding.text)
  | addTransition {source target : Ident} {event : Option EventPath} {hooks : TransitionHooks}
      {guard action : List Token} (hguard : Hook.Reads hooks.guard guard)
      (haction : Hook.Reads hooks.action action) :
      Wiring.Reads (.addTransition source target event hooks)
        (.addTransition source.text target.text
          (event.map fun path => (path.group.text, path.event.text))
          (guard ++ .punct ',' false :: action))

theorem reads_of_tokens {hook : Hook} {ts : List Token} (h : hook.tokens = .ok ts) :
    Hook.Reads hook ts := by
  cases hook with
  | named name =>
    simp only [Hook.tokens, printed] at h
    split at h
    · obtain rfl := Except.ok.inj h
      exact .named name
    · cases h
  | builtin tree =>
    obtain rfl := Except.ok.inj h
    exact .builtin tree

theorem letCall_eq (binding : Ident) (method : String) (arguments : List (List Token)) :
    letCall binding method arguments =
      [.ident "let", .ident binding.text, .punct '=' false, .ident "sc", .punct '.' false,
        .ident method, .group .paren (Token.commaSeparated arguments), .punct ';' false] := by
  have hlet : code "let" = [.ident "let"] := code_ofList _
  have hchart : code "= sc ." = [.punct '=' false, .ident "sc", .punct '.' false] := code_ofList _
  rw [letCall, hlet, hchart]
  rfl

theorem ofBlock?_letCall {binding : Ident} {method : String} {arguments : List (List Token)}
    {i : Instruction} (rest : List Token)
    (h : Instruction.ofLet? binding.text method (Token.commaSeparated arguments) = some i) :
    Instruction.ofBlock? (letCall binding method arguments ++ rest) =
      (Instruction.ofBlock? rest).map (i :: ·) := by
  rw [letCall_eq]
  simp only [List.cons_append, List.nil_append, Instruction.ofBlock?, h]
  cases Instruction.ofBlock? rest <;> rfl

theorem ofBlock?_addTransition {arguments : List (List Token)} {i : Instruction} (rest : List Token)
    (h : Instruction.ofTransition? (Token.commaSeparated arguments) = some i) :
    Instruction.ofBlock? (code "sc . add_transition" ++
        Token.parens (Token.commaSeparated arguments) ++ Token.op ";" ++ rest) =
      (Instruction.ofBlock? rest).map (i :: ·) := by
  have hcall : code "sc . add_transition" =
      [.ident "sc", .punct '.' false, .ident "add_transition"] := code_ofList _
  have hend : Token.op ";" = [.punct ';' false] := rfl
  rw [hcall, hend]
  simp only [Token.parens, List.cons_append, List.nil_append, Instruction.ofBlock?, h]
  cases Instruction.ofBlock? rest <;> rfl

/-- The tokens of a wiring are read as one call, whatever comes next. -/
theorem exists_reads {w : Wiring} {ts : List Token} (h : w.tokens = .ok ts) :
    ∃ i, w.Reads i ∧ ∀ rest,
      Instruction.ofBlock? (ts ++ rest) = (Instruction.ofBlock? rest).map (i :: ·) := by
  have hcomma : Token.op "," = [.punct ',' false] := rfl
  cases w with
  | addState binding parent name kind hooks =>
    have hkind : code "StateKind ::" =
        [.ident "StateKind", .punct ':' true, .punct ':' false] := code_ofList _
    unfold Wiring.tokens at h
    obtain ⟨entry, hentry, h⟩ := bind_eq_ok.1 h
    obtain ⟨during, hduring, h⟩ := bind_eq_ok.1 h
    obtain ⟨exit, hexit, h⟩ := bind_eq_ok.1 h
    obtain rfl := Except.ok.inj h
    refine ⟨_, .addState (reads_of_tokens hentry) (reads_of_tokens hduring)
      (reads_of_tokens hexit), fun rest => ofBlock?_letCall rest ?_⟩
    simp [hkind, hcomma, Token.commaSeparated, Ident.tokens, Token.word, stringLiteral,
      Instruction.ofLet?, Literal.string?_quoted]
  | startState binding owner =>
    obtain rfl := Except.ok.inj h
    exact ⟨_, .startState, fun rest => ofBlock?_letCall rest rfl⟩
  | endState binding =>
    obtain rfl := Except.ok.inj h
    exact ⟨_, .endState, fun rest => ofBlock?_letCall rest rfl⟩
  | addTransition source target event hooks =>
    have hpath : Token.op "::" = [.punct ':' true, .punct ':' false] := rfl
    have hsome : code "Some" = [.ident "Some"] := code_ofList _
    have hnone : code "None" = [.ident "None"] := code_ofList _
    unfold Wiring.tokens at h
    obtain ⟨guard, hguard, h⟩ := bind_eq_ok.1 h
    obtain ⟨action, haction, h⟩ := bind_eq_ok.1 h
    obtain rfl := Except.ok.inj h
    refine ⟨_, .addTransition (reads_of_tokens hguard) (reads_of_tokens haction),
      fun rest => ofBlock?_addTransition rest ?_⟩
    cases event with
    | none =>
      simp [hnone, hcomma, Token.commaSeparated, Ident.tokens, Token.word,
        Instruction.ofTransition?]
    | some path =>
      simp [hsome, hcomma, hpath, Token.parens, Token.commaSeparated, Ident.tokens, Token.word,
        EventPath.tokens, Instruction.ofTransition?]

theorem exists_instructions_of_statements {ws : List Wiring} {statements : List (List Token)}
    (h : List.Forall₂ (fun w ts => w.tokens = .ok ts) ws statements) :
    ∃ is, List.Forall₂ Wiring.Reads ws is ∧
      Instruction.ofBlock? (statements.flatten ++ [.ident "sc"]) = some is := by
  induction h with
  | nil => exact ⟨[], .nil, rfl⟩
  | cons hw _ ih =>
    obtain ⟨i, hi, hread⟩ := exists_reads hw
    obtain ⟨is, his, hrest⟩ := ih
    refine ⟨i :: is, .cons hi his, ?_⟩
    rw [List.flatten_cons, List.append_assoc, hread, hrest]
    rfl

theorem instructions?_constructorTokens (chart : Ident) (statements : List (List Token)) :
    instructions? chart.text (constructorTokens chart statements) =
      Instruction.ofBlock? (statements.flatten ++ [.ident "sc"]) := by
  have hhead : code "pub fn build_statechart () -> Statechart <" =
      [.ident "pub", .ident "fn", .ident "build_statechart", .group .paren [], .punct '-' true,
        .punct '>' false, .ident "Statechart", .punct '<' false] := code_ofList _
  have hchart : code "let mut sc = Statechart :: new" =
      [.ident "let", .ident "mut", .ident "sc", .punct '=' false, .ident "Statechart",
        .punct ':' true, .punct ':' false, .ident "new"] := code_ofList _
  have hname : code ":: NAME" = [.punct ':' true, .punct ':' false, .ident "NAME"] :=
    code_ofList _
  have hroot : code "; let top = sc . root () ;" =
      [.punct ';' false, .ident "let", .ident "top", .punct '=' false, .ident "sc",
        .punct '.' false, .ident "root", .group .paren [], .punct ';' false] := code_ofList _
  have hlast : code "sc" = [.ident "sc"] := code_ofList _
  have hclose : Token.op ">" = [.punct '>' false] := rfl
  rw [constructorTokens, hhead, hchart, hname, hroot, hlast, hclose]
  simp [Token.braces, Token.parens, Ident.tokens, Token.word, instructions?,
    Instruction.afterRoot?]

/-- The calls of a constructor are those of its wirings, one for one. -/
theorem exists_instructions {c : Chart} {callbacks : Callbacks} {chart : Ident}
    {tokens : List Token} (h : buildStatechart c callbacks chart = .ok tokens) :
    ∃ ws is, wirings c callbacks = .ok ws ∧ instructions? chart.text tokens = some is ∧
      List.Forall₂ Wiring.Reads ws is := by
  obtain ⟨ws, statements, hws, hstatements, rfl⟩ := buildStatechart_eq_ok.1 h
  obtain ⟨is, his, hread⟩ := exists_instructions_of_statements (mapAll_eq_ok.1 hstatements)
  exact ⟨ws, is, hws, (instructions?_constructorTokens chart statements).trans hread, his⟩

def Tells (c : Chart) (callbacks : Callbacks) (p : Part) (i : Instruction) : Prop :=
  ∃ w, Serves c callbacks p w ∧ w.Reads i

theorem Tells.start_eq {c : Chart} {callbacks : Callbacks} {parent : Option String}
    {i : Instruction} (h : Tells c callbacks (.start parent) i) :
    i = .startState (startIdent parent).text (homeIdent parent).text := by
  obtain ⟨w, hw, hi⟩ := h
  cases hw
  cases hi
  rfl

theorem Tells.stop_eq {c : Chart} {callbacks : Callbacks} {i : Instruction}
    (h : Tells c callbacks .stop i) : i = .endState "end" := by
  obtain ⟨w, hw, hi⟩ := h
  cases hw
  cases hi
  rfl

theorem forall₂_tells {c : Chart} {callbacks : Callbacks} {ps : List Part} {ws : List Wiring}
    {is : List Instruction} (hserves : List.Forall₂ (Serves c callbacks) ps ws)
    (hreads : List.Forall₂ Wiring.Reads ws is) : List.Forall₂ (Tells c callbacks) ps is :=
  forall₂_comp hserves hreads fun hw hi => ⟨_, hw, hi⟩

/-- The calls of a constructor follow the outline of its chart, one for one. -/
theorem exists_tells {c : Chart} {callbacks : Callbacks} {chart : Ident} {tokens : List Token}
    (h : buildStatechart c callbacks chart = .ok tokens) :
    ∃ is, instructions? chart.text tokens = some is ∧
      List.Forall₂ (Tells c callbacks) (outline c) is := by
  obtain ⟨ws, is, hws, hread, hreads⟩ := exists_instructions h
  exact ⟨is, hread, forall₂_tells (wirings_serve hws).1 hreads⟩

theorem routes_of_buildStatechart {c : Chart} {callbacks : Callbacks} {chart : Ident}
    {tokens : List Token} (h : buildStatechart c callbacks chart = .ok tokens) :
    ∀ t ∈ c.enabledTransitions, Anchored c (parentFirst c) t ∧ Routed c t := by
  obtain ⟨ws, _, hws, -, -⟩ := buildStatechart_eq_ok.1 h
  exact fun t ht => ⟨(wirings_serve hws).2 t ht, wirings_routed hws t ht⟩

end Statechart.Module
