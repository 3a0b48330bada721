import Mathlib.Data.List.Nodup
import Statechart.Proofs.Module.Printing

/-!
The names that the items of a module define.

They are read off the tokens of the module that stand outside of all groups: a keyword and the name
behind it. A structure without fields is a value as well as a type.
-/
set_option autoImplicit false

namespace Statechart

open Target

namespace Module

inductive Space where
  | type
  | value
  deriving DecidableEq, Repr

def isUnit : List Token → Bool
  | .punct c _ :: _ => c = ';'
  | _ => false

/-- Whether a keyword puts the name behind it into a namespace, for what follows the name. -/
def introduces (space : Space) (word : String) (rest : List Token) : Bool :=
  match space with
  | .type => word = "struct"
  | .value => word = "const" || word = "fn" || word = "struct" && isUnit rest

/-- The name that is defined where tokens begin. Whether it is marked as raw does not matter. -/
def definedAt (space : Space) : List Token → List String
  | .ident word :: .ident name :: rest =>
    if introduces space word rest then [(Ident.ofText name).name] else []
  | _ => []

def definitions (space : Space) : List Token → List String
  | [] => []
  | t :: ts => definedAt space (t :: ts) ++ definitions space ts

def Closed (ts : List Token) : Prop :=
  ∀ word, ts.getLast? ≠ some (.ident word)

variable {space : Space} {as bs : List Token}

theorem closed_punct (ts : List Token) (c : Char) (joint : Bool) :
    Closed (ts ++ [.punct c joint]) := by
  simp [Closed]

theorem closed_group (ts : List Token) (d : Delim) (inner : List Token) :
    Closed (ts ++ [.group d inner]) := by
  simp [Closed]

theorem definitions_append (h : Closed as) :
    definitions space (as ++ bs) = definitions space as ++ definitions space bs := by
  induction as with
  | nil => rfl
  | cons t as ih =>
    have hdefined : definedAt space (t :: (as ++ bs)) = definedAt space (t :: as) := by
      cases as with
      | nil =>
        cases t with
        | ident word => exact absurd rfl (h word)
        | punct | literal | group => rfl
      | cons u as =>
        cases as with
        | nil =>
          cases u with
          | ident name => exact absurd rfl (h name)
          | punct | literal | group => cases t <;> rfl
        | cons v as => cases t <;> cases u <;> cases v <;> rfl
    have hclosed : Closed as := by
      intro word hlast
      cases as with
      | nil => cases hlast
      | cons u as => exact h word (by simpa using hlast)
    rw [List.cons_append, definitions, definitions, hdefined, ih hclosed, List.append_assoc]

theorem Closed.append (ha : Closed as) (hb : Closed bs) : Closed (as ++ bs) := by
  intro word h
  rw [List.getLast?_append, Option.or_eq_some_iff] at h
  obtain h | ⟨-, h⟩ := h
  · exact hb word h
  · exact ha word h

theorem closed_flatten {parts : List (List Token)} (h : ∀ ts ∈ parts, Closed ts) :
    Closed parts.flatten := by
  induction parts with
  | nil => simp [Closed]
  | cons ts parts ih =>
    obtain ⟨hts, hparts⟩ := List.forall_mem_cons.1 h
    exact hts.append (ih hparts)

theorem definitions_flatten {parts : List (List Token)} (h : ∀ ts ∈ parts, Closed ts) :
    definitions space parts.flatten = parts.flatMap (definitions space) := by
  induction parts with
  | nil => rfl
  | cons ts parts ih =>
    obtain ⟨hts, hparts⟩ := List.forall_mem_cons.1 h
    rw [List.flatten_cons, definitions_append hts, ih hparts, List.flatMap_cons]

theorem GroupType.tokens_eq (g : GroupType) : g.tokens =
    [.punct '#' false, .group .bracket [.ident "derive", .group .paren [.ident "Debug",
        .punct ',' false, .ident "Clone", .punct ',' false, .ident "Copy", .punct ',' false,
        .ident "PartialEq", .punct ',' false, .ident "Eq"]], .ident "pub", .ident "struct",
      .ident g.name.text, .punct ';' false, .ident "impl", .ident g.name.text,
      .group .brace (g.constants.flatMap EventConstant.tokens)] := by
  have hstruct : code "# [derive (Debug , Clone , Copy , PartialEq , Eq)] pub struct" =
      [.punct '#' false, .group .bracket [.ident "derive", .group .paren [.ident "Debug",
        .punct ',' false, .ident "Clone", .punct ',' false, .ident "Copy", .punct ',' false,
        .ident "PartialEq", .punct ',' false, .ident "Eq"]], .ident "pub", .ident "struct"] :=
    code_ofList _
  have himpl : code "; impl" = [.punct ';' false, .ident "impl"] := code_ofList _
  rw [GroupType.tokens, hstruct, himpl]
  rfl

theorem GroupType.closed (g : GroupType) : Closed g.tokens :=
  closed_group _ _ _

theorem GroupType.definitions (g : GroupType) :
    definitions space g.tokens = [(Ident.ofText g.name.text).name] := by
  rw [tokens_eq]
  cases space with
  | type => simp [Module.definitions, definedAt, introduces]
  | value => simp [Module.definitions, definedAt, introduces, isUnit]

def inValues (space : Space) (names : List String) : List String :=
  match space with
  | .type => []
  | .value => names

theorem definitions_eventTables {c : Chart} {ts : List Token} (h : eventTables c = .ok ts) :
    Closed ts ∧ definitions space ts = inValues space ["EVENT_GROUPS", "SUPPRESSED_EVENTS"] := by
  have hgroups : code "pub const EVENT_GROUPS : & [EventGroupInfo] =" =
      [.ident "pub", .ident "const", .ident "EVENT_GROUPS", .punct ':' false, .punct '&' false,
        .group .bracket [.ident "EventGroupInfo"], .punct '=' false] := code_ofList _
  have hsuppressed : code "; pub const SUPPRESSED_EVENTS : & [EventId] =" =
      [.punct ';' false, .ident "pub", .ident "const", .ident "SUPPRESSED_EVENTS", .punct ':' false,
        .punct '&' false, .group .bracket [.ident "EventId"], .punct '=' false] :=
    code_ofList _
  have hand : Token.op "&" = [.punct '&' false] := rfl
  have hend : Token.op ";" = [.punct ';' false] := rfl
  have hnames : (Ident.ofText "EVENT_GROUPS").name = "EVENT_GROUPS" ∧
      (Ident.ofText "SUPPRESSED_EVENTS").name = "SUPPRESSED_EVENTS" := ⟨rfl, rfl⟩
  unfold eventTables at h
  obtain ⟨suppressed, -, h⟩ := bind_eq_ok.1 h
  obtain rfl := Except.ok.inj h
  refine ⟨closed_punct _ _ _, ?_⟩
  rw [hgroups, hsuppressed, hend]
  cases space with
  | type => simp [definitions, definedAt, introduces, slice, hand, Token.brackets, inValues]
  | value =>
    simp [definitions, definedAt, introduces, slice, hand, Token.brackets, inValues, hnames]

theorem code_transport : code "pub const PORT_TRANSPORT : Transport = Transport" =
    [.ident "pub", .ident "const", .ident "PORT_TRANSPORT", .punct ':' false,
      .ident "Transport", .punct '=' false, .ident "Transport"] :=
  code_ofList _

theorem code_ports : code "; pub const PORTS : & [PortConfig] =" =
    [.punct ';' false, .ident "pub", .ident "const", .ident "PORTS", .punct ':' false,
      .punct '&' false, .group .bracket [.ident "PortConfig"], .punct '=' false] :=
  code_ofList _

theorem code_impl : code "impl" = [.ident "impl"] :=
  code_ofList _

theorem definitions_portTables (c : Chart) :
    Closed (portTables c) ∧ definitions space (portTables c) =
      inValues space (if c.transport.isSome then ["PORT_TRANSPORT", "PORTS"] else []) := by
  have hand : Token.op "&" = [.punct '&' false] := rfl
  have hend : Token.op ";" = [.punct ';' false] := rfl
  have hnames : (Ident.ofText "PORT_TRANSPORT").name = "PORT_TRANSPORT" ∧
      (Ident.ofText "PORTS").name = "PORTS" := ⟨rfl, rfl⟩
  unfold portTables
  cases c.transport with
  | none =>
    refine ⟨by simp [Closed], ?_⟩
    cases space <;> rfl
  | some t =>
    refine ⟨closed_punct _ _ _, ?_⟩
    rw [code_transport, code_ports, hend]
    cases space with
    | type =>
      simp [definitions, definedAt, introduces, slice, hand, Token.brackets, Token.braces, inValues]
    | value =>
      simp [definitions, definedAt, introduces, slice, hand, Token.brackets, Token.braces, inValues,
        hnames]

theorem definitions_routine (r : Routine) (chart : Ident) :
    Closed (r.toFn chart).plainTokens ∧
      definitions space (r.toFn chart).plainTokens =
        inValues space [(Ident.ofText r.name).name] := by
  refine ⟨closed_group _ _ _, ?_⟩
  cases hrole : r.role with
  | action =>
    cases space <;> simp [definitions, definedAt, introduces, Routine.toFn,
      Grammar.MarkedFn.plainTokens, Grammar.MarkedFn.sigTokens,
      Grammar.MarkedFn.resultTokens, inValues, hrole]
  | guard =>
    cases space <;> simp [definitions, definedAt, introduces, Routine.toFn,
      Grammar.MarkedFn.plainTokens, Grammar.MarkedFn.sigTokens,
      Grammar.MarkedFn.resultTokens, inValues, hrole]

theorem definitions_buildStatechart {c : Chart} {k : Callbacks} {chart : Ident} {ts : List Token}
    (h : buildStatechart c k chart = .ok ts) :
    Closed ts ∧ definitions space ts = inValues space ["build_statechart"] := by
  have hhead : code "pub fn build_statechart () -> Statechart <" =
      [.ident "pub", .ident "fn", .ident "build_statechart", .group .paren [], .punct '-' true,
        .punct '>' false, .ident "Statechart", .punct '<' false] := code_ofList _
  have hclose : Token.op ">" = [.punct '>' false] := rfl
  have hname : (Ident.ofText "build_statechart").name = "build_statechart" := rfl
  unfold buildStatechart at h
  obtain ⟨ws, -, h⟩ := bind_eq_ok.1 h
  obtain ⟨body, -, h⟩ := bind_eq_ok.1 h
  obtain rfl := Except.ok.inj h
  refine ⟨closed_group _ _ _, ?_⟩
  rw [hhead, hclose]
  cases space with
  | type =>
    simp [definitions, definedAt, introduces, Ident.tokens, Token.word, Token.braces, inValues]
  | value =>
    simp [definitions, definedAt, introduces, Ident.tokens, Token.word, Token.braces, inValues,
      hname]

theorem definitions_routeFn (c : Chart) :
    Closed (routeFn c) ∧ definitions space (routeFn c) = inValues space ["route"] := by
  have hroute : code "fn route (event : EventId) -> Option < & 'static str >" =
      [.ident "fn", .ident "route", .group .paren [.ident "event", .punct ':' false,
        .ident "EventId"], .punct '-' true, .punct '>' false, .ident "Option", .punct '<' false,
        .punct '&' false, .punct '\'' true, .ident "static", .ident "str", .punct '>' false] :=
    code_ofList _
  have hmark : Token.op "#" = [.punct '#' false] := rfl
  have hname : (Ident.ofText "route").name = "route" := rfl
  refine ⟨closed_group _ _ _, ?_⟩
  rw [routeFn, docAttribute, hroute, hmark]
  -- what stands inside of groups defines nothing here
  generalize code "match event . 0" ++ _ = choice
  cases space with
  | type =>
    simp [definitions, definedAt, introduces, Token.braces, Token.brackets, inValues]
  | value =>
    simp [definitions, definedAt, introduces, Token.braces, Token.brackets, inValues, hname]

/-- A type with fields is no value, whatever its fields and members are. -/
theorem definitions_type {before : List Token} (hbefore : Closed before) (chart : Ident)
    (fields members : List Token) :
    definitions space (before ++ code "pub struct" ++ chart.tokens ++ Token.braces fields ++
        code "impl" ++ chart.tokens ++ Token.braces members ++ defaultImpl chart) =
      definitions space before ++
        match space with
        | .type => [(Ident.ofText chart.text).name]
        | .value => [] := by
  have hstruct : code "pub struct" = [.ident "pub", .ident "struct"] := code_ofList _
  have hdefault : code "impl Default for" = [.ident "impl", .ident "Default", .ident "for"] :=
    code_ofList _
  simp only [List.append_assoc]
  rw [definitions_append hbefore, defaultImpl, hstruct, code_impl, hdefault]
  generalize code "fn default () -> Self \x7b Self :: new () \x7d" = default
  cases space with
  | type => simp [definitions, definedAt, introduces, Ident.tokens, Token.word, Token.braces]
  | value =>
    simp [definitions, definedAt, introduces, isUnit, Ident.tokens, Token.word, Token.braces]

theorem definitions_wrapper (c : Chart) (chart : Ident) :
    definitions space (wrapper c chart) =
      match space with
      | .type => [(Ident.ofText chart.text).name]
      | .value => if hasPorts c then ["route"] else [] := by
  unfold wrapper
  split
  · obtain ⟨hclosed, hroute⟩ := @definitions_routeFn space c
    rw [portWrapper, definitions_type hclosed, hroute]
    cases space <;> rfl
  · rw [localWrapper, ← List.nil_append (code "pub struct"), definitions_type (by simp [Closed])]
    rfl

theorem name_of_ofText {origin name : String} {i : Ident} (h : readIdent origin name = .ok i) :
    (Ident.ofText i.text).name = stem name := by
  rw [Fragment.ofText_text (readIdent_eq_ok.1 h), name_of_readIdent h]

theorem name_of_isPrintable {name : String} (h : isPrintable name = true) :
    (Ident.ofText name).name = stem name := by
  unfold isPrintable at h
  cases hi : Fragment.ident? name with
  | none => simp [hi] at h
  | some i =>
    have hname : i.text = name := by simpa [hi] using h
    have hspelled := Fragment.spelled_text hi
    rw [hname] at hspelled
    have hofText := Fragment.ofText_text hi
    rw [hname] at hofText
    rw [hofText, stem, Lexer.trim_spelled hspelled, hi]
    rfl

theorem definitions_groupTypes {gs : List EventGroup} {types : List GroupType}
    (h : List.Forall₂ (fun g t => GroupType.ofGroup g = .ok t) gs types) :
    (types.flatMap fun t => definitions space t.tokens) = gs.map fun g => stem g.name := by
  induction h with
  | nil => rfl
  | cons hg _ ih =>
    obtain ⟨name, hname, hg⟩ := bind_eq_ok.1 hg
    obtain ⟨constants, -, hg⟩ := bind_eq_ok.1 hg
    obtain rfl := Except.ok.inj hg
    rw [List.flatMap_cons, List.map_cons, GroupType.definitions, ih, name_of_ofText hname,
      List.singleton_append]

theorem definitions_eventGroups {c : Chart} {ts : List Token} (h : eventGroups c = .ok ts) :
    Closed ts ∧ definitions space ts = c.groups.map fun g => stem g.name := by
  unfold eventGroups groupTypes at h
  obtain ⟨types, htypes, h⟩ := bind_eq_ok.1 h
  obtain rfl := Except.ok.inj h
  have hclosed : ∀ ts ∈ types.map GroupType.tokens, Closed ts := by
    intro ts hts
    obtain ⟨t, -, rfl⟩ := List.mem_map.1 hts
    exact t.closed
  rw [List.flatMap_def]
  refine ⟨closed_flatten hclosed, ?_⟩
  rw [definitions_flatten hclosed, List.flatMap_map]
  exact definitions_groupTypes (mapAll_eq_ok.1 htypes)

theorem inValues_append (space : Space) (as bs : List String) :
    inValues space (as ++ bs) = inValues space as ++ inValues space bs := by
  cases space <;> rfl

theorem definitions_generated {rs : List Routine} {chart : Ident} {parts : List (List Token)}
    (hgenerated : ∀ r ∈ rs, r.override = none)
    (h : List.Forall₂ (fun r ts => r.tokens chart = .ok ts) rs parts) :
    (∀ ts ∈ parts, Closed ts) ∧
      parts.flatMap (definitions space) = inValues space (rs.map fun r => stem r.name) := by
  induction h with
  | nil => exact ⟨by simp, by cases space <;> rfl⟩
  | @cons r ts rs parts hr _ ih =>
    obtain ⟨hno, hrest⟩ := List.forall_mem_cons.1 hgenerated
    obtain ⟨hclosed, hdefinitions⟩ := ih hrest
    unfold Routine.tokens at hr
    rw [hno] at hr
    obtain ⟨hprint, rfl⟩ := Routine.generated_eq_ok.1 hr
    obtain ⟨hfirst, hname⟩ := @definitions_routine space r chart
    refine ⟨List.forall_mem_cons.2 ⟨hfirst, hclosed⟩, ?_⟩
    rw [List.flatMap_cons, hname, hdefinitions, name_of_isPrintable hprint, ← inValues_append]
    rfl

theorem definitions_callbackFns {k : Callbacks} {chart : Ident} {ts : List Token}
    (hgenerated : ∀ r ∈ k.routines, r.override = none) (h : callbackFns k chart = .ok ts) :
    Closed ts ∧ definitions space ts =
      inValues space (k.routines.map fun r => stem r.name) := by
  unfold callbackFns at h
  obtain ⟨parts, hparts, h⟩ := bind_eq_ok.1 h
  obtain rfl := Except.ok.inj h
  obtain ⟨hclosed, hdefinitions⟩ :=
    @definitions_generated space _ _ _ hgenerated (mapAll_eq_ok.1 hparts)
  exact ⟨closed_flatten hclosed, by rw [definitions_flatten hclosed, hdefinitions]⟩

theorem declarations_eq_ok {c : Chart} {k : Callbacks} {d : List Token}
    (h : declarations c k = .ok d) :
    ∃ chart groups tables fns build, chartIdent c = .ok chart ∧ c.group? c.name = none ∧
      eventGroups c = .ok groups ∧ eventTables c = .ok tables ∧ callbackFns k chart = .ok fns ∧
      buildStatechart c k chart = .ok build ∧
      d = groups ++ tables ++ portTables c ++ fns ++ build := by
  unfold declarations at h
  obtain ⟨chart, hchart, h⟩ := bind_eq_ok.1 h
  obtain ⟨u, htypes, h⟩ := bind_eq_ok.1 h
  obtain ⟨groups, hgroups, h⟩ := bind_eq_ok.1 h
  obtain ⟨tables, htables, h⟩ := bind_eq_ok.1 h
  obtain ⟨fns, hfns, h⟩ := bind_eq_ok.1 h
  obtain ⟨build, hbuild, h⟩ := bind_eq_ok.1 h
  rw [rejecting_eq_ok] at hchart htypes hgroups htables
  refine ⟨chart, groups, tables, fns, build, hchart, ?_, hgroups, htables, hfns, hbuild,
    (Except.ok.inj h).symm⟩
  unfold checkTypeNames at htypes
  split at htypes
  · cases htypes
  · assumption

def tableNames (c : Chart) : List String :=
  ["EVENT_GROUPS", "SUPPRESSED_EVENTS"] ++
    if c.transport.isSome then ["PORT_TRANSPORT", "PORTS"] else []

def routeNames (c : Chart) : List String :=
  if hasPorts c then ["route"] else []

/-- The values of a module that do not come from names of the chart. -/
def fixedNames (c : Chart) : List String :=
  tableNames c ++ "build_statechart" :: routeNames c

/-- The names of a module in the order of its items: groups, tables, routines, the constructor, the
choice of a port, and the chart. -/
def itemNames (c : Chart) (routines : List String) : Space → List String
  | .type => (c.groups.map fun g => stem g.name) ++ [stem c.name]
  | .value => (c.groups.map fun g => stem g.name) ++ tableNames c ++ routines.map stem ++
      ["build_statechart"] ++ routeNames c

theorem definitions_items {c : Chart} {k : Callbacks} {d : List Token} {chart : Ident}
    (hgenerated : ∀ r ∈ k.routines, r.override = none) (h : declarations c k = .ok d)
    (hchart : chartIdent c = .ok chart) :
    definitions space (d ++ wrapper c chart) =
      itemNames c (k.routines.map Routine.name) space := by
  obtain ⟨chart', groups, tables, fns, build, hchart', -, hgroups, htables, hfns, hbuild, rfl⟩ :=
    declarations_eq_ok h
  obtain rfl := Except.ok.inj (hchart'.symm.trans hchart)
  obtain ⟨hclosed₁, hgroups⟩ := @definitions_eventGroups space _ _ hgroups
  obtain ⟨hclosed₂, htables⟩ := @definitions_eventTables space _ _ htables
  obtain ⟨hclosed₃, hports⟩ := @definitions_portTables space c
  obtain ⟨hclosed₄, hfns⟩ := @definitions_callbackFns space _ _ _ hgenerated hfns
  obtain ⟨hclosed₅, hbuild⟩ := @definitions_buildStatechart space _ _ _ _ hbuild
  have hname : (Ident.ofText chart'.text).name = stem c.name := name_of_ofText hchart'
  simp only [List.append_assoc]
  rw [definitions_append hclosed₁, definitions_append hclosed₂, definitions_append hclosed₃,
    definitions_append hclosed₄, definitions_append hclosed₅, hgroups, htables, hports, hfns,
    hbuild, definitions_wrapper]
  cases space with
  | type => simp [inValues, itemNames, hname]
  | value => simp [inValues, itemNames, tableNames, routeNames]

/-- A name that two items of a module define. Groups are told from each other and from the chart,
and routines from each other, by how they are spelled; that is not what makes names differ. No group
and no routine is compared with anything else. -/
inductive Clash (c : Chart) (routines : List String) (name : String) : Prop where
  | groups {g h : EventGroup} (hg : g ∈ c.groups) (hh : h ∈ c.groups) (spelled : g.name ≠ h.name)
      (first : stem g.name = name) (second : stem h.name = name) : Clash c routines name
  | groupAndChart {g : EventGroup} (hg : g ∈ c.groups) (spelled : g.name ≠ c.name)
      (first : stem g.name = name) (second : stem c.name = name) : Clash c routines name
  | routines {a b : String} (ha : a ∈ routines) (hb : b ∈ routines) (spelled : a ≠ b)
      (first : stem a = name) (second : stem b = name) : Clash c routines name
  | groupAndRoutine {g : EventGroup} {a : String} (hg : g ∈ c.groups) (ha : a ∈ routines)
      (first : stem g.name = name) (second : stem a = name) : Clash c routines name
  | groupAndFixed {g : EventGroup} (hg : g ∈ c.groups) (first : stem g.name = name)
      (second : name ∈ fixedNames c) : Clash c routines name
  | routineAndFixed {a : String} (ha : a ∈ routines) (first : stem a = name)
      (second : name ∈ fixedNames c) : Clash c routines name

theorem fixedNames_nodup (c : Chart) : (fixedNames c).Nodup := by
  unfold fixedNames tableNames routeNames
  cases c.transport.isSome <;> cases hasPorts c <;> decide

theorem typeNames_nodup {c : Chart} {routines : List String} :
    (itemNames c routines .type).Nodup ↔
      ((c.groups.map EventGroup.name).map stem).Nodup ∧ ∀ g ∈ c.groups, stem g.name ≠ stem c.name := by
  simp [itemNames, List.nodup_append', List.map_map, Function.comp_def]

theorem valueNames_nodup {c : Chart} {routines : List String} :
    (itemNames c routines .value).Nodup ↔
      ((c.groups.map EventGroup.name).map stem).Nodup ∧ (routines.map stem).Nodup ∧
        (∀ g ∈ c.groups, stem g.name ∉ routines.map stem ++ fixedNames c) ∧
        ∀ a ∈ routines, stem a ∉ fixedNames c := by
  -- the order of items does not matter
  have hperm : List.Perm (itemNames c routines .value)
      ((c.groups.map EventGroup.name).map stem ++ (routines.map stem ++ fixedNames c)) := by
    simp only [itemNames, fixedNames, List.append_assoc, List.singleton_append, List.map_map,
      Function.comp_def]
    exact (List.perm_append_comm_assoc _ _ _).append_left _
  rw [hperm.nodup_iff, List.nodup_append', List.nodup_append']
  have hfixed := fixedNames_nodup c
  simp only [hfixed, true_and, List.disjoint_left, List.mem_map, forall_exists_index, and_imp,
    forall_apply_eq_imp_iff₂]
  exact ⟨fun h => ⟨h.1, h.2.1.1, h.2.2, h.2.1.2⟩, fun h => ⟨h.1, ⟨h.2.1, h.2.2.2⟩, h.2.2.1⟩⟩

/-- Every name is defined once, unless names clash. -/
theorem itemNames_nodup_iff {c : Chart} {routines : List String}
    (hgroups : (c.groups.map EventGroup.name).Nodup) (hchart : c.group? c.name = none)
    (hroutines : routines.Nodup) :
    (∀ space, (itemNames c routines space).Nodup) ↔ ∀ name, ¬ Clash c routines name := by
  have hspelled : ∀ g ∈ c.groups, g.name ≠ c.name := by
    simpa [Chart.group?, List.find?_eq_none] using hchart
  constructor
  · intro h name hclash
    obtain ⟨hstems, hown⟩ := typeNames_nodup.1 (h .type)
    obtain ⟨-, hnames, hgroup, hroutine⟩ := valueNames_nodup.1 (h .value)
    rw [List.nodup_map_iff_inj_on hgroups] at hstems
    rw [List.nodup_map_iff_inj_on hroutines] at hnames
    cases hclash with
    | groups hg hh hne hfirst hsecond =>
      exact hne (hstems _ (List.mem_map_of_mem hg) _ (List.mem_map_of_mem hh)
        (hfirst.trans hsecond.symm))
    | groupAndChart hg _ hfirst hsecond => exact hown _ hg (hfirst.trans hsecond.symm)
    | routines ha hb hne hfirst hsecond => exact hne (hnames _ ha _ hb (hfirst.trans hsecond.symm))
    | groupAndRoutine hg ha hfirst hsecond =>
      refine hgroup _ hg (List.mem_append_left _ ?_)
      rw [hfirst, ← hsecond]
      exact List.mem_map_of_mem ha
    | groupAndFixed hg hfirst hsecond =>
      exact hgroup _ hg (List.mem_append_right _ (hfirst ▸ hsecond))
    | routineAndFixed ha hfirst hsecond => exact hroutine _ ha (hfirst ▸ hsecond)
  · intro h
    have hstems : ((c.groups.map EventGroup.name).map stem).Nodup := by
      rw [List.nodup_map_iff_inj_on hgroups]
      intro x hx y hy hxy
      obtain ⟨g, hg, rfl⟩ := List.mem_map.1 hx
      obtain ⟨g', hg', rfl⟩ := List.mem_map.1 hy
      by_contra hne
      exact h _ (.groups hg hg' hne hxy rfl)
    have hnames : (routines.map stem).Nodup := by
      rw [List.nodup_map_iff_inj_on hroutines]
      intro a ha b hb hab
      by_contra hne
      exact h _ (.routines ha hb hne hab rfl)
    intro space
    cases space with
    | type =>
      refine typeNames_nodup.2 ⟨hstems, ?_⟩
      intro g hg hown
      exact h _ (.groupAndChart hg (hspelled g hg) hown rfl)
    | value =>
      refine valueNames_nodup.2 ⟨hstems, hnames, ?_, ?_⟩
      · intro g hg hmem
        obtain hmem | hmem := List.mem_append.1 hmem
        · obtain ⟨a, ha, hga⟩ := List.mem_map.1 hmem
          exact h _ (.groupAndRoutine hg ha rfl hga)
        · exact h _ (.groupAndFixed hg rfl hmem)
      · intro a ha hmem
        exact h _ (.routineAndFixed ha rfl hmem)

end Module

end Statechart
