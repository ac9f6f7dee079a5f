import EntitySql.Proofs.Assoc
import EntitySql.Proofs.Ensures
import EntitySql.Proofs.Redaction.Input
/-!
# Faults of filters

What is wrong with a filter is found while it is compiled, by the functions that write its parts. Together they are a
check of the whole tree (`Compiler.filterClause_iff_wellFormed`): a filter is compiled if every node of it is well
formed, and else it fails because of the first node that is not, depth first.
-/

namespace EntitySql

/-! ## Nodes of a filter -/

/-- A part of a filter that can be at fault by itself. -/
inductive Filter.Node
  /-- An entry under its key. -/
  | entry (key : String) (value : FilterEntry)
  /-- An operator of a condition on a field. -/
  | operator (field name : String) (argument : OperatorArgument)

open EntitySql.Filter (Node)

mutual

/-- The operators of a condition on the field, depth first. -/
def Condition.nodes (field : String) : Condition → List Node
  | .value _ => []
  | .operators entries => OperatorArgument.nodesOfEntries field entries
termination_by structural condition => condition

/-- The operators below an operator with the argument. -/
def OperatorArgument.nodes (field : String) : OperatorArgument → List Node
  | .value _ => []
  | .condition inner => Condition.nodes field inner
termination_by structural argument => argument

/-- The operators of a list, each in front of those below it. -/
def OperatorArgument.nodesOfEntries (field : String) : List (String × OperatorArgument) → List Node
  | [] => []
  | (name, argument) :: rest =>
    .operator field name argument :: OperatorArgument.nodes field argument ++
      OperatorArgument.nodesOfEntries field rest
termination_by structural entries => entries

end

mutual

/-- The nodes below an entry. -/
def FilterEntry.nodes (key : String) : FilterEntry → List Node
  | .field condition => condition.nodes key
  | .group items => FilterItem.nodesOfItems items
  | .search _ => []
  | .subquery _ => []
termination_by structural value => value

/-- The nodes of a member of a group. -/
def FilterItem.nodes : FilterItem → List Node
  | .filter entries => FilterEntry.nodesOfEntries entries
  | .raw _ => []
termination_by structural item => item

/-- The nodes of the members of a group. -/
def FilterItem.nodesOfItems : List FilterItem → List Node
  | [] => []
  | item :: rest => FilterItem.nodes item ++ FilterItem.nodesOfItems rest
termination_by structural items => items

/-- The nodes of entries, each in front of those below it. -/
def FilterEntry.nodesOfEntries : List (String × FilterEntry) → List Node
  | [] => []
  | (key, value) :: rest => .entry key value :: FilterEntry.nodes key value ++ FilterEntry.nodesOfEntries rest
termination_by structural entries => entries

end

/-- The nodes of a filter, depth first. -/
def Filter.nodes (filter : Filter) : List Node := FilterEntry.nodesOfEntries filter

/-! ## Well-formed nodes -/

/-- Whether a pattern can be made of the value. -/
def Value.isTextOrNumber : Value → Bool
  | .text _ | .int _ | .float _ => true
  | _ => false

/-- Whether the operator compares with a pattern. -/
def FieldOperator.isPattern : FieldOperator → Bool
  | startsWith | startsWithAnyCase | endsWith | endsWithAnyCase | includes | includesAnyCase | like | likeAnyCase
  | regex => true
  | _ => false

namespace Filter.Node

/-- Whether a node is well formed, whatever is below it. Raw fragments stand under `$exists` and `$nexists`, searches
under `$text`, groups under connectives and conditions under other keys than these. Operators have to be known, patterns
are texts or numbers, and only `$not` takes a condition. -/
def IsWellFormed : Node → Prop
  | .entry key (.subquery _) => key ∈ ["$exists", "$nexists"]
  | .entry key (.search _) => key = "$text"
  | .entry key (.group _) => key ∈ ["$and", "$or", "$not", "$nor"]
  | .entry key (.field _) => key.toList.head? ≠ some '$'
  | .operator _ name (.value v) =>
    ∃ operator ∈ FieldOperator.all, operator.key = name ∧ (operator.isPattern = true → v.isTextOrNumber = true)
  | .operator _ name (.condition _) => name = "$not"

instance : DecidablePred IsWellFormed
  | .entry _ (.subquery _) => inferInstanceAs (Decidable (_ ∈ _))
  | .entry _ (.search _) => inferInstanceAs (Decidable (_ = _))
  | .entry _ (.group _) => inferInstanceAs (Decidable (_ ∈ _))
  | .entry _ (.field _) => inferInstanceAs (Decidable (_ ≠ _))
  | .operator _ _ (.value _) => inferInstanceAs (Decidable (∃ _ ∈ _, _))
  | .operator _ _ (.condition _) => inferInstanceAs (Decidable (_ = _))

/-- What is reported of a node at fault. -/
def error : Node → QueryError
  | .entry key (.subquery _) => .invalidFilter key .misplacedRaw
  | .entry key (.search _) => .invalidFilter key .misplacedText
  | .entry key (.group _) => .unknownOperator key
  | .entry key (.field _) => .unknownOperator key
  | .operator field name argument =>
    if name ∈ FieldOperator.all.map FieldOperator.key then
      match argument with
      | .condition _ => .invalidFilter field .misplacedCondition
      | .value _ => .invalidFilter field .patternNeedsText
    else .unknownOperator name

end Filter.Node

/-! ## Reports -/

/-- The first node at fault. -/
def Filter.Node.firstFault? (nodes : List Node) : Option Node := nodes.find? fun node => ¬node.IsWellFormed

/-- Whether a computation has a result unless one of the nodes is at fault, and then reports the first of them. -/
def Reports {α : Type} (nodes : List Node) (x : Except QueryError α) : Prop :=
  match Node.firstFault? nodes with
  | none => ∃ a, x = .ok a
  | some node => x = .error node.error

namespace Reports

variable {α β : Type} {node : Node} {nodes rest : List Node} {x : Except QueryError α} {f : α → Except QueryError β}

theorem of_ok (h : ∃ a, x = .ok a) : Reports [] x := h

theorem of_fault (h : ¬node.IsWellFormed) (hx : x = .error node.error) : Reports (node :: nodes) x := by
  rwa [Reports, Node.firstFault?, List.find?_cons_of_pos (by simpa using h)]

theorem cons (h : node.IsWellFormed) (hx : Reports nodes x) : Reports (node :: nodes) x := by
  rwa [Reports, Node.firstFault?, List.find?_cons_of_neg (by simpa using h)]

/-- One computation after the other reports the nodes of both. -/
theorem bind (hx : Reports nodes x) (hf : ∀ a, x = .ok a → Reports rest (f a)) : Reports (nodes ++ rest) (x >>= f) := by
  rw [Reports, Node.firstFault?, List.find?_append]
  rw [Reports, Node.firstFault?] at hx
  cases hfault : nodes.find? fun node => ¬node.IsWellFormed with
  | none =>
    rw [hfault] at hx
    obtain ⟨a, ha⟩ := hx
    rw [ha]
    exact hf a ha
  | some node =>
    rw [hfault] at hx
    rw [hx]
    rfl

/-- A step that does not fail reports nothing. -/
theorem bind_of_ok (hx : Reports nodes x) (hf : ∀ a, ∃ b, f a = .ok b) : Reports nodes (x >>= f) := by
  have h : Reports (nodes ++ []) (x >>= f) := hx.bind fun a _ => of_ok (hf a)
  rwa [List.append_nil] at h

theorem ok_iff (h : Reports nodes x) : (∃ a, x = .ok a) ↔ ∀ node ∈ nodes, node.IsWellFormed := by
  have hnone : Node.firstFault? nodes = none ↔ ∀ node ∈ nodes, node.IsWellFormed := by
    simp [Node.firstFault?, List.find?_eq_none]
  rw [← hnone]
  rw [Reports] at h
  cases hfault : Node.firstFault? nodes with
  | none =>
    rw [hfault] at h
    exact iff_of_true h rfl
  | some node =>
    rw [hfault] at h
    exact iff_of_false (fun ⟨a, ha⟩ => nomatch h.symm.trans ha) (Option.some_ne_none node)

theorem eq_error (h : Reports nodes x) (hfault : Node.firstFault? nodes = some node) : x = .error node.error := by
  rwa [Reports, hfault] at h

end Reports

namespace FieldOperator

theorem mem_all (operator : FieldOperator) : operator ∈ all := by
  cases operator <;> decide

theorem ofKey_key (operator : FieldOperator) : ofKey operator.key = .ok operator := by
  cases operator <;> rfl

theorem key_injective {operator other : FieldOperator} (h : operator.key = other.key) : operator = other :=
  Except.ok.inj ((ofKey_key operator).symm.trans (h ▸ ofKey_key other))

theorem ofKey_of_notMem {name : String} (h : name ∉ all.map key) : ofKey name = .error (.unknownOperator name) := by
  have hnone : all.find? (·.key == name) = none := by
    refine List.find?_eq_none.2 fun operator hmem hname => h ?_
    exact List.mem_map.2 ⟨operator, hmem, by simpa using hname⟩
  rw [ofKey, hnone]

end FieldOperator

theorem Connective.ofKey?_eq_none_iff {key : String} : ofKey? key = none ↔ key ∉ ["$and", "$or", "$not", "$nor"] := by
  unfold ofKey?
  split <;> simp_all

namespace Compiler

variable {c : Compiler} {m : Member} {key : String} {qualifier? : Option String}

/-! ## Raw fragments -/

/-- Whether the fragments have texts among columns behind the qualifier. -/
def Expands (c : Compiler) (m : Member) (qualifier? : Option String) (sqls : List RawSql) : Prop :=
  ∀ sql ∈ sqls, ∃ text, c.rawText m.registry sql (qualifier?.getD "") = .ok text

/-- Whether the computed fields of an entity have texts behind the qualifier. -/
def ExpandsFields (c : Compiler) (m : Member) (qualifier? : Option String) : Prop :=
  c.Expands m qualifier? (m.entity.fields.values.filterMap (·.computed?))

theorem Expands.exists_raw {sqls : List RawSql} (h : c.Expands m qualifier? sqls) {sql : RawSql} (hsql : sql ∈ sqls) :
    ∃ text, c.raw m sql qualifier? = .ok text := by
  exact exists_bind_eq_ok (h sql hsql) fun _ => ⟨_, rfl⟩

mutual

theorem exists_value : ∀ v : Value, c.Expands m qualifier? v.raws → ∃ sql, c.value m qualifier? v = .ok sql
  | .raw _, h => h.exists_raw (.head _)
  | .list items, h => exists_bind_eq_ok (exists_values items h) fun _ => ⟨_, rfl⟩
  | .null, _ | .bool _, _ | .int _, _ | .float _, _ | .text _, _ | .blob _, _ | .json _, _ => ⟨_, rfl⟩

theorem exists_values : ∀ items : List Value, c.Expands m qualifier? (Value.rawsOfItems items) →
    ∃ sqls, c.values m qualifier? items = .ok sqls
  | [], _ => ⟨_, rfl⟩
  | item :: rest, h => by
    obtain ⟨hitem, hrest⟩ := List.forall_mem_append.1 h
    exact exists_bind_eq_ok (exists_value item hitem) fun _ =>
      exists_bind_eq_ok (exists_values rest hrest) fun _ => ⟨_, rfl⟩

end

/-- A column can be referred to unless it is computed by a fragment without text. -/
theorem exists_columnReference (h : c.ExpandsFields m qualifier?) (key : String) :
    ∃ column, c.columnReference m key qualifier? = .ok column := by
  rw [columnReference]
  split
  · rename_i field hfield
    split
    · rename_i sql hsql
      exact Expands.exists_raw h (List.mem_filterMap.2 ⟨field, Assoc.mem_values_iff.2 ⟨key, hfield⟩, hsql⟩)
    · exact ⟨_, rfl⟩
  · split
    · split <;> exact ⟨_, rfl⟩
    · exact ⟨_, rfl⟩

/-! ## Conditions -/

theorem isWellFormed_value_iff {operator : FieldOperator} {v : Value} :
    (Node.operator key operator.key (.value v)).IsWellFormed ↔
      (operator.isPattern = true → v.isTextOrNumber = true) := by
  refine ⟨fun ⟨other, _, hkey, h⟩ => ?_, fun h => ⟨operator, operator.mem_all, rfl, h⟩⟩
  rwa [← FieldOperator.key_injective hkey]

theorem isWellFormed_condition_iff {operator : FieldOperator} {inner : Condition} :
    (Node.operator key operator.key (.condition inner)).IsWellFormed ↔ operator = .negation :=
  ⟨fun h => FieldOperator.key_injective h, fun h => congrArg FieldOperator.key h⟩

theorem mem_operatorKeys {name : String} {argument : OperatorArgument}
    (h : (Node.operator key name argument).IsWellFormed) : name ∈ FieldOperator.all.map FieldOperator.key := by
  cases argument with
  | value v =>
    obtain ⟨operator, hmem, rfl, _⟩ := h
    exact List.mem_map_of_mem hmem
  | condition inner =>
    obtain rfl : name = "$not" := h
    decide

theorem error_of_mem {name : String} (h : name ∈ FieldOperator.all.map FieldOperator.key)
    (argument : OperatorArgument) : (Node.operator key name argument).error =
      match argument with
      | .condition _ => .invalidFilter key .misplacedCondition
      | .value _ => .invalidFilter key .patternNeedsText := if_pos h

theorem error_of_notMem {name : String} (h : name ∉ FieldOperator.all.map FieldOperator.key)
    (argument : OperatorArgument) : (Node.operator key name argument).error = .unknownOperator name := if_neg h

/-- A pattern is at fault where it is neither text nor a number. -/
theorem reports_patternOf {operator : FieldOperator} (hpattern : operator.isPattern = true) (v : Value) :
    Reports [.operator key operator.key (.value v)] (patternOf key v) := by
  cases htext : v.isTextOrNumber with
  | true =>
    refine .cons (isWellFormed_value_iff.2 fun _ => htext) (.of_ok ?_)
    cases v
    case text | int | float => exact ⟨_, rfl⟩
    all_goals cases htext
  | false =>
    have hknown : operator.key ∈ FieldOperator.all.map FieldOperator.key := List.mem_map_of_mem operator.mem_all
    refine .of_fault (fun h => ?_) ((error_of_mem hknown (.value v)).symm ▸ ?_)
    · rw [isWellFormed_value_iff.1 h hpattern] at htext
      cases htext
    · cases v
      case text | int | float => cases htext
      all_goals rfl

section Conditions

variable (hcolumn : ∃ column, c.columnReference m key qualifier? = .ok column)

include hcolumn

theorem exists_comparison_of_not_isPattern {operator : FieldOperator} {v : Value}
    (hraws : c.Expands m qualifier? v.raws) (hpattern : operator.isPattern = false) (hnegation : operator ≠ .negation) :
    ∃ p, c.comparison m key qualifier? operator v = .ok p := by
  refine exists_bind_eq_ok hcolumn fun column => ?_
  have hcompared : ∀ sign : String, ∃ p, (do return Predicate.ofAtom (column ++ .word sign ::
      (← c.value m qualifier? v)) : Except QueryError Predicate) = .ok p := fun _ =>
    exists_bind_eq_ok (exists_value v hraws) fun _ => ⟨_, rfl⟩
  cases operator
  case equal | notEqual =>
    dsimp only
    split
    · exact ⟨_, rfl⟩
    · exact hcompared _
  case less | lessOrEqual | greater | greaterOrEqual => exact hcompared _
  case oneOf | noneOf =>
    dsimp only
    split
    · split
      · exact ⟨_, rfl⟩
      · exact exists_bind_eq_ok (exists_values _ hraws) fun _ => ⟨_, rfl⟩
    · have hraws' : c.Expands m qualifier? (Value.rawsOfItems [v]) := by
        rwa [Value.rawsOfItems, Value.rawsOfItems, List.append_nil]
      exact exists_bind_eq_ok (exists_values _ hraws') fun _ => ⟨_, rfl⟩
  case negation => exact absurd rfl hnegation
  all_goals cases hpattern

theorem reports_comparison_of_isPattern {operator : FieldOperator} (hpattern : operator.isPattern = true) (v : Value) :
    Reports [.operator key operator.key (.value v)] (c.comparison m key qualifier? operator v) := by
  have hof : Reports [.operator key operator.key (.value v)] (patternOf key v) := reports_patternOf hpattern v
  refine (Reports.of_ok hcolumn).bind fun column _ => ?_
  cases operator
  case startsWith | endsWith | includes | like | startsWithAnyCase | endsWithAnyCase | includesAnyCase | likeAnyCase
      | regex =>
    exact (hof.bind_of_ok fun _ => ⟨_, rfl⟩).bind_of_ok fun _ => ⟨_, rfl⟩
  all_goals cases hpattern

theorem reports_comparison {operator : FieldOperator} {v : Value} (hraws : c.Expands m qualifier? v.raws)
    (hnegation : operator ≠ .negation) :
    Reports [.operator key operator.key (.value v)] (c.comparison m key qualifier? operator v) := by
  cases hpattern : operator.isPattern with
  | true => exact reports_comparison_of_isPattern hcolumn hpattern v
  | false =>
    refine .cons ⟨operator, operator.mem_all, rfl, fun h => ?_⟩ (.of_ok ?_)
    · rw [hpattern] at h
      cases h
    · exact exists_comparison_of_not_isPattern hcolumn hraws hpattern hnegation

theorem exists_comparison_of_default {v : Value} (hraws : c.Expands m qualifier? v.raws) :
    ∃ p, c.comparison m key qualifier? (Condition.defaultOperator v) v = .ok p := by
  refine exists_comparison_of_not_isPattern hcolumn hraws ?_ ?_
  · cases v <;> rfl
  · cases v <;> exact nofun

end Conditions

mutual

theorem reports_condition (hcolumn : ∃ column, c.columnReference m key qualifier? = .ok column) :
    ∀ condition : Condition, c.Expands m qualifier? condition.raws →
    Reports (condition.nodes key) (c.condition m key qualifier? condition)
  | .value _, h => .of_ok (exists_comparison_of_default hcolumn h)
  | .operators entries, h => (reports_operators hcolumn entries h).bind_of_ok fun _ => ⟨_, rfl⟩

theorem reports_operators (hcolumn : ∃ column, c.columnReference m key qualifier? = .ok column) :
    ∀ entries : List (String × OperatorArgument), c.Expands m qualifier? (OperatorArgument.rawsOfEntries entries) →
    Reports (OperatorArgument.nodesOfEntries key entries) (c.operators m key qualifier? entries)
  | [], _ => .of_ok ⟨_, rfl⟩
  | (name, argument) :: rest, h => by
    obtain ⟨hargument, hrest⟩ := List.forall_mem_append.1 h
    exact (reports_operator hcolumn name argument hargument).bind fun _ _ =>
      (reports_operators hcolumn rest hrest).bind_of_ok fun _ => ⟨_, rfl⟩

theorem reports_operator (hcolumn : ∃ column, c.columnReference m key qualifier? = .ok column) (name : String) :
    ∀ argument : OperatorArgument, c.Expands m qualifier? argument.raws →
    Reports (.operator key name argument :: argument.nodes key) (c.operator m key qualifier? name argument)
  | argument, h => by
    by_cases hknown : name ∈ FieldOperator.all.map FieldOperator.key
    · obtain ⟨operator, _, rfl⟩ := List.mem_map.1 hknown
      match argument with
      | .value v =>
        have hplain (hne : operator ≠ .negation) := reports_comparison hcolumn h hne
        have hdenied := exists_bind_eq_ok (exists_comparison_of_default hcolumn h) fun p =>
          ⟨Predicate.negated (Predicate.parenthesized p), rfl⟩
        rw [Compiler.operator, operator.ofKey_key]
        cases operator
        case negation => exact .cons (isWellFormed_value_iff.2 nofun) (.of_ok hdenied)
        all_goals exact hplain nofun
      | .condition inner =>
        have hdenied := (reports_condition hcolumn inner h).bind_of_ok fun p =>
          ⟨Predicate.negated (Predicate.parenthesized p), rfl⟩
        rw [Compiler.operator, operator.ofKey_key]
        cases operator
        case negation => exact .cons (isWellFormed_condition_iff.2 rfl) hdenied
        all_goals exact .of_fault (fun h => nomatch isWellFormed_condition_iff.1 h) rfl
    · refine .of_fault (fun hname => hknown (mem_operatorKeys hname)) ?_
      rw [error_of_notMem hknown]
      cases argument <;> rw [Compiler.operator, FieldOperator.ofKey_of_notMem hknown] <;> rfl
termination_by structural argument => argument

end

/-! ## Entries -/

theorem exists_rawPredicate {sql : RawSql} (h : c.Expands m qualifier? [sql]) :
    ∃ p, c.rawPredicate m qualifier? sql = .ok p :=
  exists_bind_eq_ok (h sql (.head _)) fun _ => ⟨_, rfl⟩

/-- A subquery is at fault under a key that does not ask for rows. -/
theorem reports_subquery (grouped : Bool) (key : String) {sql : RawSql} (h : c.Expands m qualifier? [sql]) :
    Reports [.entry key (.subquery sql)] (c.entry m qualifier? grouped key (.subquery sql)) := by
  have hraw := h.exists_raw (.head [])
  rw [entry]
  split
  · rename_i hkey
    exact .cons (hkey ▸ .head _) (.of_ok (exists_bind_eq_ok hraw fun _ => ⟨_, rfl⟩))
  · split
    · rename_i hkey
      exact .cons (hkey ▸ .tail _ (.head _)) (.of_ok (exists_bind_eq_ok hraw fun _ => ⟨_, rfl⟩))
    · rename_i hexists hnexists
      refine .of_fault (fun hkey => ?_) rfl
      rcases List.mem_cons.1 hkey with hkey | hkey
      · exact hexists hkey
      · exact hnexists (List.mem_singleton.1 hkey)

theorem reports_search (grouped : Bool) (key : String) (request : TextSearch) :
    Reports [.entry key (.search request)] (c.entry m qualifier? grouped key (.search request)) := by
  rw [entry]
  split
  · rename_i hkey
    exact .cons hkey (.of_ok ⟨_, rfl⟩)
  · rename_i hkey
    exact .of_fault hkey rfl

mutual

theorem reports_entries
    (hcomputed : c.ExpandsFields m qualifier?) :
    ∀ (list : List (String × FilterEntry)) (grouped : Bool), c.Expands m qualifier? (FilterEntry.rawsOfEntries list) →
    Reports (FilterEntry.nodesOfEntries list) (c.entries m qualifier? grouped list)
  | [], _, _ => .of_ok ⟨_, rfl⟩
  | (key, value) :: rest, grouped, h => by
    obtain ⟨hvalue, hrest⟩ := List.forall_mem_append.1 h
    exact (reports_entry hcomputed value key grouped hvalue).bind fun _ _ =>
      (reports_entries hcomputed rest grouped hrest).bind_of_ok fun _ => ⟨_, rfl⟩

/-- The key of an entry is checked before what is below it. -/
theorem reports_entry
    (hcomputed : c.ExpandsFields m qualifier?) :
    ∀ (value : FilterEntry) (key : String) (grouped : Bool), c.Expands m qualifier? value.raws →
    Reports (.entry key value :: value.nodes key) (c.entry m qualifier? grouped key value)
  | .subquery _, key, grouped, h => reports_subquery grouped key h
  | .search request, key, grouped, _ => reports_search grouped key request
  | .group items, key, grouped, h => by
    rw [entry]
    split
    · rename_i hkey
      exact .of_fault (Connective.ofKey?_eq_none_iff.1 hkey) rfl
    · rename_i connective hkey
      refine .cons (Decidable.byContradiction fun hfault => ?_)
        ((reports_groupItems hcomputed items _ h).bind_of_ok fun _ => ⟨_, rfl⟩)
      cases hkey.symm.trans (Connective.ofKey?_eq_none_iff.2 hfault)
  | .field condition, key, grouped, h => by
    rw [entry]
    split
    · rename_i hkey
      exact .of_fault (fun hfield => hfield (eq_of_beq hkey)) rfl
    · rename_i hkey
      exact .cons (fun hhead => hkey (beq_iff_eq.2 hhead))
        (reports_condition (exists_columnReference hcomputed key) condition h)

theorem reports_groupItems
    (hcomputed : c.ExpandsFields m qualifier?) :
    ∀ (items : List FilterItem) (grouped : Bool), c.Expands m qualifier? (FilterItem.rawsOfItems items) →
    Reports (FilterItem.nodesOfItems items) (c.groupItems m qualifier? grouped items)
  | [], _, _ => .of_ok ⟨_, rfl⟩
  | item :: rest, grouped, h => by
    obtain ⟨hitem, hrest⟩ := List.forall_mem_append.1 h
    exact (reports_groupItem hcomputed item grouped hitem).bind fun _ _ =>
      (reports_groupItems hcomputed rest grouped hrest).bind_of_ok fun _ => ⟨_, rfl⟩

theorem reports_groupItem
    (hcomputed : c.ExpandsFields m qualifier?) :
    ∀ (item : FilterItem) (grouped : Bool), c.Expands m qualifier? item.raws →
    Reports item.nodes (c.groupItem m qualifier? grouped item)
  | .raw _, _, h => .of_ok (exists_rawPredicate h)
  | .filter list, _, h => (reports_entries hcomputed list _ h).bind_of_ok fun _ => ⟨_, rfl⟩

end

/-- Whether a filter is compiled is told by its nodes alone: all of them have to be well formed, and else it fails with
what is to be reported of the first that is not. Nothing that is compiled to less than it could, such as an empty list
of values or an empty group, hides a node. -/
theorem filterClause_iff_wellFormed {filter : Filter} {options : FilterOptions}
    (hdeleted : options.softDelete? = some false) (hraws : c.Expands m options.qualifier? filter.raws)
    (hcomputed : c.ExpandsFields m options.qualifier?) :
    ((∃ sql, c.filterClause m (some filter) options = .ok sql) ↔ ∀ node ∈ filter.nodes, node.IsWellFormed) ∧
      ∀ node, filter.nodes.find? (fun node => ¬node.IsWellFormed) = some node →
        c.filterClause m (some filter) options = .error node.error := by
  have hguard : softDeleteGuard m (some filter) options = [] := by
    rw [softDeleteGuard, hdeleted]
    cases m.entity.softDelete? <;> simp
  have hreports : Reports filter.nodes (c.filterClause m (some filter) options) := by
    rw [filterClause, filterPredicate, hguard, Option.getD_some, List.append_nil]
    exact ((reports_entries hcomputed filter _ hraws).bind_of_ok fun _ => ⟨_, rfl⟩).bind_of_ok fun _ => ⟨_, rfl⟩
  exact ⟨hreports.ok_iff, fun node hfault => hreports.eq_error hfault⟩

/-- An operator beside others under `$not`, behind a list that is empty. -/
theorem filterClause_iff_wellFormed_items :
    let item : Entity :=
      { name := "item", fields := Assoc.ofPairs [("id", { type := .integer }), ("name", { type := .string })] }
    let m : Member := ⟨Registry.ofList [item], item⟩
    let c : Compiler := { dialect := .mysql, expander := fun _ _ => .ok "" }
    let options : FilterOptions := { softDelete? := some false }
    let denied (name : String) : Condition := .operators [("$gt", .value (.int 3)), (name, .value (.int 5))]
    let filter (name : String) : Filter :=
      [("$or", .group [.filter [("name", .field (.operators [("$in", .value (.list []))]))],
        .filter [("id", .field (.operators [("$not", .condition (denied name))]))]])]
    (∃ sql, c.filterClause m (some (filter "$lt")) options = .ok sql) ∧
      c.filterClause m (some (filter "$below")) options = .error (.unknownOperator "$below") := by
  intro item m c options denied filter
  have hraws : ∀ name, c.Expands m options.qualifier? (filter name).raws := fun name sql hsql => nomatch hsql
  have hcomputed : c.ExpandsFields m options.qualifier? := fun sql hsql => nomatch hsql
  have hlt : ∀ node ∈ (filter "$lt").nodes, node.IsWellFormed := by decide +kernel
  have hbelow : (filter "$below").nodes.find? (fun node => ¬node.IsWellFormed) =
      some (.operator "id" "$below" (.value (.int 5))) := rfl
  exact ⟨(filterClause_iff_wellFormed rfl (hraws _) hcomputed).1.2 hlt,
    (filterClause_iff_wellFormed rfl (hraws _) hcomputed).2 _ hbelow⟩

end Compiler

end EntitySql
