import EntitySql.Schema.Basic
/-!
# Dependency order

Tables in an order in which each comes after the tables that it refers to. Each table waits for as many
tables as it refers to, itself aside. Whoever waits for nobody is settled, first come first served, and
then nobody waits for it any longer. What is never settled lies on a cycle or behind one.
-/

namespace EntitySql.Schema

/-- The keys of the tables that `t` refers to, itself aside, each once. -/
def dependencies (s : Schema) (t : Table) : List String :=
  (((s.outgoing t).map (·.referenced.table)).filter fun name =>
    name != t.name && s.tables.contains name).eraseDups

/-- The names of the tables that refer to the one with the given key, in order of declaration. -/
def dependents (s : Schema) (key : String) : List String :=
  (s.tables.values.filter fun t => (s.dependencies t).contains key).map (·.name)

/-- How many tables the ones with the given name refer to. -/
def dependencyCount (s : Schema) (name : String) : Nat :=
  ((s.tables.values.filter (·.name == name)).flatMap s.dependencies).length

/-- Tables with the number of tables that each still waits for. -/
abbrev Waiting := Assoc Nat

/-- Every table with the number of tables that it refers to. -/
def initialWaiting (s : Schema) : Waiting :=
  Assoc.ofPairs (s.tables.keys.map fun key => (key, s.dependencyCount key))

/-- One table less to wait for. The name joins the ready ones if it waits for none any more. -/
def release (state : Waiting × List String) (name : String) : Waiting × List String :=
  let (waiting, ready) := state
  match waiting.get? name with
  | none => state
  | some n => (waiting.insert name (n - 1), if n - 1 = 0 then ready ++ [name] else ready)

/-- Settles the queued names in order and queues those that then wait for nobody. The fuel bounds the
number of names that are settled. -/
def settle (s : Schema) : Nat → Waiting → List String → List String
  | 0, _, _ => []
  | _ + 1, _, [] => []
  | fuel + 1, waiting, name :: queue =>
    let (waiting, ready) := (s.dependents name).foldl release (waiting, [])
    name :: settle s fuel waiting (queue ++ ready)

/-- The keys of the tables that lie on no cycle and behind none, referenced ones first. -/
def settledKeys (s : Schema) : List String :=
  let waiting := s.initialWaiting
  s.settle s.tables.size waiting
    ((waiting.entries.filter fun (_, n) => n == 0).map Prod.fst)

/-- All tables, referenced ones before those that refer to them. Tables on a cycle and behind one follow
in order of declaration. -/
def sortedTables (s : Schema) : List Table :=
  let settled := s.settledKeys.filterMap s.tables.get?
  if settled.length = s.tables.size then settled
  else
    s.tables.values.foldl
      (fun sorted t => if sorted.any (·.name == t.name) then sorted else sorted ++ [t]) settled

end EntitySql.Schema
