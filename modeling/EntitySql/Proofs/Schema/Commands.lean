import EntitySql.Migration.Recording
import EntitySql.Proofs.Assoc
import EntitySql.Proofs.Ensures
import EntitySql.Proofs.Json.Reading
import EntitySql.Proofs.Migration.Calls
/-!
# Commands are read back

A command for a document store is written as a JSON object and read back as the same command, whatever its names
and keys hold (`DocumentCommand.ofText?_toStatement`). So the statements of differences are commands that a querier
is given one after the other. All statements are read before the first command is given: where one of them is no
command, or a command without a collection, none is.
-/

namespace EntitySql

open Json EntitySql.Action

/-! ## Members of written objects -/

namespace Json

theorem membersHaveWholeNumbers_iff {members : List (String × Json)} :
    MembersHaveWholeNumbers members ↔ ∀ member ∈ members, member.2.HasWholeNumbers := by
  induction members with
  | nil => exact ⟨nofun, fun _ => trivial⟩
  | cons member rest ih => rw [MembersHaveWholeNumbers, ih, List.forall_mem_cons]

theorem depthOfMembers_le_iff {members : List (String × Json)} {n : Nat} :
    depthOfMembers members ≤ n ↔ ∀ member ∈ members, member.2.depth ≤ n := by
  induction members with
  | nil => exact ⟨nofun, fun _ => Nat.zero_le n⟩
  | cons member rest ih => rw [depthOfMembers, Nat.max_le, ih, List.forall_mem_cons]

/-- A written object has its members. -/
theorem Decoder.members?_ofMembers (members : List (String × Json)) :
    Decoder.members? (Document.ofMembers members) =
      some (members.map fun member => (member.1, Document.ofJson member.2)) := by
  induction members with
  | nil => rfl
  | cons member rest ih =>
    rw [Decoder.members?] at ih ⊢
    rw [Document.ofMembers, List.mapM_cons, ih]
    rfl

theorem Decoder.int32_ofInt (n : Int32) : Decoder.int32 (Document.ofJson (Json.ofInt n.toInt)) = some n := by
  have hlow := n.le_toInt
  have hhigh := n.toInt_lt
  have hwide : Decoder.int64 (Document.ofJson (Json.ofInt n.toInt)) = some n.toInt := if_pos (by omega)
  rw [Decoder.int32, hwide, Option.bind_some, if_pos (by omega), Int32.ofInt_toInt]

/-- Whole numbers under distinct keys are read back as they stand. -/
theorem Decoder.assoc_int32 (keys : Assoc Int32) :
    Decoder.assoc Decoder.int32 (Document.ofJson (.object
      (keys.entries.map fun entry => (entry.1, Json.ofInt entry.2.toInt)))) = some keys := by
  have hentries : ∀ entries : List (String × Int32),
      (entries.map fun entry => (entry.1, Document.ofJson (Json.ofInt entry.2.toInt))).mapM
        (fun member => (Decoder.int32 member.2).map fun n => (member.1, n)) = some entries := by
    intro entries
    induction entries with
    | nil => rfl
    | cons entry rest ih =>
      rw [List.map_cons, List.mapM_cons, Decoder.int32_ofInt, ih]
      rfl
  have hkeys : Assoc.ofPairs keys.entries = keys := Assoc.ext (Entries.ofPairs_of_nodup keys.distinct)
  rw [Document.ofJson, Decoder.assoc, Decoder.members?_ofMembers, List.map_map]
  refine (congrArg (Option.bind · _) (hentries keys.entries)).trans ?_
  exact congrArg some hkeys

end Json

/-! ## One command -/

namespace DocumentCommand

/-- The numbers of a written command are the directions of its keys, which are 32 bits wide. -/
theorem hasWholeNumbers_toJson (c : DocumentCommand) : c.toJson.HasWholeNumbers := by
  have hkeys : ∀ keys : Assoc Int32, MembersHaveWholeNumbers
      (keys.entries.map fun entry => (entry.1, Json.ofInt entry.2.toInt)) := by
    intro keys
    refine membersHaveWholeNumbers_iff.2 (List.forall_mem_map.2 fun entry _ => ?_)
    have hlow := entry.2.le_toInt
    have hhigh := entry.2.toInt_lt
    exact ⟨by omega, by omega⟩
  rcases c with (_ | _) | (_ | _) | ⟨_ | _, _, keys, _⟩ | ⟨_ | _, _⟩ <;>
    simp [toJson, collection?, details, HasWholeNumbers, MembersHaveWholeNumbers, hkeys]

/-- A written command is an object that holds at most one other object. -/
theorem depth_toJson_le (c : DocumentCommand) : c.toJson.depth ≤ 2 := by
  have hkeys : ∀ keys : Assoc Int32,
      depthOfMembers (keys.entries.map fun entry => (entry.1, Json.ofInt entry.2.toInt)) ≤ 0 := by
    intro keys
    exact depthOfMembers_le_iff.2 (List.forall_mem_map.2 fun _ _ => Nat.le_refl 0)
  rcases c with (_ | _) | (_ | _) | ⟨_ | _, _, keys, _⟩ | ⟨_ | _, _⟩ <;>
    simp [toJson, collection?, details, depth, depthOfMembers, Nat.le_zero.1 (hkeys _)]

/-- The action is told apart from what is written besides. -/
theorem splitAction?_toJson (c : DocumentCommand) :
    splitAction? (Document.ofJson c.toJson) = some (c.action, Document.ofJson (.object
      ((c.collection?.map fun name => ("collection", Json.string name)).toList ++ c.details))) := by
  rcases c with (_ | _) | (_ | _) | ⟨_ | _, _, _, _⟩ | ⟨_ | _, _⟩ <;> rfl

theorem ofParts?_details (c : DocumentCommand) :
    ofParts? c.action (Document.ofJson (.object
      ((c.collection?.map fun name => ("collection", Json.string name)).toList ++ c.details))) = some c := by
  cases c with
  | createCollection collection? => cases collection? <;> rfl
  | dropCollection collection? => cases collection? <;> rfl
  | createIndex collection? name keys unique =>
    have hkeys := Decoder.assoc_int32 keys
    -- Whether there is a collection or not, all that is left to read are the keys.
    cases collection? <;> exact congrArg (Option.bind · fun keys => some (createIndex _ name keys unique)) hkeys
  | dropIndex collection? name => cases collection? <;> rfl

/-- A command is read back from its text, whatever its names and keys hold. -/
theorem ofText?_toStatement (c : DocumentCommand) : ofText? c.toStatement = some c := by
  have hdepth : c.toJson.depth ≤ Document.maxLevels := Nat.le_trans c.depth_toJson_le (by decide)
  obtain ⟨j, hj⟩ := Option.isSome_iff_exists.1 (Document.isSome_toJson?_ofJson c.toJson hdepth)
  rw [ofText?, toStatement, Document.ofText?_toText c.hasWholeNumbers_toJson, Option.bind_eq_bind,
    Option.bind_some, hj, Option.bind_eq_bind, Option.bind_some, splitAction?_toJson]
  exact c.ofParts?_details

end DocumentCommand

/-! ## Commands in order -/

/-- The commands of differences name their collections. -/
theorem TableDiff.isSome_collection?_of_mem {t : TableDiff} {c : DocumentCommand} (hc : c ∈ t.commands) :
    c.collection?.isSome = true := by
  have hindexes : ∀ indexes : List Index, c ∈ indexes.map .ofIndex → c.collection?.isSome = true := by
    intro indexes hmem
    obtain ⟨i, -, rfl⟩ := List.mem_map.1 hmem
    rfl
  cases t with
  | create table definition? =>
    cases definition? with
    | none =>
      rw [List.mem_singleton.1 hc]
      rfl
    | some definition =>
      rcases List.mem_cons.1 hc with rfl | hc
      · rfl
      · exact hindexes _ hc
  | alter table changes =>
    rcases List.mem_append.1 hc with hc | hc
    · obtain ⟨i, -, rfl⟩ := List.mem_map.1 hc
      rfl
    · exact hindexes _ hc

namespace Querier

variable {σ : Type}

theorem readCommand_eq_ok_iff {statement : String} {c : DocumentCommand} : readCommand statement = .ok c ↔
    DocumentCommand.ofText? statement = some c ∧ c.collection?.isSome = true := by
  rw [readCommand]
  cases DocumentCommand.ofText? statement with
  | none => exact ⟨nofun, nofun⟩
  | some read =>
    dsimp only
    cases hcollection : read.collection? with
    | none =>
      refine ⟨nofun, fun ⟨hsame, hnamed⟩ => ?_⟩
      cases hsame
      rw [hcollection] at hnamed
      cases hnamed
    | some name =>
      refine ⟨fun hsame => ?_, fun ⟨hsame, _⟩ => congrArg Except.ok (Option.some.inj hsame)⟩
      cases hsame
      exact ⟨rfl, congrArg Option.isSome hcollection⟩

theorem mapM_readCommand_toStatement {commands : List DocumentCommand}
    (h : ∀ c ∈ commands, c.collection?.isSome = true) :
    (commands.map (·.toStatement)).mapM readCommand = .ok commands := by
  induction commands with
  | nil => rfl
  | cons c rest ih =>
    rw [List.map_cons, List.mapM_cons, readCommand_eq_ok_iff.2 ⟨c.ofText?_toStatement, h c (.head rest)⟩,
      ih fun d hd => h d (.tail c hd)]
    rfl

/-- Whether a statement is a command that names its collection. -/
def IsCommand (statement : String) : Prop :=
  ∃ c, DocumentCommand.ofText? statement = some c ∧ c.collection?.isSome = true

/-- Where a statement is no command, the querier is given none. -/
theorem runDocumentStatements_of_not_isCommand (q : Querier σ) {statements : List String} {statement : String}
    (hmem : statement ∈ statements) (hstatement : ¬IsCommand statement) :
    ∃ e, ∀ s, q.runDocumentStatements statements s = (.error e, s) := by
  cases hread : statements.mapM readCommand with
  | error e => exact ⟨e, fun s => by rw [runDocumentStatements, hread]; rfl⟩
  | ok commands =>
    obtain ⟨c, hc⟩ := ok_of_mapM_eq_ok hread hmem
    exact absurd ⟨c, readCommand_eq_ok_iff.1 hc⟩ hstatement

/-- The querier is given the commands that the statements of differences are written for. -/
theorem runDocumentStatements_commands (q : Querier σ) (t : TableDiff) :
    q.runDocumentStatements (t.commands.map (·.toStatement)) = t.commands.forM q.runCommand := by
  rw [runDocumentStatements, mapM_readCommand_toStatement fun _ => t.isSome_collection?_of_mem]
  rfl

/-- A querier that accepts commands is given all of them. -/
theorem forM_runCommand_logged {q : Querier σ} {commands : List DocumentCommand}
    (haccepts : ∀ c ∈ commands, ∀ s, (q.runCommand c s).1 = .ok ()) (s : σ) (log : List QuerierCall) :
    commands.forM q.logged.runCommand (s, log) =
      (.ok (), (commands.forM q.runCommand s).2, log ++ commands.map fun c => ⟨.command c, true⟩) := by
  have haccepted : (commands.forM q.runCommand s).1 = .ok () := by
    clear log
    induction commands generalizing s with
    | nil => rfl
    | cons c rest ih =>
      have hfirst := haccepts c (.head rest) s
      change ((q.runCommand c >>= fun _ => rest.forM q.runCommand) s).1 = .ok ()
      rw [bind_apply]
      rcases hresult : q.runCommand c s with ⟨_ | _, s'⟩ <;> rw [hresult] at hfirst
      · cases hfirst
      · exact ih (fun d hd => haccepts d (.tail c hd)) s'
  have hcommand : ∀ c, Watches [QuerierUse.command c] (q.runCommand c) (q.logged.runCommand c) :=
    fun c => .noted _ _
  obtain ⟨tried, hlogged, hfollows, hsuccess⟩ := Watches.forM hcommand commands s log
  rw [haccepted] at hlogged hsuccess
  rw [hlogged, hfollows.eq_map hsuccess.symm, List.map_map]
  rfl

/-- Every command is read back from its statement. The statements of differences give a querier the commands that
they are written for, in their order, and all of them if it accepts them. Statements of which one is no command, or
a command without a collection, give it none. -/
theorem given_runDocumentStatements (q : Querier σ) :
    (∀ c : DocumentCommand, DocumentCommand.ofText? c.toStatement = some c) ∧
    (∀ t : TableDiff, let statements := t.commands.map (·.toStatement)
      q.runDocumentStatements statements = t.commands.forM q.runCommand ∧
      ((∀ c ∈ t.commands, ∀ s, (q.runCommand c s).1 = .ok ()) → ∀ s log,
        q.logged.runDocumentStatements statements (s, log) =
          (.ok (), (t.commands.forM q.runCommand s).2, log ++ t.commands.map fun c => ⟨.command c, true⟩))) ∧
    ∀ statements : List String, (∃ statement ∈ statements, ¬IsCommand statement) →
      ∃ e, ∀ s log, q.logged.runDocumentStatements statements (s, log) = (.error e, s, log) := by
  refine ⟨DocumentCommand.ofText?_toStatement,
    fun t => ⟨q.runDocumentStatements_commands t, fun haccepts s log => ?_⟩,
    fun statements ⟨statement, hmem, hstatement⟩ => ?_⟩
  · rw [q.logged.runDocumentStatements_commands t]
    exact forM_runCommand_logged haccepts s log
  · obtain ⟨e, he⟩ := q.logged.runDocumentStatements_of_not_isCommand hmem hstatement
    exact ⟨e, fun s log => he (s, log)⟩

/-- An index with characters that are escaped and a key that is called like the member for the action is created as
it was written. A command that leaves its collection open keeps the one before it from being given. -/
theorem given_runDocumentStatements_escaped :
    let q := Recording.querier { kind := .document }
    let index : Index :=
      { name := "by \"tag\"\\\n", table := "nötes", columns := ["action", "a\tb"], unique := true }
    let t : TableDiff := .alter "nötes" { addIndexes? := some [index] }
    let keys : Assoc Int32 := .ofPairs [("action", 1), ("a\tb", 1)]
    let unnamed : DocumentCommand := .dropCollection none
    (q.logged.runDocumentStatements (t.commands.map (·.toStatement)) ({}, [])).2.2 =
        [⟨.command (.createIndex (some "nötes") "by \"tag\"\\\n" keys true), true⟩] ∧
      ¬IsCommand unnamed.toStatement ∧
      ∃ e, ∀ s log,
        q.logged.runDocumentStatements (t.commands.map (·.toStatement) ++ [unnamed.toStatement]) (s, log) =
          (.error e, s, log) := by
  intro q index t keys unnamed
  obtain ⟨hread, hgiven, hnone⟩ := given_runDocumentStatements q
  have hopen : ¬IsCommand unnamed.toStatement := by
    rintro ⟨c, hc, hnamed⟩
    rw [hread] at hc
    cases hc
    cases hnamed
  refine ⟨?_, hopen, hnone _ ⟨_, List.mem_append_right _ (.head _), hopen⟩⟩
  rw [(hgiven t).2 (fun _ _ _ => rfl)]
  rfl

end Querier

end EntitySql
