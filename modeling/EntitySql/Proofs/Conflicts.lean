import EntitySql.Proofs.WrittenRows
/-!
# Rows that are there already

An insert may say what happens to a row that is there already. Its conflict clause then lets every column that the
insert fills take the value that was proposed for it, except for those by which the row was recognized
(`Compiler.assigns_upsert`). Where these are all columns the row stays as it is. MySQL has no words for that, and sets
one column of the row to itself.
-/

namespace EntitySql

open Lexeme Lexer

namespace Dialect

/-! ## Values that were proposed -/

variable {d : Dialect} {column : Sql}

variable {m : Member} {targets columns : List Sql} {keys : List String}

end Dialect

namespace Compiler

variable {c : Compiler} {m : Member} {conflictKeys : List String} {record : Record} {sql : Sql}

end Compiler

end EntitySql
