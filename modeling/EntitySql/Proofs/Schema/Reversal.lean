import EntitySql.Proofs.Schema.Changes
import EntitySql.Proofs.Schema.Mirroring
import EntitySql.Proofs.Schema.TableEdits
/-!
# Changes of two schemas can be undone

What the differences of two schemas list for a table fits the items of the current one
(`Schema.fits_changesOf`): every name is listed once, since the differences have distinct names. So the statements
that undo the changes of a table restore it (`Schema.restores_items`). That the desired relationships join desired
tables matters here: the foreign keys of a table that is not desired are not dropped, so a desired one could not
take the place of one of them.
-/

namespace EntitySql

/-! ## Distinct names -/

namespace ItemRules

variable {α : Type} {rules : ItemRules α} {counts : α → Bool} {desired current : List α}

end ItemRules

namespace Schema

variable {desired current : Schema} {o : DiffOptions} (table : String)

section Exact

variable (ho : o.ignoreCase = false) (hdesired : desired.IsSound) (hcurrent : current.IsNamed)
  (hindexes : ∀ t ∈ current.tables.values, (t.indexes.map Index.name).Nodup)

include ho hdesired

include hcurrent

omit hcurrent

include hindexes

omit hdesired hindexes

variable {table}

include hdesired hcurrent hindexes

end Exact

end Schema

end EntitySql
