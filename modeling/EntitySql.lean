import EntitySql.Compile.FollowUp
import EntitySql.Explicit.Building
import EntitySql.Explicit.Dialect
import EntitySql.Explicit.Schema
import EntitySql.Explicit.Session
import EntitySql.Query.FromJson
import EntitySql.Sqlite.Catalog
import EntitySql.Sqlite.Connection
import EntitySql.Proofs.Redaction.Statement
import EntitySql.Proofs.Reading.Filter
import EntitySql.Proofs.Reading.Guard
import EntitySql.Proofs.Migration.Atomicity
import EntitySql.Proofs.Migration.Scope
import EntitySql.Proofs.Assoc
import EntitySql.Proofs.Schema.Order
import EntitySql.Proofs.Schema.Difference
import EntitySql.Proofs.Schema.Editing
import EntitySql.Proofs.Schema.Synchronization
import EntitySql.Proofs.Schema.SelfComparison
import EntitySql.Proofs.Schema.DefaultText
import EntitySql.Proofs.Schema.DefaultKey
import EntitySql.Proofs.Schema.DefaultLiteral
import EntitySql.Proofs.Schema.SafeExecution
import EntitySql.Proofs.Migration.Freshness
import EntitySql.Proofs.Migration.Idempotence
import EntitySql.Proofs.Migration.NestedScopes
import EntitySql.Proofs.Migration.Exclusion
import EntitySql.Proofs.Migration.Running
import EntitySql.Proofs.Migration.SyncAtomicity
import EntitySql.Proofs.Schema.Distribution
import EntitySql.Proofs.Schema.Mirroring
import EntitySql.Proofs.Schema.Respelling
import EntitySql.Proofs.Schema.StatementText
import EntitySql.Proofs.Schema.Commands
import EntitySql.Proofs.Schema.KeptReferences
import EntitySql.Proofs.Schema.OwnedCascades
import EntitySql.Proofs.Schema.ExistingColumns
import EntitySql.Proofs.Joins.Plan
import EntitySql.Proofs.Joins.Columns
import EntitySql.Proofs.Joins.Conditions
import EntitySql.Proofs.Joins.OutputNames
import EntitySql.Proofs.Joins.Exclusion
import EntitySql.Proofs.Joins.Projected
import EntitySql.Proofs.Clauses
import EntitySql.Proofs.FilterFaults
import EntitySql.Proofs.Restriction
import EntitySql.Proofs.WrittenRows
import EntitySql.Proofs.Conflicts
import EntitySql.Proofs.ComparedValues
import EntitySql.Proofs.Orders
import EntitySql.Proofs.FollowUp.Rows
import EntitySql.Proofs.FollowUp.NamedFields
import EntitySql.Proofs.FollowUp.ParentKey
import EntitySql.Proofs.TableText
import EntitySql.Proofs.References
import EntitySql.Proofs.Schema.Cycles
import EntitySql.Proofs.Schema.Links
import EntitySql.Proofs.Schema.KeyDeclaration
import EntitySql.Proofs.Decimal.ReadBack
import EntitySql.Proofs.Sqlite.Connection
import EntitySql.Proofs.Schema.IntegerDefaults
import EntitySql.Proofs.Schema.ColumnAlteration
import EntitySql.Proofs.Schema.Reversal
import EntitySql.Proofs.Sqlite.RowOrder
