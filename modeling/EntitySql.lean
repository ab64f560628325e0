import EntitySql.LogEvent
import EntitySql.Settings
import EntitySql.Proofs.Condition.Precedence
import EntitySql.Proofs.Condition.Contents
import EntitySql.Proofs.Query.Noninterference
import EntitySql.Proofs.Query.Placeholders
import EntitySql.Proofs.Relation.Characterization
import EntitySql.Proofs.Relation.Failure
import EntitySql.Proofs.Relation.Reordering
import EntitySql.Proofs.Compile.Merge
import EntitySql.Proofs.Compile.Failure
import EntitySql.Proofs.Compile.Parameters
import EntitySql.Proofs.Compile.Narrowing
import EntitySql.Proofs.Compile.Loading
import EntitySql.Proofs.Compile.RootName
import EntitySql.Proofs.Query.Dialects
import EntitySql.Proofs.Query.Fragments
import EntitySql.Proofs.Query.Building
import EntitySql.Proofs.Schema.Document
import EntitySql.Proofs.Text.Quotation
import EntitySql.Proofs.Statement.Interpolation
import EntitySql.Proofs.Predicate.RightSide
import EntitySql.Proofs.Text.Parenthesis
import EntitySql.Proofs.Condition.Replacement
import EntitySql.Proofs.Compile.ColumnAliases
import EntitySql.Proofs.Condition.Padding
import EntitySql.Proofs.Statement.Substitution
import EntitySql.Proofs.Relation.Chain
