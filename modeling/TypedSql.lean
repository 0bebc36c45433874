import TypedSql.Catalog.Memory
import TypedSql.Main
import TypedSql.Proofs.Annotation.Grammar
import TypedSql.Proofs.Catalog.Walk
import TypedSql.Proofs.Command.Check
import TypedSql.Proofs.Connection.Settings
import TypedSql.Proofs.Inference.Alignment
import TypedSql.Proofs.Inference.Columns
import TypedSql.Proofs.Inference.Stopping
import TypedSql.Proofs.Placeholder.Numbering
import TypedSql.Proofs.Placeholder.Ordinals
import TypedSql.Proofs.Plan.Literal
import TypedSql.Proofs.Plan.Nullability
import TypedSql.Proofs.QueryFile.Append
import TypedSql.Proofs.QueryFile.Comments
import TypedSql.Proofs.QueryFile.Doc
import TypedSql.Proofs.QueryFile.Errors
import TypedSql.Proofs.QueryFile.Print
import TypedSql.Proofs.Report.Json
import TypedSql.Proofs.Resolution.Failure
import TypedSql.Proofs.Resolution.Rounds
import TypedSql.Proofs.Settings.Exclusion
import TypedSql.Proofs.Token.Call
import TypedSql.Proofs.Token.Exact
import TypedSql.Proofs.Token.Fragment
import TypedSql.Proofs.Token.Name
