import QueryLayer.Build.Call
import QueryLayer.Json.Row
import QueryLayer.Main
import QueryLayer.Pattern
import QueryLayer.Proofs.Build.Programs
import QueryLayer.Proofs.Build.Ranges
import QueryLayer.Proofs.Dialect.History
import QueryLayer.Proofs.Document.Columns
import QueryLayer.Proofs.Json.Create
import QueryLayer.Proofs.Json.Script
import QueryLayer.Proofs.Language.Canonical
import QueryLayer.Proofs.Language.Inserted
import QueryLayer.Proofs.Language.Prepared
import QueryLayer.Proofs.Language.Selection
import QueryLayer.Proofs.Language.Sizes
import QueryLayer.Proofs.Language.Stored
import QueryLayer.Proofs.Names.Counted
import QueryLayer.Proofs.Names.Defined
import QueryLayer.Proofs.Names.References
import QueryLayer.Proofs.Pattern.Lines
import QueryLayer.Proofs.Session.Calls
import QueryLayer.Proofs.Sql.LikePredicate
import QueryLayer.Proofs.Sql.Positions
import QueryLayer.Proofs.Sql.Spaced
