import ObjectMapping.FieldType
import ObjectMapping.Error
import ObjectMapping.Decimal
import ObjectMapping.DateTime
import ObjectMapping.Text.Identifier
import ObjectMapping.Text.Blank
import ObjectMapping.Text.Utf8
import ObjectMapping.Text.Pattern
import ObjectMapping.Enumeration
import ObjectMapping.Value
import ObjectMapping.Shape
import ObjectMapping.Registry
import ObjectMapping.Nullable
import ObjectMapping.Action
import ObjectMapping.Expr.Render
import ObjectMapping.Transaction.Run
import ObjectMapping.Json.Writer
import ObjectMapping.Json.Context
import ObjectMapping.Json.Encode
import ObjectMapping.Json.Decode
import ObjectMapping.Sqlite.Config
import ObjectMapping.Sqlite.Engine
import ObjectMapping.Sqlite.Connection
import ObjectMapping.Transaction.Scripted
import ObjectMapping.Transaction.History
import ObjectMapping.Json.Access
import ObjectMapping.Wire.Expr
import ObjectMapping.Wire.Schema
import ObjectMapping.Wire.Statement
import ObjectMapping.Proofs.Transaction.Lifetime
import ObjectMapping.Sql.Token
import ObjectMapping.Sql.Parse
import ObjectMapping.Expr.Term
import ObjectMapping.Proofs.Json.RoundTrip
import ObjectMapping.Proofs.Sql.Quotations
import ObjectMapping.Proofs.Sql.Grouping
import ObjectMapping.Proofs.Sql.Parameters
import ObjectMapping.Proofs.Transaction.Failure
import ObjectMapping.Proofs.Row
import ObjectMapping.Proofs.Json.Omission
import ObjectMapping.Proofs.Transaction.Boundary
import ObjectMapping.Proofs.Transaction.Tidy
import ObjectMapping.Proofs.Transaction.GeneratedKey
import ObjectMapping.Proofs.Sql.Keyed
import ObjectMapping.Proofs.Sqlite.Cell
import ObjectMapping.Proofs.Field.Default
import ObjectMapping.Field.Access
import ObjectMapping.Proofs.Field.Access
import ObjectMapping.Proofs.Registry.Admissible
import ObjectMapping.Registry.Admissible
import ObjectMapping.Json.Polymorphic
import ObjectMapping.Proofs.Json.Tag
import ObjectMapping.Value.Place
import ObjectMapping.Json.Events
import ObjectMapping.Proofs.Value.Place
import ObjectMapping.Proofs.Json.Events
import ObjectMapping.Proofs.Json.Resolver
import ObjectMapping.DateTime.Calendar
import ObjectMapping.DateTime.Word
import ObjectMapping.Proofs.DateTime.Calendar
import ObjectMapping.Proofs.DateTime.Unix
import ObjectMapping.Statement.Assigned
import ObjectMapping.Proofs.Sql.Assigned
import ObjectMapping.Proofs.Enumeration.Text
import ObjectMapping.Proofs.DateTime.Order
import ObjectMapping.Proofs.Sqlite.Time
import ObjectMapping.Edit
import ObjectMapping.Json.Visits
import ObjectMapping.Json.Prune
import ObjectMapping.Json.InPlace
import ObjectMapping.Proofs.Edit
import ObjectMapping.Proofs.Field.Typed
import ObjectMapping.Proofs.Json.Visits
import ObjectMapping.Proofs.Json.Encoding
import ObjectMapping.Proofs.Json.Ordered
import ObjectMapping.Proofs.Json.Pruning
import ObjectMapping.Proofs.Json.Failure
import ObjectMapping.Proofs.Json.Repetition
import ObjectMapping.Json.Interchange
import ObjectMapping.Field.Lossless
import ObjectMapping.Descriptor.Construct
import ObjectMapping.Proofs.Json.Interchange
import ObjectMapping.Proofs.Field.Lossless
import ObjectMapping.Proofs.Registry.Order
import ObjectMapping.Proofs.Descriptor.Construct
import ObjectMapping.Expr.Calls
import ObjectMapping.Proofs.Expr.Tree
import ObjectMapping.Proofs.Expr.Calls
import ObjectMapping.Expr.Expressible
import ObjectMapping.Proofs.Expr.Expressible
import ObjectMapping.Expr.Connective
import ObjectMapping.Proofs.Expr.Connective
import ObjectMapping.Proofs.Field.Column
import ObjectMapping.Field.Integer
import ObjectMapping.Decimal.Whole
import ObjectMapping.Proofs.Decimal
import ObjectMapping.Proofs.Field.Integer
import ObjectMapping.Statement.Steps
import ObjectMapping.Proofs.Statement.Steps
import ObjectMapping.Statement.Changes
import ObjectMapping.Proofs.Statement.Changes
import ObjectMapping.Transaction.Cursor
import ObjectMapping.Proofs.Transaction.Cursor
import ObjectMapping.Proofs.Sqlite.Engine
