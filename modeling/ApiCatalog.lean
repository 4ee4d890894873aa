import ApiCatalog.Text.Blank
import ApiCatalog.Text.CharClass
import ApiCatalog.Text.Casing
import ApiCatalog.Text.Escape
import ApiCatalog.Text.Pieces
import ApiCatalog.Text.Printable
import ApiCatalog.Number.Double
import ApiCatalog.Number.Decimal
import ApiCatalog.Number.Literal
import ApiCatalog.Json.Reader
import ApiCatalog.Json.Writer
import ApiCatalog.Document.Value
import ApiCatalog.Document.Display
import ApiCatalog.Model.Check
import ApiCatalog.Model.Export
import ApiCatalog.Naming.Case
import ApiCatalog.Naming.OperationId
import ApiCatalog.Naming.Route
import ApiCatalog.Generic.Notation
import ApiCatalog.Generic.Name
import ApiCatalog.Document.Access
import ApiCatalog.Extract.Remark
import ApiCatalog.Extract.Operation
import ApiCatalog.Extract.Catalog
import ApiCatalog.Yaml.Document
import ApiCatalog.Load.File
import ApiCatalog.Extract.Stages
import ApiCatalog.Proofs.Text.Cuts
import ApiCatalog.Proofs.Number.DoubleRange
import ApiCatalog.Proofs.Generic.Nesting
import ApiCatalog.Proofs.Generic.UseForm
import ApiCatalog.Proofs.Generic.TypeTree
import ApiCatalog.Proofs.Extract.Outcome
import ApiCatalog.Proofs.Document.Access
import ApiCatalog.Proofs.Extract.Omission
import ApiCatalog.Proofs.Extract.SchemaType
import ApiCatalog.Proofs.Extract.ReferenceForm
import ApiCatalog.Proofs.Extract.Declaration
import ApiCatalog.Proofs.Extract.SelfReference
import ApiCatalog.Proofs.Extract.Selection
import ApiCatalog.Proofs.Extract.TagSelection
import ApiCatalog.Proofs.Extract.ClassSelection
import ApiCatalog.Proofs.Extract.Resolution
import ApiCatalog.Proofs.Extract.Parameter
import ApiCatalog.Proofs.Extract.Grouping
import ApiCatalog.Proofs.Extract.TagModule
import ApiCatalog.Proofs.Extract.CatalogInvariant
import ApiCatalog.Proofs.Extract.BodyModel
import ApiCatalog.Proofs.Extract.DeclaredBody
import ApiCatalog.Proofs.Extract.PlainBody
import ApiCatalog.Proofs.Extract.Balance
import ApiCatalog.Proofs.Extract.EnumRange
import ApiCatalog.Proofs.Extract.WellTyped
import ApiCatalog.Proofs.Extract.TypedSchema
import ApiCatalog.Proofs.Extract.TypedDocument
import ApiCatalog.Proofs.Extract.ClassChoice
import ApiCatalog.Proofs.Number.DecimalText
import ApiCatalog.Proofs.Json.NumberText
import ApiCatalog.Proofs.Json.RoundTrip
import ApiCatalog.Proofs.Json.Characters
import ApiCatalog.Proofs.Model.CheckedForm
import ApiCatalog.Proofs.Model.RoundTrip
import ApiCatalog.Proofs.Load.SavedSettings
import ApiCatalog.Proofs.Yaml.Failure
import ApiCatalog.Proofs.Yaml.TokenFault
import ApiCatalog.Proofs.Yaml.NodeFault
import ApiCatalog.Proofs.Yaml.ScalarFault
import ApiCatalog.Proofs.Json.LongNumber
import ApiCatalog.Proofs.Load.FileOutcome
import ApiCatalog.Proofs.Number.WholeDouble
import ApiCatalog.Proofs.Number.WholeLiteral
import ApiCatalog.Proofs.Extract.NumericTwin
import ApiCatalog.Proofs.Extract.SafeEnum
import ApiCatalog.Proofs.Extract.WholeEnum
import ApiCatalog.Proofs.Number.ShownWhole
import ApiCatalog.Proofs.Extract.SecondPass
import ApiCatalog.Proofs.Generic.NameParts
import ApiCatalog.Proofs.Extract.GenericReference
import ApiCatalog.Proofs.Extract.PlainReference
import ApiCatalog.Proofs.Generic.ArgumentList
import ApiCatalog.Proofs.Generic.EarlyClosing
import ApiCatalog.Proofs.Extract.SelectedClasses
import ApiCatalog.Proofs.Extract.DanglingBody
import ApiCatalog.Proofs.Naming.Segments
import ApiCatalog.Proofs.Naming.SharedLead
import ApiCatalog.Proofs.Naming.RemainingRoute
import ApiCatalog.Proofs.Naming.Shortening
import ApiCatalog.Proofs.Text.Capitals
import ApiCatalog.Proofs.Naming.RouteTemplate
import ApiCatalog.Proofs.Naming.LastClause
import ApiCatalog.Proofs.Extract.OperationPair
import ApiCatalog.Proofs.Extract.BodyType
import ApiCatalog.Proofs.Extract.FirstParameter
import ApiCatalog.Proofs.Naming.WordCase
import ApiCatalog.Proofs.Naming.CamelName
import ApiCatalog.Proofs.Json.Entries
import ApiCatalog.Proofs.Json.Source
import ApiCatalog.Proofs.Json.SourceReading
import ApiCatalog.Proofs.Yaml.FlowNodes
import ApiCatalog.Proofs.Yaml.PlainNodes
import ApiCatalog.Proofs.Yaml.FlowValue
import ApiCatalog.Proofs.Yaml.CursorMoves
import ApiCatalog.Proofs.Yaml.ScanSteps
import ApiCatalog.Proofs.Yaml.ScanScalars
import ApiCatalog.Proofs.Yaml.ScanPlain
import ApiCatalog.Proofs.Yaml.JsonFlow
import ApiCatalog.Proofs.Yaml.JsonTokens
import ApiCatalog.Proofs.Yaml.NumeralKind
import ApiCatalog.Proofs.Yaml.JsonValue
import ApiCatalog.Proofs.Yaml.JsonDocument
import ApiCatalog.Proofs.Load.HintAgreement
