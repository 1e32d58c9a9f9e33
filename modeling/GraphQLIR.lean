import GraphQLIR.Document.Spreads
import GraphQLIR.Json.Text
import GraphQLIR.Output.Reading
import GraphQLIR.Output.Run
import GraphQLIR.Proofs.Document.Models
import GraphQLIR.Proofs.Model.Forest
import GraphQLIR.Proofs.Model.Rebuilding
import GraphQLIR.TypeSystem.BuiltIn
import GraphQLIR.Proofs.Document.Batches
import GraphQLIR.Proofs.Selection.Checks
import GraphQLIR.Proofs.Document.Faults
import GraphQLIR.Proofs.Record.Normalization
import GraphQLIR.Proofs.Schema.Routing
import GraphQLIR.Proofs.Json.Equality
import GraphQLIR.Proofs.Json.Parts
import GraphQLIR.Proofs.Selection.Equality
import GraphQLIR.Proofs.Record.Equality
import GraphQLIR.Proofs.Document.Equality
import GraphQLIR.Proofs.Document.Dependence
import GraphQLIR.Proofs.Schema.Partition
import GraphQLIR.Proofs.Record.Retyping
import GraphQLIR.Proofs.Schema.Order
import GraphQLIR.Proofs.Schema.Editing
import GraphQLIR.Proofs.Document.Resolution
import GraphQLIR.Proofs.Selection.Faults
import GraphQLIR.Proofs.Output.Composition
import GraphQLIR.Proofs.Json.Flags
import GraphQLIR.Proofs.Record.Flags
import GraphQLIR.Proofs.Selection.Flags
import GraphQLIR.Proofs.Document.Flags
import GraphQLIR.Proofs.Model.Flags
import GraphQLIR.Proofs.Model.Passes
import GraphQLIR.Proofs.Selection.Image
import GraphQLIR.Proofs.Model.Stability
import GraphQLIR.Proofs.Model.ValidNames
import GraphQLIR.Proofs.Document.Verification
import GraphQLIR.Proofs.Schema.Faults
import GraphQLIR.Proofs.Directives.Equality
import GraphQLIR.Proofs.TypeSystem.TypeTexts
import GraphQLIR.Proofs.Document.SourceTexts
import GraphQLIR.Proofs.Selection.Projections
import GraphQLIR.Proofs.Value.Numbers
import GraphQLIR.Proofs.Text.Capitals
import GraphQLIR.Proofs.Text.Words
import GraphQLIR.Proofs.Model.Search
import GraphQLIR.Proofs.Output.Alike
import GraphQLIR.Proofs.Output.Reading
