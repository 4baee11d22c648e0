import TypedConfig.Failure.Equality
import TypedConfig.Failure.Report
import TypedConfig.FileTree
import TypedConfig.Json.Document
import TypedConfig.Loader
import TypedConfig.Proofs.Decoding.Accumulation
import TypedConfig.Proofs.Decoding.Binding
import TypedConfig.Proofs.Decoding.ElementOrder
import TypedConfig.Proofs.Decoding.EntryOrder
import TypedConfig.Proofs.Decoding.Extension
import TypedConfig.Proofs.Decoding.Extraction
import TypedConfig.Proofs.Decoding.Locators
import TypedConfig.Proofs.Decoding.Nullability
import TypedConfig.Proofs.Decoding.Numbers
import TypedConfig.Proofs.Decoding.Parts
import TypedConfig.Proofs.Decoding.Precedence
import TypedConfig.Proofs.Decoding.Preprocessing
import TypedConfig.Proofs.Decoding.Quoting
import TypedConfig.Proofs.Decoding.RoundTrip
import TypedConfig.Proofs.Decoding.Separated
import TypedConfig.Proofs.Decoding.Soundness
import TypedConfig.Proofs.Failure
import TypedConfig.Proofs.FieldName
import TypedConfig.Proofs.Grouping
import TypedConfig.Proofs.Json.Blanking
import TypedConfig.Proofs.Json.Faithful
import TypedConfig.Proofs.Loader
import TypedConfig.Proofs.Node
import TypedConfig.Proofs.ParsedTree
import TypedConfig.Proofs.References
import TypedConfig.Proofs.Report
import TypedConfig.Proofs.Resolution
import TypedConfig.Proofs.Source
import TypedConfig.Proofs.Yaml.TreeBuilder
import TypedConfig.Proofs.Yaml.Typing
import TypedConfig.Shape.Detail
