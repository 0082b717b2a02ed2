import FeatureQuery.Main
import FeatureQuery.Session.History
import FeatureQuery.Proofs.Outcome
import FeatureQuery.Proofs.Query.Balance
import FeatureQuery.Proofs.Query.Apart
import FeatureQuery.Proofs.Query.Splitting
import FeatureQuery.Proofs.Query.Wrapping
import FeatureQuery.Proofs.Query.Reading
import FeatureQuery.Proofs.Query.Printing
import FeatureQuery.Proofs.Predicate.Compiling
import FeatureQuery.Proofs.Predicate.Evaluation
import FeatureQuery.Proofs.Predicate.Selection
import FeatureQuery.Proofs.Session.FilterText
import FeatureQuery.Proofs.Session.Steps
import FeatureQuery.Proofs.Session.Soundness
import FeatureQuery.Proofs.Session.Matching
import FeatureQuery.Proofs.Session.Algebra
import FeatureQuery.Proofs.Query.Pieces
import FeatureQuery.Proofs.Query.Rereading
import FeatureQuery.Proofs.Predicate.Quoting
import FeatureQuery.Proofs.Session.Saved
import FeatureQuery.Proofs.Query.Written
import FeatureQuery.Proofs.Wildcards.Keyword
import FeatureQuery.Proofs.Wildcards.Operands
import FeatureQuery.Proofs.Wildcards.Occurrences
import FeatureQuery.Proofs.Wildcards.Translation
import FeatureQuery.Proofs.Wildcards.Stability
import FeatureQuery.Proofs.Wildcards.Meaning
import FeatureQuery.Proofs.Number.Rounding
import FeatureQuery.Proofs.Number.Shortest
import FeatureQuery.Proofs.Number.Plain
import FeatureQuery.Proofs.Cli.Exports
import FeatureQuery.Proofs.Cli.Hosts
import FeatureQuery.Proofs.Predicate.Patterns
import FeatureQuery.Proofs.Session.Failures
import FeatureQuery.Proofs.Json.Numbers
import FeatureQuery.Proofs.Json.Strings
import FeatureQuery.Proofs.Json.Tokens
import FeatureQuery.Proofs.Json.Values
import FeatureQuery.Proofs.GeoJson.Geometries
import FeatureQuery.Proofs.Record.Rereading
import FeatureQuery.Proofs.Record.Reloading
import FeatureQuery.Proofs.Query.Grouping
import FeatureQuery.Proofs.Query.Chains
import FeatureQuery.Proofs.Query.Scanning
import FeatureQuery.Proofs.Cli.Effects
import FeatureQuery.Proofs.Predicate.Comparing
import FeatureQuery.Proofs.Predicate.Settling
import FeatureQuery.Proofs.Export.Tables
import FeatureQuery.Proofs.Predicate.Searching
import FeatureQuery.Proofs.Query.Keeping
import FeatureQuery.Proofs.Query.Words
import FeatureQuery.Proofs.Query.Shape
import FeatureQuery.Proofs.Predicate.Schemas
import FeatureQuery.Proofs.Predicate.Fields
import FeatureQuery.Proofs.Json.Following
import FeatureQuery.Proofs.Record.Lines
import FeatureQuery.Proofs.Bytes.Positions
import FeatureQuery.Proofs.Bytes.Scan
import FeatureQuery.Proofs.Bytes.Literals
import FeatureQuery.Proofs.Bytes.Groups
import FeatureQuery.Proofs.Bytes.Operators
import FeatureQuery.Proofs.Bytes.Parsing
import FeatureQuery.Proofs.Bytes.Keywords
import FeatureQuery.Proofs.Bytes.InBounds
import FeatureQuery.Proofs.Number.Nearest
import FeatureQuery.Proofs.Number.Recognition
