import RecordQuery.Catalog
import RecordQuery.CommandLine.Help
import RecordQuery.CommandLine.Run
import RecordQuery.CommandLine.Usage
import RecordQuery.Decimal.Notation
import RecordQuery.Decimal.Shortest
import RecordQuery.Driver.Collection
import RecordQuery.Driver.Compile
import RecordQuery.Driver.Config
import RecordQuery.Driver.Match
import RecordQuery.Driver.Prepared
import RecordQuery.Eval.Calls
import RecordQuery.Eval.Context
import RecordQuery.Eval.Filters
import RecordQuery.Eval.Meaning
import RecordQuery.Eval.Operators
import RecordQuery.Eval.Source
import RecordQuery.Eval.State
import RecordQuery.Expr.Basic
import RecordQuery.Expr.Operator
import RecordQuery.Expr.Text
import RecordQuery.Expr.Walk
import RecordQuery.ItemId
import RecordQuery.Json.Basic
import RecordQuery.Json.Draft
import RecordQuery.Json.Number
import RecordQuery.Json.Printer
import RecordQuery.Json.Reader
import RecordQuery.Json.Token
import RecordQuery.Locale.Chain
import RecordQuery.Locale.Translations
import RecordQuery.Main
import RecordQuery.Named
import RecordQuery.Parameters
import RecordQuery.Proofs.Catalog.Brackets
import RecordQuery.Proofs.Driver.Brackets
import RecordQuery.Proofs.Driver.Match
import RecordQuery.Proofs.Eval.Comparison
import RecordQuery.Proofs.Eval.Comparison.Meanings
import RecordQuery.Proofs.Eval.Comparison.Sources
import RecordQuery.Proofs.Eval.Conditions
import RecordQuery.Proofs.Eval.Contexts
import RecordQuery.Proofs.Eval.Descent
import RecordQuery.Proofs.Eval.Discipline
import RecordQuery.Proofs.Eval.Discipline.Meanings
import RecordQuery.Proofs.Eval.Fusion
import RecordQuery.Proofs.Eval.Grouping
import RecordQuery.Proofs.Eval.Nesting
import RecordQuery.Proofs.Eval.Positions
import RecordQuery.Proofs.Eval.Progress
import RecordQuery.Proofs.Records.Latest
import RecordQuery.Proofs.Records.Match
import RecordQuery.Proofs.Session.Bindings
import RecordQuery.Proofs.Text.Glob
import RecordQuery.Proofs.Value.Stored
import RecordQuery.Query.Error
import RecordQuery.Query.Event
import RecordQuery.Query.Object
import RecordQuery.Query.Tape
import RecordQuery.Records.Filter
import RecordQuery.Records.Latest
import RecordQuery.Records.Load
import RecordQuery.Session
import RecordQuery.Text.Blank
import RecordQuery.Text.Cut
import RecordQuery.Text.Glob
import RecordQuery.Value.Basic
import RecordQuery.Value.Equality
import RecordQuery.Value.Fingerprint
import RecordQuery.Value.Json
import RecordQuery.Value.Record
import RecordQuery.Value.Text
import RecordQuery.Version.Basic
import RecordQuery.Version.Range
import RecordQuery.Version.Reader
import RecordQuery.Proofs.Expr.Blame
import RecordQuery.Proofs.Eval.Blame
import RecordQuery.Proofs.Eval.Parameters
import RecordQuery.Proofs.Eval.Scoping
import RecordQuery.Proofs.Eval.Renaming
import RecordQuery.Proofs.Driver.Selection
import RecordQuery.Proofs.Eval.Targets
import RecordQuery.Proofs.Eval.SinglePass
import RecordQuery.Proofs.Catalog.Accounting
import RecordQuery.Proofs.Session.SinglePass
import RecordQuery.Proofs.Eval.Streaming
import RecordQuery.Proofs.Eval.Eager
import RecordQuery.Proofs.Eval.Laziness
import RecordQuery.Proofs.Eval.Laziness.Sources
import RecordQuery.Proofs.Eval.Laziness.Opening
import RecordQuery.Proofs.Eval.Laziness.Meanings
import RecordQuery.Proofs.Eval.Culprits
import RecordQuery.Proofs.Json.Members
import RecordQuery.Proofs.Value.Equality
import RecordQuery.Proofs.Value.Members
import RecordQuery.Proofs.Value.RoundTrip
import RecordQuery.Proofs.Driver.Translations
import RecordQuery.Proofs.Eval.HandOver
import RecordQuery.Proofs.Driver.Pipeline
import RecordQuery.Proofs.Version.Range
import RecordQuery.Proofs.Json.Canonical
import RecordQuery.Proofs.Value.Normalization
import RecordQuery.Proofs.Eval.Sifting
import RecordQuery.Proofs.Eval.Newest
import RecordQuery.Proofs.Version.Grammar
import RecordQuery.Proofs.Text.Bytes
import RecordQuery.Proofs.Version.Order
import RecordQuery.Proofs.Version.Interval
import RecordQuery.Proofs.Eval.StarPatterns
import RecordQuery.Proofs.Value.Order
import RecordQuery.Proofs.Eval.Relations
import RecordQuery.Proofs.Eval.Pulls
import RecordQuery.Proofs.Eval.Repetitions
import RecordQuery.Proofs.Eval.Quantifiers
import RecordQuery.Proofs.Eval.FilterLaws
import RecordQuery.Proofs.Eval.Merging
import RecordQuery.Proofs.Locale.Chain
import RecordQuery.Proofs.Locale.Documents
import RecordQuery.Proofs.Eval.Localization
import RecordQuery.Proofs.Eval.Visibility
