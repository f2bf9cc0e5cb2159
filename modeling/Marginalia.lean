import Marginalia.Association.Index
import Marginalia.Association.Lookup
import Marginalia.Association.Matcher
import Marginalia.Association.Record
import Marginalia.Association.Window
import Marginalia.Batch.Basic
import Marginalia.Batch.Document
import Marginalia.Comment.Basic
import Marginalia.Comment.Marker
import Marginalia.Comment.OfSpans
import Marginalia.Comment.Prose
import Marginalia.Decimal.Shortest
import Marginalia.Diagnostic
import Marginalia.Dialect.Basic
import Marginalia.Dialect.Registry
import Marginalia.Dialect.Rules
import Marginalia.Dialect.Tables
import Marginalia.Header.Analysis
import Marginalia.Header.Brackets
import Marginalia.Header.Decoration
import Marginalia.Header.Shape
import Marginalia.Notice
import Marginalia.Path
import Marginalia.Pattern.Basic
import Marginalia.Pattern.Match
import Marginalia.Pattern.Reader
import Marginalia.Scan.Basic
import Marginalia.Scan.Options
import Marginalia.Scope.Basic
import Marginalia.Scope.Opening
import Marginalia.Scope.Tracker
import Marginalia.Settings.Basic
import Marginalia.Settings.Check
import Marginalia.Settings.Error
import Marginalia.Settings.File
import Marginalia.Settings.Log
import Marginalia.Settings.Overrides
import Marginalia.Span.Basic
import Marginalia.Span.Lexeme
import Marginalia.Span.OfText
import Marginalia.Text.Base64
import Marginalia.Text.Blank
import Marginalia.Text.Case
import Marginalia.Text.Fold
import Marginalia.Text.Integer
import Marginalia.Text.Lines
import Marginalia.Text.Occurrence
import Marginalia.Text.Printable
import Marginalia.Text.Quoted
import Marginalia.Text.Ranges
import Marginalia.Text.Word
import Marginalia.Token.Basic
import Marginalia.Token.OfSpans
import Marginalia.Value.Basic
import Marginalia.Value.Error
import Marginalia.Value.Json
import Marginalia.Value.Moment
import Marginalia.Value.Shown
import Marginalia.Yaml.Cursor
import Marginalia.Yaml.Node
import Marginalia.Yaml.Number
import Marginalia.Yaml.Reader
import Marginalia.Yaml.Scalar
import Marginalia.Yaml.Tag
import Marginalia.Yaml.Timestamp
import Marginalia.Yaml.Token
import Marginalia.Yaml.Writer
import Marginalia.Proofs.Header.Innermost
import Marginalia.Proofs.Scope.Step
import Marginalia.Proofs.Scope.Nesting
import Marginalia.Proofs.Association.Encounter
import Marginalia.Proofs.Dialect.Plain
import Marginalia.Proofs.Span.Tiling
import Marginalia.Proofs.Comment.Grouping
import Marginalia.Proofs.Association.Stream
import Marginalia.Proofs.Association.Account
import Marginalia.Proofs.Association.Binding
import Marginalia.Proofs.Association.Prefix
import Marginalia.Proofs.Association.Following
import Marginalia.Proofs.Association.Placement
import Marginalia.Proofs.Header.Moved
import Marginalia.Proofs.Scope.Moved
import Marginalia.Proofs.Association.Moved
import Marginalia.Proofs.Span.Joined
import Marginalia.Proofs.Text.Joined
import Marginalia.Proofs.Token.Joined
import Marginalia.Proofs.Comment.Joined
import Marginalia.Proofs.Scan.Joined
import Marginalia.Proofs.Span.Body
import Marginalia.Proofs.Span.Alternative
import Marginalia.Proofs.Span.Described
import Marginalia.Proofs.Span.Partition
import Marginalia.Proofs.Span.Search
import Marginalia.Proofs.Span.Resumed
import Marginalia.Proofs.Scope.Braces
import Marginalia.Proofs.Scan.Braces
import Marginalia.Proofs.Association.Ceiling
import Marginalia.Proofs.Association.Enclosing
import Marginalia.Proofs.Association.Lookup
import Marginalia.Proofs.Scan.Inner
import Marginalia.Proofs.Association.Statement
import Marginalia.Proofs.Dialect.Registry
import Marginalia.Proofs.Scan.Located
import Marginalia.Proofs.Scan.Lazy
import Marginalia.Proofs.Batch.Mapped
import Marginalia.Proofs.Text.Returns
import Marginalia.Proofs.Span.Returns
import Marginalia.Proofs.Token.Returns
import Marginalia.Proofs.Settings.Refused
import Marginalia.Proofs.Value.Scalars
import Marginalia.Proofs.Value.RoundTrip
import Marginalia.Proofs.Settings.Saved
import Marginalia.Proofs.Header.Bracketed
import Marginalia.Proofs.Header.Undecorated
import Marginalia.Proofs.Header.Lists
import Marginalia.Proofs.Header.Classes
import Marginalia.Proofs.Header.Methods
import Marginalia.Proofs.Header.Argument
import Marginalia.Proofs.Association.BackToBack
import Marginalia.Proofs.Association.Passed
import Marginalia.Proofs.Scope.Statements
import Marginalia.Proofs.Scope.Recent
import Marginalia.Proofs.Scope.Parens
import Marginalia.Proofs.Association.Undisturbed
import Marginalia.Proofs.Association.Detached
import Marginalia.Proofs.Scan.Covering
import Marginalia.Proofs.Comment.Trailing
import Marginalia.Proofs.Comment.Cut
import Marginalia.Proofs.Comment.Runs
import Marginalia.Proofs.Comment.Content
import Marginalia.Proofs.Association.Forest
import Marginalia.Proofs.Header.Decorators
import Marginalia.Proofs.Comment.Styles
import Marginalia.Proofs.Span.Nested
import Marginalia.Proofs.Span.Bounded
import Marginalia.Proofs.Header.Signatures
import Marginalia.Proofs.Comment.NormalForm
import Marginalia.Proofs.Comment.Visible
import Marginalia.Proofs.Position
import Marginalia.Proofs.Scope.Linked
import Marginalia.Proofs.Header.Positions
import Marginalia.Proofs.Header.InRange
