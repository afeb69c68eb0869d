import EntityMapper.Backend
import EntityMapper.Backend.Config
import EntityMapper.Backend.Embedded
import EntityMapper.Backend.Scripted
import EntityMapper.DateTime
import EntityMapper.DateTime.Text
import EntityMapper.Declaration
import EntityMapper.Declaration.Attribute
import EntityMapper.Declaration.Implementation
import EntityMapper.Declaration.Lexeme
import EntityMapper.Declaration.Path
import EntityMapper.Dialect
import EntityMapper.Document
import EntityMapper.Document.Grammar
import EntityMapper.Double
import EntityMapper.Double.Rounding
import EntityMapper.Double.Text
import EntityMapper.Engine.Cell
import EntityMapper.Engine.Evaluate
import EntityMapper.Engine.Grammar
import EntityMapper.Engine.Number
import EntityMapper.Engine.Run
import EntityMapper.Engine.Sql
import EntityMapper.Engine.Store
import EntityMapper.Engine.Token
import EntityMapper.Error
import EntityMapper.FieldType
import EntityMapper.Graph
import EntityMapper.Graph.Occurrence
import EntityMapper.Predicate.Column
import EntityMapper.Predicate.Compile
import EntityMapper.Predicate.Condition
import EntityMapper.Predicate.Expr
import EntityMapper.Predicate.Inspect
import EntityMapper.Predicate.Qualifier
import EntityMapper.Proofs.Declaration.Attributes
import EntityMapper.Proofs.Declaration.Derived
import EntityMapper.Proofs.Declaration.Expansion
import EntityMapper.Proofs.Declaration.Handles
import EntityMapper.Proofs.Declaration.Source
import EntityMapper.Proofs.Engine.FloatExact
import EntityMapper.Proofs.Engine.FloatNearest
import EntityMapper.Proofs.Engine.Kept
import EntityMapper.Proofs.Engine.Rows
import EntityMapper.Proofs.Fallible
import EntityMapper.Proofs.FieldNumbers
import EntityMapper.Proofs.FieldRoundtrip
import EntityMapper.Proofs.FieldTexts
import EntityMapper.Proofs.Filter.Alongside
import EntityMapper.Proofs.Filter.Compile
import EntityMapper.Proofs.Filter.Exchanged
import EntityMapper.Proofs.Filter.Grouping
import EntityMapper.Proofs.Filter.Lexeme
import EntityMapper.Proofs.Filter.Meaning
import EntityMapper.Proofs.Filter.Parameters
import EntityMapper.Proofs.Filter.Reader
import EntityMapper.Proofs.Filter.Rerooted
import EntityMapper.Proofs.Filter.Resolved
import EntityMapper.Proofs.Filter.Surface
import EntityMapper.Proofs.Filter.TextMatch
import EntityMapper.Proofs.Filter.Translation
import EntityMapper.Proofs.Filter.Written
import EntityMapper.Proofs.Graph.Assembly
import EntityMapper.Proofs.Graph.Consistent
import EntityMapper.Proofs.Graph.Depth
import EntityMapper.Proofs.Graph.Distinct
import EntityMapper.Proofs.Graph.FirstSeen
import EntityMapper.Proofs.Graph.Forest
import EntityMapper.Proofs.Graph.Grouping
import EntityMapper.Proofs.Graph.Growth
import EntityMapper.Proofs.Graph.Identity
import EntityMapper.Proofs.Graph.Lineage
import EntityMapper.Proofs.Graph.Materialize
import EntityMapper.Proofs.Graph.NodeText
import EntityMapper.Proofs.Graph.Numbering
import EntityMapper.Proofs.Graph.Readable
import EntityMapper.Proofs.Graph.Reading
import EntityMapper.Proofs.Graph.Roots
import EntityMapper.Proofs.Graph.RowOrder
import EntityMapper.Proofs.Graph.Sharing
import EntityMapper.Proofs.Graph.Sound
import EntityMapper.Proofs.Graph.Sweep
import EntityMapper.Proofs.Join.Aliases
import EntityMapper.Proofs.Join.Alike
import EntityMapper.Proofs.Join.Cells
import EntityMapper.Proofs.Join.Cycles
import EntityMapper.Proofs.Join.Labels
import EntityMapper.Proofs.Join.Product
import EntityMapper.Proofs.Join.Roundtrip
import EntityMapper.Proofs.Join.Rows
import EntityMapper.Proofs.Session.Accepted
import EntityMapper.Proofs.Session.Accounts
import EntityMapper.Proofs.Session.Addressed
import EntityMapper.Proofs.Session.Announced
import EntityMapper.Proofs.Session.Bound
import EntityMapper.Proofs.Session.Commands
import EntityMapper.Proofs.Session.Counts
import EntityMapper.Proofs.Session.Course
import EntityMapper.Proofs.Session.Deeds
import EntityMapper.Proofs.Session.Discipline
import EntityMapper.Proofs.Session.Exchange
import EntityMapper.Proofs.Session.Existence
import EntityMapper.Proofs.Session.Filtered
import EntityMapper.Proofs.Session.Interleaving
import EntityMapper.Proofs.Session.ListStore
import EntityMapper.Proofs.Session.Meets
import EntityMapper.Proofs.Session.Notices
import EntityMapper.Proofs.Session.ObjectChanges
import EntityMapper.Proofs.Session.Operations
import EntityMapper.Proofs.Session.Prefixes
import EntityMapper.Proofs.Session.Preview
import EntityMapper.Proofs.Session.Rebuild
import EntityMapper.Proofs.Session.Recorded
import EntityMapper.Proofs.Session.Restore
import EntityMapper.Proofs.Session.SaveRace
import EntityMapper.Proofs.Session.SaveTwice
import EntityMapper.Proofs.Session.Service
import EntityMapper.Proofs.Session.Store
import EntityMapper.Proofs.Session.Totals
import EntityMapper.Proofs.Session.Untraced
import EntityMapper.Proofs.Session.Validation
import EntityMapper.Proofs.Session.Writable
import EntityMapper.Proofs.Statement.Definition
import EntityMapper.Proofs.Statement.LineEnds
import EntityMapper.Proofs.Statement.Placeholders
import EntityMapper.Proofs.Statement.Required
import EntityMapper.Proofs.Statement.Spelled
import EntityMapper.Proofs.Statement.Substitution
import EntityMapper.Proofs.Text.DateTimeOrder
import EntityMapper.Proofs.Text.DateTimePrecision
import EntityMapper.Proofs.Text.DateTimeReading
import EntityMapper.Proofs.Text.DateTimeText
import EntityMapper.Proofs.Text.DecimalText
import EntityMapper.Proofs.Text.Digits
import EntityMapper.Proofs.Text.FloatText
import EntityMapper.Proofs.Text.Joined
import EntityMapper.Row
import EntityMapper.Schema.Inspect
import EntityMapper.Schema.Object
import EntityMapper.Schema.Table
import EntityMapper.Session
import EntityMapper.Session.Define
import EntityMapper.Session.Metrics
import EntityMapper.Session.Outcome
import EntityMapper.Session.Program
import EntityMapper.Session.Read
import EntityMapper.Session.Write
import EntityMapper.Statement
import EntityMapper.Statement.Command
import EntityMapper.Statement.JoinTree
import EntityMapper.Statement.Kind
import EntityMapper.Text.Blank
import EntityMapper.Text.Cluster
import EntityMapper.Text.Decimal
import EntityMapper.Text.Hex
import EntityMapper.Text.LetterCase
import EntityMapper.Text.Like
import EntityMapper.Text.Mark
import EntityMapper.Text.Quoted
import EntityMapper.Text.Ranges
import EntityMapper.Text.Record
import EntityMapper.Text.Search
import EntityMapper.Text.SnakeCase
import EntityMapper.Text.Split
import EntityMapper.Text.Utf8
import EntityMapper.Text.Visible
import EntityMapper.Value
import EntityMapper.Value.Inspect
