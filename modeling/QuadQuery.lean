import QuadQuery.Algebra
import QuadQuery.AttributeOrder
import QuadQuery.Binary64
import QuadQuery.Binding
import QuadQuery.CommandLine
import QuadQuery.Dataset
import QuadQuery.Date
import QuadQuery.Decimal
import QuadQuery.Expr
import QuadQuery.Failure
import QuadQuery.Grammar.Meaning
import QuadQuery.Grammar.Recognizer
import QuadQuery.Grammar.Rule
import QuadQuery.Grammar.Text
import QuadQuery.Grammar.Token
import QuadQuery.Grammar.Tree
import QuadQuery.JoinTree.Advance
import QuadQuery.JoinTree.Node
import QuadQuery.JoinTree.State
import QuadQuery.JoinTree.Window
import QuadQuery.Main
import QuadQuery.Numeral
import QuadQuery.Pattern
import QuadQuery.Plan
import QuadQuery.Proofs.Algebra.Assignments
import QuadQuery.Proofs.Algebra.Evaluation
import QuadQuery.Proofs.Algebra.LeftRows
import QuadQuery.Proofs.Algebra.Planning
import QuadQuery.Proofs.Algebra.Refinement
import QuadQuery.Proofs.Algebra.Soundness
import QuadQuery.Proofs.Arrangement
import QuadQuery.Proofs.Execution
import QuadQuery.Proofs.Interning
import QuadQuery.Proofs.JoinTree.Answers
import QuadQuery.Proofs.JoinTree.Bounds
import QuadQuery.Proofs.JoinTree.Building
import QuadQuery.Proofs.JoinTree.Growing
import QuadQuery.Proofs.JoinTree.History
import QuadQuery.Proofs.JoinTree.Joined
import QuadQuery.Proofs.JoinTree.Rows
import QuadQuery.Proofs.JoinTree.Serving
import QuadQuery.Proofs.JoinTree.Standing
import QuadQuery.Proofs.JoinTree.Steps
import QuadQuery.Proofs.JoinTree.Wheels
import QuadQuery.Proofs.JoinTree.Windows
import QuadQuery.Proofs.JoinTree.Work
import QuadQuery.Proofs.Match
import QuadQuery.Proofs.Merging
import QuadQuery.Proofs.Scan.Order
import QuadQuery.Proofs.Scan.Position
import QuadQuery.Proofs.Scan.Rows
import QuadQuery.Proofs.Solutions
import QuadQuery.Proofs.Variables
import QuadQuery.Quad
import QuadQuery.QuadIndex
import QuadQuery.Query
import QuadQuery.Regex
import QuadQuery.Regex.Bracket
import QuadQuery.Regex.CaseFold
import QuadQuery.Regex.Category
import QuadQuery.Regex.CharClass
import QuadQuery.Regex.Escape
import QuadQuery.Regex.Pattern
import QuadQuery.Regex.Property
import QuadQuery.Regex.Reader
import QuadQuery.Regex.Script
import QuadQuery.Regex.Sequence
import QuadQuery.Regex.Stretch
import QuadQuery.Scan
import QuadQuery.Scan.Fixed
import QuadQuery.Scan.Index
import QuadQuery.Session
import QuadQuery.Settings
import QuadQuery.Settings.Environment
import QuadQuery.Settings.Toml
import QuadQuery.Settings.Toml.Reader
import QuadQuery.Settings.Toml.Table
import QuadQuery.Settings.Toml.Word
import QuadQuery.Settings.Value
import QuadQuery.Solution
import QuadQuery.Term
import QuadQuery.TermTable
import QuadQuery.Variable
import QuadQuery.Proofs.Scan.Matches
import QuadQuery.Proofs.Scan.History
import QuadQuery.Proofs.Algebra.Judging
import QuadQuery.Proofs.JoinTree.Shape
import QuadQuery.Proofs.JoinTree.Cancellation
import QuadQuery.Proofs.JoinTree.Twin
import QuadQuery.Proofs.JoinTree.Following
import QuadQuery.Proofs.JoinTree.Refusing
import QuadQuery.Proofs.JoinTree.Retrying
import QuadQuery.Proofs.JoinTree.Reopening
import QuadQuery.Proofs.KeyRange
import QuadQuery.Proofs.IndexContents
import QuadQuery.Proofs.Decimals
import QuadQuery.Proofs.DatasetContents
import QuadQuery.Proofs.Unfailing
import QuadQuery.Proofs.Interleaving
import QuadQuery.Proofs.DecimalOrder
import QuadQuery.Proofs.Spelling
import QuadQuery.Proofs.Renumbering
import QuadQuery.Proofs.JoinTree.Shuffling
import QuadQuery.Proofs.Algebra.Shuffling
import QuadQuery.Proofs.Algebra.LoadingOrder
import QuadQuery.Proofs.JoinTree.Refiling
import QuadQuery.Proofs.Algebra.Refiling
import QuadQuery.Proofs.Grammar.Reading
import QuadQuery.Proofs.Grammar.Numerals
import QuadQuery.Proofs.Grammar.Words
import QuadQuery.Proofs.Grammar.Meanings
import QuadQuery.Proofs.Grammar.Lexemes
import QuadQuery.Proofs.Grammar.ReadBack
import QuadQuery.Proofs.Grammar.Operators
import QuadQuery.Proofs.Grammar.RoundTrip
import QuadQuery.Proofs.Grammar.TermWords
import QuadQuery.Proofs.Grammar.TermTexts
import QuadQuery.Proofs.Grammar.Statements
import QuadQuery.Proofs.Grammar.Joining
import QuadQuery.Proofs.Grammar.Pieces
import QuadQuery.Proofs.Grammar.Places
import QuadQuery.Proofs.Grammar.Faults
import QuadQuery.Proofs.Negation
import QuadQuery.Proofs.JoinTree.Budgets
import QuadQuery.Proofs.JoinTree.Ending
import QuadQuery.Proofs.JoinTree.Sifting
import QuadQuery.Proofs.JoinTree.Counting
import QuadQuery.Proofs.JoinTree.Distinct
import QuadQuery.Proofs.Algebra.Distinct
import QuadQuery.Proofs.JoinTree.Filtering
import QuadQuery.Proofs.JoinTree.Ordering
import QuadQuery.Proofs.JoinTree.Willing
import QuadQuery.Proofs.JoinTree.Framing
import QuadQuery.Proofs.JoinTree.Moving
import QuadQuery.Proofs.JoinTree.Tracking
import QuadQuery.Proofs.JoinTree.Hinting
