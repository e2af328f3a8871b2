import TypedAnt.CommandLine
import TypedAnt.Completion
import TypedAnt.Diagnostic
import TypedAnt.Main
import TypedAnt.Position
import TypedAnt.Program.Parser
import TypedAnt.Proofs.Analysis
import TypedAnt.Proofs.Completion
import TypedAnt.Proofs.Failures
import TypedAnt.Proofs.Fields
import TypedAnt.Proofs.Layout
import TypedAnt.Proofs.LineEndings
import TypedAnt.Proofs.Lock.Counters
import TypedAnt.Proofs.Lock.Entries
import TypedAnt.Proofs.Lock.FairQueue
import TypedAnt.Proofs.Lock.Refinement
import TypedAnt.Proofs.Lock.Runs
import TypedAnt.Proofs.Lock.Settling
import TypedAnt.Proofs.Lock.Waking
import TypedAnt.Proofs.Numeral
import TypedAnt.Proofs.Position
import TypedAnt.Proofs.Program.CorrectPrefix
import TypedAnt.Proofs.Program.Cursor
import TypedAnt.Proofs.Program.CursorSafety
import TypedAnt.Proofs.Program.ExpressionCompleteness
import TypedAnt.Proofs.Program.ExpressionSoundness
import TypedAnt.Proofs.Program.FirstToken
import TypedAnt.Proofs.Program.Grammar
import TypedAnt.Proofs.Program.Height
import TypedAnt.Proofs.Program.LongIntegers
import TypedAnt.Proofs.Program.Lookahead
import TypedAnt.Proofs.Program.Nesting
import TypedAnt.Proofs.Program.Numbering
import TypedAnt.Proofs.Program.Reading
import TypedAnt.Proofs.Program.Recognition
import TypedAnt.Proofs.Program.Recovery
import TypedAnt.Proofs.Program.Regular
import TypedAnt.Proofs.Program.Rendered
import TypedAnt.Proofs.Program.RenderedProgram
import TypedAnt.Proofs.Program.Rendering
import TypedAnt.Proofs.Program.Repetition
import TypedAnt.Proofs.Program.StatementCompleteness
import TypedAnt.Proofs.Program.StatementSoundness
import TypedAnt.Proofs.Program.Tokens
import TypedAnt.Proofs.Program.Tracing
import TypedAnt.Proofs.Recovery
import TypedAnt.Proofs.Rendering
import TypedAnt.Proofs.Scopes
import TypedAnt.Proofs.Scopes.Views
import TypedAnt.Proofs.Session.Interleaving
import TypedAnt.Proofs.Session.Publication
import TypedAnt.Proofs.Settings.Layering
import TypedAnt.Proofs.Settings.Project
import TypedAnt.Proofs.Store
import TypedAnt.Proofs.Store.Documents
import TypedAnt.Proofs.Store.Histories
import TypedAnt.Proofs.Store.Linearization
import TypedAnt.Proofs.Text.Columns
import TypedAnt.Proofs.Text.Offsets
import TypedAnt.Proofs.Text.Utf8
import TypedAnt.Proofs.Token
import TypedAnt.Proofs.Token.Lexing
import TypedAnt.Proofs.Token.LineEndings
import TypedAnt.Proofs.Token.LineLocality
import TypedAnt.Proofs.Token.LongestMatch
import TypedAnt.Proofs.Token.Printing
import TypedAnt.Proofs.Token.Range
import TypedAnt.Proofs.Token.Scanning
import TypedAnt.Proofs.Token.StringLiteral
import TypedAnt.Proofs.Ty
import TypedAnt.Proofs.Typing.Blame
import TypedAnt.Proofs.Typing.Breaking
import TypedAnt.Proofs.Typing.Checking
import TypedAnt.Proofs.Typing.FirstOrder
import TypedAnt.Proofs.Typing.Inference
import TypedAnt.Proofs.Typing.NamesInScope
import TypedAnt.Proofs.Typing.Passing
import TypedAnt.Proofs.Typing.Raising
import TypedAnt.Proofs.Typing.Rendering
import TypedAnt.Proofs.Typing.Rules
import TypedAnt.Proofs.Typing.Running
import TypedAnt.Proofs.Typing.ScopeDiscipline
import TypedAnt.Proofs.Typing.VisibleBindings
import TypedAnt.Session
import TypedAnt.Settings
import TypedAnt.Store.Shared
import TypedAnt.Text
import TypedAnt.Text.Units
import TypedAnt.Text.UpperCase
import TypedAnt.Token.Lexing
import TypedAnt.Toml
import TypedAnt.Typing
import TypedAnt.Uri
import TypedAnt.Value
