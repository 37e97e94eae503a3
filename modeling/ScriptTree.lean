import ScriptTree.Diagnostic
import ScriptTree.Diagnostic.Filter
import ScriptTree.Diagnostic.Problem
import ScriptTree.Fault
import ScriptTree.Grammar.Declaration
import ScriptTree.Grammar.Expression
import ScriptTree.Grammar.Rule
import ScriptTree.Grammar.Script
import ScriptTree.Grammar.Statement
import ScriptTree.Kind
import ScriptTree.Lexicon
import ScriptTree.Outline
import ScriptTree.Parser
import ScriptTree.Parser.Builder
import ScriptTree.Parser.State
import ScriptTree.Pattern
import ScriptTree.Pattern.Munch
import ScriptTree.Position
import ScriptTree.Proofs.Analyses
import ScriptTree.Proofs.Arrangement
import ScriptTree.Proofs.Asides
import ScriptTree.Proofs.Balance
import ScriptTree.Proofs.Beside
import ScriptTree.Proofs.Blocks
import ScriptTree.Proofs.Bookkeeping
import ScriptTree.Proofs.Building
import ScriptTree.Proofs.Carrying
import ScriptTree.Proofs.Caution
import ScriptTree.Proofs.Chains
import ScriptTree.Proofs.Cleanness
import ScriptTree.Proofs.Closers
import ScriptTree.Proofs.Comments
import ScriptTree.Proofs.Complaints
import ScriptTree.Proofs.Completeness
import ScriptTree.Proofs.Concatenation
import ScriptTree.Proofs.Construction
import ScriptTree.Proofs.Crossings
import ScriptTree.Proofs.Depth
import ScriptTree.Proofs.Descent
import ScriptTree.Proofs.Discipline
import ScriptTree.Proofs.Dumps
import ScriptTree.Proofs.Execution
import ScriptTree.Proofs.Findings
import ScriptTree.Proofs.Foresight
import ScriptTree.Proofs.Forms
import ScriptTree.Proofs.Gates
import ScriptTree.Proofs.Heads
import ScriptTree.Proofs.Indifference
import ScriptTree.Proofs.Interruption
import ScriptTree.Proofs.KindSets
import ScriptTree.Proofs.Lasting
import ScriptTree.Proofs.Ledger
import ScriptTree.Proofs.Limits
import ScriptTree.Proofs.Literals
import ScriptTree.Proofs.Locations
import ScriptTree.Proofs.LongestMatch
import ScriptTree.Proofs.Lookup
import ScriptTree.Proofs.Losslessness
import ScriptTree.Proofs.Munching
import ScriptTree.Proofs.Nesting
import ScriptTree.Proofs.OpenNodes
import ScriptTree.Proofs.Operations
import ScriptTree.Proofs.Outlines
import ScriptTree.Proofs.Outlook
import ScriptTree.Proofs.Overrun
import ScriptTree.Proofs.Pace
import ScriptTree.Proofs.Patience
import ScriptTree.Proofs.Phrases
import ScriptTree.Proofs.Places
import ScriptTree.Proofs.Plans
import ScriptTree.Proofs.Productions
import ScriptTree.Proofs.Quoting
import ScriptTree.Proofs.Ranges
import ScriptTree.Proofs.Reading
import ScriptTree.Proofs.Recovery
import ScriptTree.Proofs.Reports
import ScriptTree.Proofs.Restoration
import ScriptTree.Proofs.Rounds
import ScriptTree.Proofs.Running
import ScriptTree.Proofs.Safety
import ScriptTree.Proofs.Seams
import ScriptTree.Proofs.SignSplit
import ScriptTree.Proofs.Signs
import ScriptTree.Proofs.Sites
import ScriptTree.Proofs.Soundness
import ScriptTree.Proofs.Strictness
import ScriptTree.Proofs.Succession
import ScriptTree.Proofs.Suppression
import ScriptTree.Proofs.Sweeping
import ScriptTree.Proofs.Tails
import ScriptTree.Proofs.Terms
import ScriptTree.Proofs.Ties
import ScriptTree.Proofs.TokenStream
import ScriptTree.Proofs.TopLevel
import ScriptTree.Proofs.Towers
import ScriptTree.Proofs.Trivia
import ScriptTree.Proofs.View
import ScriptTree.Proofs.Yield
import ScriptTree.Routine
import ScriptTree.Routine.Declaration
import ScriptTree.Routine.Expression
import ScriptTree.Routine.Statement
import ScriptTree.Snippet
import ScriptTree.Snippet.Canvas
import ScriptTree.Snippet.Layout
import ScriptTree.Snippet.Source
import ScriptTree.Snippet.Stroke
import ScriptTree.Snippet.Window
import ScriptTree.Span
import ScriptTree.Text.Blank
import ScriptTree.Text.Bytes
import ScriptTree.Text.CharRanges
import ScriptTree.Text.Columns
import ScriptTree.Text.DefaultIgnorable
import ScriptTree.Text.GraphemeExtend
import ScriptTree.Text.Printable
import ScriptTree.Text.Quoted
import ScriptTree.Token
import ScriptTree.Token.Lexer
import ScriptTree.Token.Restore
import ScriptTree.TokenClass
import ScriptTree.TokenSet
import ScriptTree.TokenSet.Word
import ScriptTree.Tree
import ScriptTree.Tree.Dump
