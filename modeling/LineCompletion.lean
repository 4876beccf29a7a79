import LineCompletion.Completion.Console
import LineCompletion.Completion.Tab
import LineCompletion.Module.Search
import LineCompletion.Proofs.Completion.CallGate
import LineCompletion.Settings.Stored
import LineCompletion.Proofs.Line.Restoring
import LineCompletion.Proofs.Line.Reconstruction
import LineCompletion.Proofs.Expression.Spelling
import LineCompletion.Proofs.Expression.Meaning
import LineCompletion.Proofs.Completion.TypedText
import LineCompletion.Proofs.Expression.Grammar
import LineCompletion.Proofs.Expression.Continuation
import LineCompletion.Proofs.Value.Inheritance
import LineCompletion.Proofs.Completion.Members
import LineCompletion.Proofs.Line.Masking
import LineCompletion.Proofs.Line.Lookup
import LineCompletion.Proofs.Text.Boundaries
import LineCompletion.Proofs.Completion.KeyPress
import LineCompletion.Proofs.Value.Containers
import LineCompletion.Proofs.Value.Steps
import LineCompletion.Proofs.Expression.Keys
import LineCompletion.Proofs.Completion.Lookups
import LineCompletion.Proofs.Namespace.Visible
import LineCompletion.Proofs.Completion.BareNames
import LineCompletion.Proofs.Completion.Subscripts
import LineCompletion.Proofs.Text.Counting
import LineCompletion.Proofs.Completion.SetLookup
import LineCompletion.Proofs.Expression.Literals
import LineCompletion.Proofs.Line.Pieces
import LineCompletion.Proofs.Value.ReadBack
import LineCompletion.Proofs.Line.Contents
import LineCompletion.Proofs.Completion.LiteralContents
import LineCompletion.Proofs.Line.Remasking
import LineCompletion.Proofs.Line.OpenQuote
import LineCompletion.Proofs.Line.LastExpression
import LineCompletion.Proofs.Completion.SecondPress
import LineCompletion.Proofs.Text.Words
import LineCompletion.Proofs.Completion.Imports
import LineCompletion.Proofs.Completion.Shading
import LineCompletion.Proofs.Value.Ancestors
import LineCompletion.Proofs.Listing.TerminalCodes
import LineCompletion.Proofs.Listing.Layout
import LineCompletion.Proofs.Buffer.Offsets
import LineCompletion.Proofs.Module.Discovery
import LineCompletion.Proofs.Expression.Runs
import LineCompletion.Proofs.Completion.Redisplay
import LineCompletion.Proofs.Value.Callable
import LineCompletion.Proofs.Value.KeyEquality
import LineCompletion.Proofs.Namespace.History
import LineCompletion.Proofs.Settings.Storage
import LineCompletion.Proofs.Completion.CommonPrefix
