import AnalysisBrowser.Text.Blank
import AnalysisBrowser.Text.Casing
import AnalysisBrowser.Text.Padding
import AnalysisBrowser.Text.Quoted
import AnalysisBrowser.Text.Styled
import AnalysisBrowser.Text.Utf8
import AnalysisBrowser.Number.Shortest
import AnalysisBrowser.Json.Value
import AnalysisBrowser.Json.Decoder
import AnalysisBrowser.Json.Tagged
import AnalysisBrowser.Tally
import AnalysisBrowser.Model.Result
import AnalysisBrowser.Tree.Drawing
import AnalysisBrowser.Session
import AnalysisBrowser.View.Page
import AnalysisBrowser.Config
import AnalysisBrowser.Run.Outcome
import AnalysisBrowser.Main
import AnalysisBrowser.Proofs.Tree.PreOrder
import AnalysisBrowser.Proofs.Tree.Cells
import AnalysisBrowser.Proofs.Tree.Agreement
import AnalysisBrowser.Proofs.Tree.Listing
import AnalysisBrowser.Proofs.Tally
import AnalysisBrowser.Proofs.Tree.Totals
import AnalysisBrowser.Proofs.Tree.Guides
import AnalysisBrowser.Proofs.Tree.Blocks
import AnalysisBrowser.Proofs.Tree.Growth
import AnalysisBrowser.Proofs.Tree.Bulk
import AnalysisBrowser.Proofs.Tree.Slices
import AnalysisBrowser.Proofs.Tree.PathText
import AnalysisBrowser.Proofs.Arguments.Toggles
import AnalysisBrowser.Proofs.Diagnostics.StableMerge
import AnalysisBrowser.Proofs.Diagnostics.Accounts
import AnalysisBrowser.Proofs.Diagnostics.Violations
import AnalysisBrowser.Proofs.Symbols.Facets
import AnalysisBrowser.Proofs.Json.Denotes
import AnalysisBrowser.Proofs.Json.Tree
import AnalysisBrowser.Proofs.Json.Grammar
import AnalysisBrowser.Proofs.Json.Lexemes
import AnalysisBrowser.Proofs.Json.Reading
import AnalysisBrowser.Proofs.Json.Compact
import AnalysisBrowser.Proofs.Json.Recovery
import AnalysisBrowser.Proofs.Json.Outcome
import AnalysisBrowser.Proofs.Json.Record
import AnalysisBrowser.Proofs.Json.Edits
import AnalysisBrowser.Proofs.Json.Setting
import AnalysisBrowser.Proofs.Model.Recovery
import AnalysisBrowser.Proofs.Model.RoundTrip
import AnalysisBrowser.Proofs.Model.Outcomes
import AnalysisBrowser.Proofs.Model.KnownMembers
import AnalysisBrowser.Proofs.Model.OddValues
import AnalysisBrowser.Proofs.Machine.Trace
import AnalysisBrowser.Proofs.Machine.Directories
import AnalysisBrowser.Proofs.Machine.Effects
import AnalysisBrowser.Proofs.Client.Analysis
import AnalysisBrowser.Proofs.Run.Subject
import AnalysisBrowser.Proofs.Run.Verdict
import AnalysisBrowser.Proofs.Tree.Reads
import AnalysisBrowser.Proofs.Run.Toggles
import AnalysisBrowser.Proofs.Run.Looks
import AnalysisBrowser.Proofs.Run.Creation
import AnalysisBrowser.Proofs.Session.Snapshots
import AnalysisBrowser.Proofs.Text.Escapes
import AnalysisBrowser.Proofs.View.Texts
import AnalysisBrowser.Proofs.View.Plain
import AnalysisBrowser.Proofs.View.Findings
import AnalysisBrowser.Proofs.View.Colour
import AnalysisBrowser.Proofs.Client.Endpoints
import AnalysisBrowser.Proofs.Tally.Index
import AnalysisBrowser.Proofs.Diagnostics.Types
import AnalysisBrowser.Proofs.View.Rows
