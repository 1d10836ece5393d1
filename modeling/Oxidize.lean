import Oxidize.Main
import Oxidize.Pattern.Written
import Oxidize.Proofs.Converter.Recovery
import Oxidize.Proofs.Form.Whole
import Oxidize.Proofs.Generated.Blocks
import Oxidize.Proofs.Generated.Echo
import Oxidize.Proofs.Generated.Twice
import Oxidize.Proofs.Layout.Again
import Oxidize.Proofs.Layout.Balance
import Oxidize.Proofs.Layout.Branches
import Oxidize.Proofs.Layout.Final
import Oxidize.Proofs.Layout.Turns
import Oxidize.Proofs.Layout.Width
import Oxidize.Proofs.Line.Blocks
import Oxidize.Proofs.Line.Comments
import Oxidize.Proofs.Line.Conditions
import Oxidize.Proofs.Line.Indentation
import Oxidize.Proofs.Line.Loops
import Oxidize.Proofs.Line.Nesting
import Oxidize.Proofs.Line.OpenEnds
import Oxidize.Proofs.Line.StringBinding
import Oxidize.Proofs.Line.Surplus
import Oxidize.Proofs.Rule.CommentMarks
import Oxidize.Proofs.Session.History
import Oxidize.Proofs.Settings.RoundTrip
import Oxidize.Proofs.Rule.Resolved
import Oxidize.Proofs.Layout.Tallies
import Oxidize.Proofs.Comment.FirstMark
import Oxidize.Proofs.Line.Trimmed
