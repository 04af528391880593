import AsmLexer.Diagnostic
import AsmLexer.Editor
import AsmLexer.Main
import AsmLexer.Proofs.Grammar.Acceptance
import AsmLexer.Proofs.LineComposition
import AsmLexer.Proofs.Reconstruction
import AsmLexer.Proofs.Session.Positions
import AsmLexer.Proofs.Scanner.Course
import AsmLexer.Proofs.Termination
import AsmLexer.Proofs.Scanner.Alignment
import AsmLexer.Proofs.Session.Safety
import AsmLexer.Proofs.Session.Delivery
import AsmLexer.Proofs.Text.Lines
import AsmLexer.Proofs.Text.Quoted
import AsmLexer.Proofs.Utf8.Lossy
import AsmLexer.Proofs.Message
import AsmLexer.Proofs.Offence
import AsmLexer.Proofs.Diagnostic
import AsmLexer.Proofs.Consumers
import AsmLexer.Proofs.Marks
import AsmLexer.Proofs.Editor
import AsmLexer.Proofs.Listing
import AsmLexer.Proofs.Files.Write
import AsmLexer.Proofs.Run
import AsmLexer.Proofs.Scanner.Lookahead
import AsmLexer.Proofs.Extent
import AsmLexer.Proofs.Rereading
import AsmLexer.Proofs.Resumption
import AsmLexer.Proofs.Detection
import AsmLexer.Proofs.Immediate
import AsmLexer.Proofs.BoundedLookahead
import AsmLexer.Proofs.Session.Rewind
import AsmLexer.Proofs.Session.LineSearch
import AsmLexer.Proofs.Options.KindName
import AsmLexer.Proofs.Options.Entry
import AsmLexer.Proofs.Options.Merge
import AsmLexer.Proofs.Run.Stages
import AsmLexer.Proofs.Run.Frame
