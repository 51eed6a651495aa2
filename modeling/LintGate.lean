import LintGate.Main
import LintGate.Proofs.Annotations.Attribution
import LintGate.Proofs.Annotations.Contents
import LintGate.Proofs.Annotations.Markers
import LintGate.Proofs.Host.Executables
import LintGate.Proofs.Provenance.Undecodable
import LintGate.Proofs.Review.Announcements
import LintGate.Proofs.Review.Books
import LintGate.Proofs.Review.Commands
import LintGate.Proofs.Review.Faults
import LintGate.Proofs.Review.News
import LintGate.Proofs.Review.Pool
import LintGate.Proofs.Review.Strictness
import LintGate.Proofs.Review.Totals
import LintGate.Record
import LintGate.Proofs.Program.Agreement
import LintGate.Proofs.Program.Injection
import LintGate.Proofs.Json.Lexemes
import LintGate.Proofs.Json.Nesting
import LintGate.Proofs.Json.Parts
import LintGate.Proofs.Json.Writing
import LintGate.Proofs.Report.Contents
import LintGate.Proofs.Report.Faithfulness
import LintGate.Proofs.Report.Wholeness
import LintGate.Proofs.Program.Protocol
import LintGate.Proofs.Program.Unstarted
import LintGate.Proofs.Changes
import LintGate.Proofs.Diagnosis
import LintGate.Proofs.Event
import LintGate.Proofs.Review.Refusals
import LintGate.Proofs.Workflow
import LintGate.Proofs.Settings.Soundness
