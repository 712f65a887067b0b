import Verdict.Table
import Verdict.Binary64.Notation
import Verdict.Json.Printer
import Verdict.Json.Reader
import Verdict.Operator.Apply
import Verdict.Sequence
import Verdict.Query
import Verdict.Evaluation
import Verdict.Text.Quoted
import Verdict.Text.Case
import Verdict.Grammar.Staged
import Verdict.Session
import Verdict.Config.Json
import Verdict.Config.Toml.Gatherer
import Verdict.Proofs.Spelling
import Verdict.Proofs.Readers
import Verdict.Proofs.Recognition
import Verdict.Proofs.Phrases
import Verdict.Proofs.Acceptance
import Verdict.Proofs.Nesting
import Verdict.Proofs.Language
import Verdict.Proofs.Integers
import Verdict.Proofs.SmallLetters
import Verdict.Proofs.Shape
import Verdict.Proofs.ShortCircuit
import Verdict.Proofs.Rounding
import Verdict.Proofs.Shortest
import Verdict.Proofs.NumberText
import Verdict.Proofs.Writing
import Verdict.Proofs.RoundTrip
import Verdict.Proofs.Account
import Verdict.Proofs.Budget
import Verdict.Proofs.Zeroing
import Verdict.Proofs.Blame
import Verdict.Proofs.Composition
import Verdict.Proofs.OperatorTable
import Verdict.Proofs.Prospect
import Verdict.Proofs.Essence
import Verdict.Proofs.Interchange
import Verdict.Proofs.Order
import Verdict.Proofs.History
import Verdict.Proofs.Footprint
import Verdict.Proofs.Observation
import Verdict.Proofs.Metering
import Verdict.Proofs.Extension
import Verdict.Proofs.Descent
import Verdict.Proofs.Selection
import Verdict.Proofs.Evidence
import Verdict.Proofs.Lifecycle
import Verdict.Proofs.Exactness
import Verdict.Proofs.Readiness
import Verdict.Proofs.Batch
import Verdict.Proofs.SetAlgebra
import Verdict.Proofs.Identity
import Verdict.Proofs.Overlap
import Verdict.Proofs.Course
import Verdict.Proofs.Replay
import Verdict.Proofs.Report
import Verdict.Proofs.Layering
