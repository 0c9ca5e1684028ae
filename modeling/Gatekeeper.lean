import Gatekeeper.Main
import Gatekeeper.Proofs.Outcome
import Gatekeeper.Proofs.Expr.Grammar
import Gatekeeper.Proofs.Expr.Listing
import Gatekeeper.Proofs.Document
import Gatekeeper.Proofs.Workflow.Compile
import Gatekeeper.Proofs.Workflow.Admitted
import Gatekeeper.Proofs.Eval.Faults
import Gatekeeper.Proofs.Workflow.Run
import Gatekeeper.Proofs.Workflow.Soundness
import Gatekeeper.Proofs.Workflow.Rules
import Gatekeeper.Proofs.Registry
import Gatekeeper.Proofs.Service
import Gatekeeper.Proofs.Load.Files
import Gatekeeper.Proofs.Load.Stages
import Gatekeeper.Proofs.Load.Outcome
import Gatekeeper.Proofs.Load.Reach
import Gatekeeper.Proofs.Disk
import Gatekeeper.Proofs.Load.Parallel
import Gatekeeper.Proofs.Number.Digits
import Gatekeeper.Proofs.Token.Layout
import Gatekeeper.Proofs.Expr.Complete
import Gatekeeper.Proofs.Expr.Derivation
import Gatekeeper.Proofs.Expr.Reread
import Gatekeeper.Proofs.Workflow.Checks
import Gatekeeper.Proofs.Workflow.WellFormed
import Gatekeeper.Proofs.Eval.Members
import Gatekeeper.Proofs.Eval.Coincidence
import Gatekeeper.Proofs.Eval.MemberNames
import Gatekeeper.Proofs.Eval.Renaming
import Gatekeeper.Proofs.Eval.TwoRuns
import Gatekeeper.Proofs.Workflow.Inputs
import Gatekeeper.Proofs.Workflow.Order
import Gatekeeper.Proofs.Workflow.Folds
import Gatekeeper.Proofs.Workflow.Vocabulary
import Gatekeeper.Proofs.Workflow.Renaming
import Gatekeeper.Proofs.Session
import Gatekeeper.Proofs.Json
import Gatekeeper.Proofs.Document.Stored
import Gatekeeper.Proofs.Workflow.Resolution
import Gatekeeper.Proofs.Token.Fault
import Gatekeeper.Proofs.Expr.Lookahead
import Gatekeeper.Proofs.Expr.Viable
import Gatekeeper.Proofs.Text.Blank
import Gatekeeper.Proofs.Address.Literal
import Gatekeeper.Proofs.Address.Range
import Gatekeeper.Proofs.Address.Mapped
import Gatekeeper.Proofs.PathPattern
import Gatekeeper.Proofs.Expr.Spacing
import Gatekeeper.Proofs.Expr.PreOrder
import Gatekeeper.Proofs.Expr.Visits
import Gatekeeper.Proofs.Eval.Candidates
import Gatekeeper.Proofs.Registry.Insertions
import Gatekeeper.Proofs.Workflow.Lockstep
import Gatekeeper.Proofs.Workflow.Aliases
import Gatekeeper.Proofs.Token.Pulls
import Gatekeeper.Proofs.Document.Names
import Gatekeeper.Proofs.CommandLine.Folder
