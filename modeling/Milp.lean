import Milp.Number.Double
import Milp.Decimal.Text
import Milp.Text.Quoted
import Milp.Problem.Solution
import Milp.Problem.Violation
import Milp.Model.Basic
import Milp.Error
import Milp.Model.Formula
import Milp.Solver.Registry
import Milp.Workspace.Solve
import Milp.Workspace.Operation
import Milp.Workspace.Family
import Milp.Session.Script
import Milp.Session.Run
import Milp.Main
import Milp.Proofs.Merging
import Milp.Proofs.Compilation
import Milp.Number.Exact
import Milp.Workspace.Lemmas
import Milp.Proofs.ExactValue
import Milp.Proofs.Feasibility
import Milp.Proofs.Generation
import Milp.Proofs.Solving
import Milp.Proofs.Notification
import Milp.Proofs.Sync
import Milp.Proofs.SyncSteps
import Milp.Proofs.Run
import Milp.Proofs.Edits
import Milp.Proofs.Retry
import Milp.Proofs.Clients
import Milp.Proofs.Pinning
import Milp.Proofs.DefinedBounds
import Milp.Proofs.SolutionCycle
import Milp.Proofs.Acceptance
import Milp.Proofs.FreezeWindow
import Milp.Proofs.Guards
import Milp.Proofs.Attachment
import Milp.Proofs.Reached
import Milp.Proofs.SharedVariables
import Milp.Proofs.ReportedNumbers
import Milp.Proofs.IndependentChanges
import Milp.Proofs.Delivery
import Milp.Proofs.Reentrance
import Milp.Proofs.Validity
import Milp.Proofs.FreezeCount
import Milp.Proofs.FreezeProtocol
import Milp.Proofs.Assembly
import Milp.Proofs.MovedTerms
import Milp.Proofs.WrittenFormulas
import Milp.Proofs.UndefinedSides
import Milp.Proofs.ModelVariables
import Milp.Proofs.BoundRequests
import Milp.Proofs.RequestedColumns
import Milp.Proofs.ViolationReport
import Milp.Proofs.KeyedFamilies
