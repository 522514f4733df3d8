import CommandRoutes.LoggedRun
import CommandRoutes.Main
import CommandRoutes.Proofs.Predicate.Reading
import CommandRoutes.Proofs.Predicate.Grammar
import CommandRoutes.Proofs.Predicate.Printing
import CommandRoutes.Proofs.Route.Reading
import CommandRoutes.Proofs.Route.Grammar
import CommandRoutes.Proofs.Route.Printing
import CommandRoutes.Proofs.Route.RoundTrip
import CommandRoutes.Proofs.Route.BracketFaults
import CommandRoutes.Proofs.Tree.Shape
import CommandRoutes.Proofs.Tree.Edit
import CommandRoutes.Proofs.Tree.Growing
import CommandRoutes.Proofs.Tree.Ancestry
import CommandRoutes.Proofs.Tree.WellFormed
import CommandRoutes.Proofs.Registration
import CommandRoutes.Proofs.Tree.Navigation
import CommandRoutes.Proofs.Tree.Atomicity
import CommandRoutes.Proofs.Tree.CommonNames
import CommandRoutes.Proofs.Verification.Declarations
import CommandRoutes.Proofs.Verification.Rules
import CommandRoutes.Proofs.Verification.Asking
import CommandRoutes.Proofs.Verification.SwitchItems
import CommandRoutes.Proofs.Verification.Strictness
import CommandRoutes.Proofs.Verification.CommonScope
import CommandRoutes.Proofs.Verification.Merging
import CommandRoutes.Proofs.Verification.MergeOrder
import CommandRoutes.Proofs.Verification.EitherName
import CommandRoutes.Proofs.Verification.Defaults
import CommandRoutes.Proofs.Verification.Redeclaration
import CommandRoutes.Proofs.Tree.Address
import CommandRoutes.Proofs.Tree.Traversal
import CommandRoutes.Proofs.Tree.Ensuring
import CommandRoutes.Proofs.Tree.Routed
import CommandRoutes.Proofs.Tree.FullRoutes
import CommandRoutes.Proofs.Tree.Appending
import CommandRoutes.Proofs.Tree.Refusal
import CommandRoutes.Proofs.Matching.Walks
import CommandRoutes.Proofs.Matching.Attainability
import CommandRoutes.Proofs.Matching.Synonyms
import CommandRoutes.Proofs.Matching.Selection
import CommandRoutes.Proofs.Matching.Monotonicity
import CommandRoutes.Proofs.Table.Demands
import CommandRoutes.Proofs.Table.Realization
import CommandRoutes.Proofs.Table.Registering
import CommandRoutes.Proofs.Table.Order
import CommandRoutes.Proofs.Dispatch.Plan
import CommandRoutes.Proofs.Dispatch.Gate
import CommandRoutes.Proofs.Dispatch.Pairing
import CommandRoutes.Proofs.Dispatch.Sequence
import CommandRoutes.Proofs.Invocation.Contributions
import CommandRoutes.Proofs.Invocation.Joining
import CommandRoutes.Proofs.Invocation.Accounting
import CommandRoutes.Proofs.Tree.Listing
import CommandRoutes.Proofs.Table.Serving
import CommandRoutes.Proofs.Table.Reports
