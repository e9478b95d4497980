import Croupier.Ty
import Croupier.Operator
import Croupier.Source
import Croupier.Entity
import Croupier.Library
import Croupier.Scope
import Croupier.Fault
import Croupier.Binary64.Basic
import Croupier.Decimal.Shortest
import Croupier.Decimal.Layout
import Croupier.Text.Quoted
import Croupier.Markup
import Croupier.Program.Basic
import Croupier.Program.Same
import Croupier.Program.Visit
import Croupier.Program.Listing
import Croupier.Lowering.Expr
import Croupier.Lowering.Func
import Croupier.Lowering.Session
import Croupier.Lowering.Stmt
import Croupier.Simplify.Numeral
import Croupier.Simplify.Expr
import Croupier.Simplify.Stmt
import Croupier.Compile
import Croupier.Proofs.Evaluation
import Croupier.Proofs.Execution
import Croupier.Proofs.Nodes
import Croupier.Proofs.SimplifyEval
import Croupier.Proofs.SimplifyExec
import Croupier.Proofs.Lowered
import Croupier.Proofs.Coherence
import Croupier.Proofs.Settling
import Croupier.Proofs.Reached
import Croupier.Proofs.Refused
import Croupier.Proofs.Scoping
import Croupier.Proofs.Events
import Croupier.Proofs.Resolution
import Croupier.Proofs.Simplified
import Croupier.Proofs.Pruning
import Croupier.Proofs.Closure
import Croupier.Proofs.ReadBack
import Croupier.Proofs.Targets
import Croupier.Proofs.Jumps
import Croupier.Proofs.Frames
import Croupier.Proofs.Recursion
import Croupier.Proofs.Occurrences
import Croupier.Proofs.Convergence
import Croupier.Proofs.Turns
import Croupier.Proofs.Strictness
import Croupier.Proofs.Wording
import Croupier.Proofs.Rewording
import Croupier.Proofs.Indifference
import Croupier.Proofs.Freshness
import Croupier.Proofs.LiteralSize
import Croupier.Proofs.Telling
import Croupier.Proofs.Iterators
import Croupier.Proofs.Alike
import Croupier.Proofs.Sameness
import Croupier.Proofs.Idempotence
import Croupier.Proofs.Kinds
import Croupier.Proofs.WellTyped
import Croupier.Proofs.Results
import Croupier.Proofs.Tidy
import Croupier.Proofs.Discards
import Croupier.Proofs.Bindings
import Croupier.Proofs.Symmetry
import Croupier.Proofs.Unions
import Croupier.Proofs.Walks
import Croupier.Proofs.Exactness
import Croupier.Proofs.Colours
