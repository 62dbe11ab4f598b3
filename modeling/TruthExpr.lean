import TruthExpr.Main
import TruthExpr.Expr.Draft
import TruthExpr.Parser.Recipe
import TruthExpr.Service.Endpoint
import TruthExpr.Proofs.Derivation
import TruthExpr.Proofs.Orderly
import TruthExpr.Proofs.Chain
import TruthExpr.Proofs.Descent
import TruthExpr.Proofs.Acceptance
import TruthExpr.Proofs.LongestSentence
import TruthExpr.Proofs.Agreement
import TruthExpr.Proofs.RoundTrip
import TruthExpr.Proofs.Allowance
import TruthExpr.Proofs.FailureShape
import TruthExpr.Proofs.Spelling
import TruthExpr.Proofs.ViablePrefix
import TruthExpr.Proofs.ErrorPosition
import TruthExpr.Proofs.GroupReplacement
import TruthExpr.Proofs.Conservation
import TruthExpr.Proofs.Precedence
import TruthExpr.Proofs.Arguments
import TruthExpr.Proofs.Nesting
import TruthExpr.Proofs.Reports
import TruthExpr.Proofs.Translation
import TruthExpr.Proofs.Answers
import TruthExpr.Proofs.LookAhead
import TruthExpr.Proofs.Objects
import TruthExpr.Proofs.Drafts
import TruthExpr.Proofs.TreeCode
import TruthExpr.Proofs.PrintedTrees
import TruthExpr.Proofs.Counts
import TruthExpr.Proofs.LeftSpine
import TruthExpr.Proofs.OutputLength
import TruthExpr.Proofs.MessageLength
import TruthExpr.Proofs.Repetition
import TruthExpr.Proofs.Plans
import TruthExpr.Proofs.Merging
import TruthExpr.Proofs.Choices
import TruthExpr.Proofs.Traces
import TruthExpr.Proofs.Recursion
import TruthExpr.Proofs.Faultless
