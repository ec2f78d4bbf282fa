import Calculator.Expr.Equality
import Calculator.Main
import Calculator.Proofs.Calculation
import Calculator.Proofs.CommandLine
import Calculator.Proofs.Context.Alias
import Calculator.Proofs.Descent.Limit
import Calculator.Proofs.Display.Canonical
import Calculator.Proofs.Evaluation.Bitwise
import Calculator.Proofs.Evaluation.Counterparts
import Calculator.Proofs.Evaluation.Depth
import Calculator.Proofs.Evaluation.Finite
import Calculator.Proofs.Expr.Spine
import Calculator.Proofs.Integer.Canonical
import Calculator.Proofs.Mode.Shown
import Calculator.Proofs.Parser.Extension
import Calculator.Proofs.Parser.Literals
import Calculator.Proofs.Postfix.Entries
import Calculator.Proofs.RoundTrip
import Calculator.Proofs.Token.Chains
import Calculator.Proofs.Token.Spacing
