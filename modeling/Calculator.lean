import Calculator.Main
import Calculator.Proofs.Reading.Inlining
import Calculator.Proofs.Reading.Language
import Calculator.Proofs.Statement.Safety
import Calculator.Proofs.Evaluation.Width
import Calculator.Proofs.Statement.Width
import Calculator.Proofs.Token.Cutting
import Calculator.Proofs.Reading.Writing
import Calculator.Proofs.Number.Decimal
import Calculator.Proofs.Number.Numeral
import Calculator.Proofs.Statement.RoundTrip
import Calculator.Proofs.Token.Spacing
import Calculator.Proofs.Statement.Commutation
import Calculator.Proofs.Statement.Lines
import Calculator.Proofs.Statement.Thinning
import Calculator.Proofs.Reading.Outline
import Calculator.Proofs.Reading.Prefixes
import Calculator.Proofs.Statement.Shown
import Calculator.Proofs.CommandLine.Sources
import Calculator.Proofs.Reading.Reals
import Calculator.Proofs.Number.Operations
import Calculator.Proofs.Number.Shortest
import Calculator.Proofs.Evaluation.Polynomial
import Calculator.Proofs.Evaluation.Checks
import Calculator.Proofs.Evaluation.Kind
import Calculator.Proofs.Reading.Frame
import Calculator.Proofs.Environment.Requests
import Calculator.Proofs.Number.Division
import Calculator.Proofs.Reading.Balance
