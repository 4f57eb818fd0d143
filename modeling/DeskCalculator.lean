import DeskCalculator.Decimal.ReadBack
import DeskCalculator.Expr
import DeskCalculator.Window
import DeskCalculator.Proofs.PostfixLanguage
import DeskCalculator.Proofs.Grouping
import DeskCalculator.Proofs.LeftToRight
import DeskCalculator.Proofs.Numeral
import DeskCalculator.Proofs.NumberEntry
import DeskCalculator.Proofs.Explanation
import DeskCalculator.Proofs.Typing
import DeskCalculator.Proofs.ExactValue
import DeskCalculator.Proofs.ShortestDigits
import DeskCalculator.Proofs.PrintedNumeral
import DeskCalculator.Proofs.PrintedRow
import DeskCalculator.Proofs.TidiedResult
import DeskCalculator.Proofs.ShownResult
import DeskCalculator.Proofs.AskedNames
import DeskCalculator.Proofs.PadTexts
import DeskCalculator.Proofs.SessionStates
import DeskCalculator.Proofs.PadRuns
import DeskCalculator.Proofs.SessionTexts
import DeskCalculator.Proofs.Rearranging
import DeskCalculator.Proofs.RearrangingLoop
import DeskCalculator.Proofs.OperandSupply
import DeskCalculator.Proofs.OperatorPlaces
import DeskCalculator.Proofs.FirstName
import DeskCalculator.Proofs.FieldIndependence
import DeskCalculator.Proofs.KeyOrder
import DeskCalculator.Proofs.JoinedFrames
import DeskCalculator.Proofs.Replaying
import DeskCalculator.Proofs.Substituting
import DeskCalculator.Proofs.AfterFailure
import DeskCalculator.Proofs.ZeroSign
import DeskCalculator.Proofs.Chaining
import DeskCalculator.Proofs.StaleResult
import DeskCalculator.Proofs.TidyRounds
import DeskCalculator.Proofs.NumberGrammar
import DeskCalculator.Proofs.PrintedToken
import DeskCalculator.Proofs.TidyOrder
import DeskCalculator.Proofs.LastOperator
import DeskCalculator.Proofs.FieldCounting
import DeskCalculator.Proofs.UndoneDigits
import DeskCalculator.Proofs.FirstFailure
import DeskCalculator.Proofs.TokenKinds
import DeskCalculator.Proofs.TypedNames
