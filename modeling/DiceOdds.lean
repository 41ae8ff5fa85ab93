import DiceOdds.Binary64
import DiceOdds.CommandLine
import DiceOdds.Dice
import DiceOdds.Dice.Reader
import DiceOdds.Distribution
import DiceOdds.Distribution.Convolution
import DiceOdds.Distribution.Evaluation
import DiceOdds.Distribution.Fudge
import DiceOdds.Distribution.Middle
import DiceOdds.Distribution.Sweep
import DiceOdds.Distribution.WordSweep
import DiceOdds.EvalFault
import DiceOdds.Expression
import DiceOdds.Expression.Interpretation
import DiceOdds.Expression.Printer
import DiceOdds.Expression.ReadFault
import DiceOdds.Expression.Reader
import DiceOdds.Expression.Trace
import DiceOdds.Fault
import DiceOdds.Fault.Inspection
import DiceOdds.Limits
import DiceOdds.Main
import DiceOdds.Numeral
import DiceOdds.Odds
import DiceOdds.Operator
import DiceOdds.Random.ChaCha
import DiceOdds.Random.Source
import DiceOdds.Random.Words
import DiceOdds.Report
import DiceOdds.Roll.Evaluation
import DiceOdds.Roll.Roller
import DiceOdds.Roll.Throw
import DiceOdds.Session
import DiceOdds.Session.Desk
import DiceOdds.Session.View
import DiceOdds.Text.Blank
import DiceOdds.Text.Category
import DiceOdds.Text.Extending
import DiceOdds.Text.Quoted
import DiceOdds.Token
import DiceOdds.Token.Scanner
import DiceOdds.Proofs.Attempts
import DiceOdds.Proofs.SignedWords
import DiceOdds.Proofs.DrawVectors
import DiceOdds.Proofs.RollPlan
import DiceOdds.Proofs.ConvolutionCount
import DiceOdds.Proofs.SumCount
import DiceOdds.Proofs.SweepCount
import DiceOdds.Proofs.MiddleCount
import DiceOdds.Proofs.ThrowCount
import DiceOdds.Proofs.Exactness
import DiceOdds.Proofs.FaultAgreement
import DiceOdds.Proofs.Decimals
import DiceOdds.Proofs.TokenSpelling
import DiceOdds.Proofs.TokenPatterns
import DiceOdds.Proofs.Grammar
import DiceOdds.Proofs.ReaderAdequacy
import DiceOdds.Proofs.PrintRead
import DiceOdds.Proofs.PrintedWords
import DiceOdds.Proofs.TokenCuts
import DiceOdds.Proofs.ViablePrefix
import DiceOdds.Proofs.Continuation
import DiceOdds.Proofs.DeadEnd
import DiceOdds.Proofs.FirstImpossible
import DiceOdds.Proofs.FaultPlace
import DiceOdds.Proofs.LongestMatch
import DiceOdds.Proofs.Nesting
import DiceOdds.Proofs.DiceTexts
import DiceOdds.Proofs.OperandValues
import DiceOdds.Proofs.ShuntingYard
import DiceOdds.Proofs.PostfixEvaluation
import DiceOdds.Proofs.SessionFreshness
import DiceOdds.Proofs.InterpretationInduction
import DiceOdds.Proofs.EvaluationFaults
import DiceOdds.Proofs.LimitRefusal
import DiceOdds.Proofs.AskedDraws
import DiceOdds.Proofs.TrayReuse
import DiceOdds.Proofs.RollCap
import DiceOdds.Proofs.RollLog
import DiceOdds.Proofs.StrayCharacters
import DiceOdds.Proofs.TupleCount
import DiceOdds.Proofs.InputLines
import DiceOdds.Proofs.ReportLines
import DiceOdds.Proofs.ReportOutcome
import DiceOdds.Proofs.CountedDice
import DiceOdds.Proofs.PushForward
import DiceOdds.Proofs.JoinAlgebra
import DiceOdds.Proofs.DiceSums
import DiceOdds.Proofs.FudgeSides
import DiceOdds.Proofs.MiddleTriples
import DiceOdds.Proofs.ForeseenSize
import DiceOdds.Proofs.NearestBinary
import DiceOdds.Proofs.OddsTable
import DiceOdds.Proofs.FairWords
import DiceOdds.Proofs.SameDraws
import DiceOdds.Proofs.Conversation
import DiceOdds.Proofs.WordSweep
