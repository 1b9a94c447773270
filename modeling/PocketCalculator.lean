import PocketCalculator.Main
import PocketCalculator.Prompt
import PocketCalculator.Proofs.Numeral
import PocketCalculator.Proofs.Conversion
import PocketCalculator.Proofs.Machine
import PocketCalculator.Proofs.Nesting
import PocketCalculator.Proofs.Alternation
import PocketCalculator.Proofs.Scan
import PocketCalculator.Proofs.Rounding
import PocketCalculator.Proofs.Outcome
import PocketCalculator.Proofs.Expressions
import PocketCalculator.Proofs.Acceptance
import PocketCalculator.Proofs.Course
import PocketCalculator.Proofs.InMemory
import PocketCalculator.Proofs.SharedHistory
import PocketCalculator.Proofs.ReadBack
import PocketCalculator.Proofs.Signs
import PocketCalculator.Proofs.Redisplay
import PocketCalculator.Proofs.ShownNumber
import PocketCalculator.Proofs.DisplayRounding
import PocketCalculator.Proofs.Typing
import PocketCalculator.Proofs.ResultLine
import PocketCalculator.Proofs.Continuation
import PocketCalculator.Proofs.CoarsestGrid
import PocketCalculator.Proofs.Repetition
import PocketCalculator.Proofs.Reopening
import PocketCalculator.Proofs.DamagedFile
import PocketCalculator.Proofs.SharedFile
import PocketCalculator.Proofs.Retention
import PocketCalculator.Proofs.KeypadText
import PocketCalculator.Proofs.Commands
import PocketCalculator.Proofs.FrontEnds
import PocketCalculator.Proofs.CommandRuns
import PocketCalculator.Proofs.Endings
import PocketCalculator.Proofs.Office
import PocketCalculator.Proofs.TraceContents
import PocketCalculator.Proofs.Observation
import PocketCalculator.Proofs.ErrorTag
import PocketCalculator.Proofs.Postorder
import PocketCalculator.Proofs.Conservation
import PocketCalculator.Proofs.Layout
import PocketCalculator.Proofs.FailureKinds
import PocketCalculator.Proofs.StrayCharacters
import PocketCalculator.Proofs.WholeHistory
