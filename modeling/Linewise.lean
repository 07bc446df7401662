import Linewise.Main
import Linewise.Proofs.Chains
import Linewise.Proofs.Propagation
import Linewise.Proofs.MovedLines
import Linewise.Proofs.Upkeep
import Linewise.Proofs.ChangingSources
import Linewise.Proofs.DocumentRuns
import Linewise.Proofs.GatheredDamage
import Linewise.Proofs.LanguageSwitches
import Linewise.Proofs.ScannedLines
import Linewise.Proofs.StackPairs
import Linewise.Proofs.LineOffsets
import Linewise.Proofs.ReadDocuments
import Linewise.Proofs.BracketPairs
import Linewise.Proofs.FoldPairs
import Linewise.Proofs.LinesBelow
import Linewise.Proofs.UndisturbedReads
import Linewise.Proofs.UnfailingEdits
import Linewise.Proofs.AlikeDocuments
import Linewise.Proofs.ErrorNotices
import Linewise.Proofs.UnfailingRelexing
import Linewise.Proofs.ScannedRanges
import Linewise.Proofs.EmbeddedScripts
import Linewise.Proofs.JoinedLines
import Linewise.Proofs.TokenOrigins
import Linewise.Proofs.NumberTexts
import Linewise.Proofs.StructuralCharacters
import Linewise.Proofs.MissedPatterns
import Linewise.Proofs.PatternsBehindOperands
import Linewise.Proofs.FoundLinks
import Linewise.Proofs.FoldStates
import Linewise.Proofs.ShownLines
import Linewise.Proofs.FoldBounds
import Linewise.Proofs.BoundaryLines
import Linewise.Proofs.UndoneInsertions
import Linewise.Proofs.ToggledFolds
import Linewise.Proofs.MisfitReports
import Linewise.Proofs.DebouncedPasses
import Linewise.Proofs.LineLayout
import Linewise.Proofs.QuotedLiterals
import Linewise.Proofs.TypedNumbers
import Linewise.Proofs.PushedTokens
import Linewise.Proofs.CarriedPlaces
