import ScoreLowering.Compilation
import ScoreLowering.Proofs.StatementFrame
import ScoreLowering.Proofs.PoolEquivalence
import ScoreLowering.Proofs.SettledRuns
import ScoreLowering.Proofs.BorrowPaths
import ScoreLowering.Proofs.ScratchSessions
import ScoreLowering.Proofs.TicketOwnership
import ScoreLowering.Proofs.ContractScope
import ScoreLowering.Proofs.LoweringBalance
import ScoreLowering.Proofs.HeldOverlap
import ScoreLowering.Proofs.Uninstallation
import ScoreLowering.Proofs.DeclaredStorage
import ScoreLowering.Proofs.CommandText
import ScoreLowering.Proofs.StackCreation
import ScoreLowering.Proofs.FunctionLogs
import ScoreLowering.Proofs.DecimalAmounts
import ScoreLowering.Proofs.NumberReadings
import ScoreLowering.Proofs.DecimalProducts
import ScoreLowering.Proofs.DecimalMultiples
import ScoreLowering.Proofs.DecimalSums
import ScoreLowering.Proofs.NumberTransfers
import ScoreLowering.Proofs.LiteralComparisons
import ScoreLowering.Proofs.DecimalQuotients
import ScoreLowering.Proofs.WholeNumberResults
import ScoreLowering.Proofs.LiteralSplits
import ScoreLowering.Proofs.StoredLiterals
import ScoreLowering.Proofs.IntegerComparisons
import ScoreLowering.Proofs.StructTransfers
import ScoreLowering.Proofs.DecimalSpellings
import ScoreLowering.Proofs.CounterScope
import ScoreLowering.Proofs.SourcePositions
import ScoreLowering.Proofs.SnippetMarks
import ScoreLowering.Proofs.CharacterRanges
import ScoreLowering.Proofs.FieldPaths
import ScoreLowering.Proofs.NameLengths
import ScoreLowering.Proofs.Accessors
import ScoreLowering.Proofs.CarriedRegisters
import ScoreLowering.Proofs.FloorDivision
import ScoreLowering.Proofs.TruncatedQuotients
