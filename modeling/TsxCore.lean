import TsxCore.TakeProfitStability
import TsxCore.TradingLeverageAdmission
import TsxCore.TradingJournalSafety
import TsxCore.TradingSafetyProof
import TsxCore.AccountLogAgreement
import TsxCore.OutboxSafety
import TsxCore.WorkflowHistories
import TsxCore.WorkflowBuilderHistory
import TsxCore.DuplicateProtection
import TsxCore.TradingKillSwitch
import TsxCore.TradingEntryLatch
import TsxCore.StreamPollingSafety
import TsxCore.McpChangeSafety
import TsxCore.WorkflowSignalRunStatus
import TsxCore.TakeProfitConservation
import TsxCore.LeverageTierSolver
import TsxCore.RecoveryHistoryFairness
import TsxCore.PaperSettlement
import TsxCore.TradingEntryPrice
import TsxCore.TradingChannelRisk
import TsxCore.TradingOwnershipProof
import TsxCore.CancelBudgetSafety
import TsxCore.NestedQuantifiers
import TsxCore.FxSizingAgreement
import TsxCore.ExchangeOrderCorrelation
import TsxCore.TradingProtectiveStop
import TsxCore.TradingRiskReservations
import TsxCore.FxValuationFairness
import TsxCore.AiUsage
import TsxCore.ConcurrencyQueue
import TsxCore.ExecutorOrderEvidence
import TsxCore.ExecutorOrderIdentity
import TsxCore.FillRedelivery
import TsxCore.RetentionClosure
import TsxCore.BackupArchive
import TsxCore.SecretAtomicity
import TsxCore.FxEncoderInjectivity
import TsxCore.RationalLaws
