import PiAdaptative.TaskRuntime.UsageJoin
import PiAdaptative.TaskRuntime.AgentBindings
import PiAdaptative.TaskRuntime.ApprovalGate
import PiAdaptative.TaskRuntime.ReadyTasks
import PiAdaptative.TaskRuntime.Verdicts
import PiAdaptative.TaskRuntime.AgentLineage
import PiAdaptative.TaskRuntime.EvidenceReferences
import PiAdaptative.TaskRuntime.TaskAgreement
import PiAdaptative.HostEvents.EndedSources
import PiAdaptative.HostEvents.SequenceRanges
import PiAdaptative.Session.InputCredit
import PiAdaptative.Session.LiveContext
import PiAdaptative.Session.Reopening
import PiAdaptative.Session.CurrentRecords
import PiAdaptative.Verification.RememberedFailures
import PiAdaptative.WriteReservations.Exclusion
import PiAdaptative.MutationLock.Exclusion
import PiAdaptative.MutationLock.Progress
import PiAdaptative.ProviderLimits.Evidence
import PiAdaptative.ShellExports.Lanes
import PiAdaptative.SessionEvidence.AncestryAnswers
import PiAdaptative.ContinuousChat.Authority
import PiAdaptative.ContinuousChat.Currency
import PiAdaptative.UserMemory.Custody
import PiAdaptative.TextProtocol.LiveProjection
import PiAdaptative.TextProtocol.Selection
import PiAdaptative.ChatViews.Rows
import PiAdaptative.ToolValidation.Consolidation
import PiAdaptative.ToolRepair.Frame
import PiAdaptative.WorkerTranscripts.Pages
import PiAdaptative.SourceEdits.SpliceAgreement
import PiAdaptative.SourceEdits.FuzzyMatches
import PiAdaptative.ContinuousChat.KeyAnswers
import PiAdaptative.TranscriptFrontier.FrontierCovers
import PiAdaptative.StreamingLines.ChunkedDecoding
import PiAdaptative.TransientRecords.RepeatedReconciliation
import PiAdaptative.Compaction.CutBudgets
import PiAdaptative.BranchCaches.CacheTransparency
import PiAdaptative.ShellOutput.ReferenceDecoding
import PiAdaptative.Kernel.PrefixFold
