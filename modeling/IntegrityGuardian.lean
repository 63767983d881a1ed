import IntegrityGuardian.WorkClaims.Gaps
import IntegrityGuardian.Ledger.NativeTrust
import IntegrityGuardian.Intents.OneUse
import IntegrityGuardian.Synapse.Agreement
import IntegrityGuardian.MemoryPlane.Coverage
import IntegrityGuardian.MemoryPlane.EventMmr
import IntegrityGuardian.AgentsApi.Usage
import IntegrityGuardian.ActionLog.Secrets
import IntegrityGuardian.LlmBus.RelayRuns
import IntegrityGuardian.HomeOps.Rollbacks
import IntegrityGuardian.Discovery.DryRun
import IntegrityGuardian.Discovery.Invalidation
import IntegrityGuardian.Synapse.Postconditions
import IntegrityGuardian.LlmBus.CodexSteerRuns
import IntegrityGuardian.ObserverAnchor.Chain
import IntegrityGuardian.TenantLog.Guarantee
import IntegrityGuardian.LlmBus.QueuePaging
import IntegrityGuardian.TurnEnvelope.Segments
import IntegrityGuardian.TurnMemory.Replays
import IntegrityGuardian.ActiveInquiry.Classification
import IntegrityGuardian.TaskClosure.Agreement
import IntegrityGuardian.WorkspacePatch.SectionsSeen
import IntegrityGuardian.ActionLog.TaskGraph
import IntegrityGuardian.Chronicle.SearchPages
import IntegrityGuardian.ExecutionBridge.OutputCursors
import IntegrityGuardian.ResourceAdvisor.Stability
import IntegrityGuardian.SeedRelationships.GateOrder
import IntegrityGuardian.ActionLog.TaskLeases
import IntegrityGuardian.Chronicle.IndexAgreement
import IntegrityGuardian.History.ReviewRuns
import IntegrityGuardian.Forget.Composition
import IntegrityGuardian.Intents.Accounting
import IntegrityGuardian.KeyLifecycle.Safety
import IntegrityGuardian.MemoryPlane.Postings
import IntegrityGuardian.Operations.Quotas
import IntegrityGuardian.SeedRetention.Histories
import IntegrityGuardian.UnifiedProjection.NothingLost
import IntegrityGuardian.WorkClaims.Containment
import IntegrityGuardian.Ledger.Checkpoints
import IntegrityGuardian.WorkClaims.Arrival
import IntegrityGuardian.Discovery.Emitter
