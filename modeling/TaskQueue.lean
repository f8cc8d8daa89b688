import TaskQueue.StepRuns
import TaskQueue.StorableValues
import TaskQueue.LiveClaims
import TaskQueue.ClaimLifecycle
import TaskQueue.ReadCommittedRequests
import TaskQueue.ReadCommittedInvariant
import TaskQueue.ClaimExclusivity
import TaskQueue.ClaimNext
import TaskQueue.WorkerKeyCache
import TaskQueue.CredentialSeparation
import TaskQueue.ArtifactDeletion
import TaskQueue.LoopSurvival
import TaskQueue.OutcomeFencing
import TaskQueue.HeartbeatFencing
import TaskQueue.OllamaManager
import TaskQueue.OllamaOwnership
import TaskQueue.ComfyUISupervisor
import TaskQueue.ComfyUIInteractions
import TaskQueue.ComfyUIAdoption
import TaskQueue.ComfyUIManagementOff
import TaskQueue.ComfyUIInvariants
import TaskQueue.ComfyUIOversights
import TaskQueue.ComfyUIOrphans
import TaskQueue.ComfyUISignals
import TaskQueue.ComfyUIOutcome
import TaskQueue.WorkerTasks
import TaskQueue.WorkerPhases
import TaskQueue.MemoryHandover
import TaskQueue.ComfyUIRestarts
import TaskQueue.BlankRenders
import TaskQueue.RejectedRequests
import TaskQueue.OwnerIsolation
import TaskQueue.WorkerAgreement
import TaskQueue.HeartbeatLoop
import TaskQueue.ClientUrls
import TaskQueue.HeroIdentity
import TaskQueue.HeroDownloads
import TaskQueue.ComfyUIStop
import TaskQueue.KeyAgreement
import TaskQueue.MalformedIds
import TaskQueue.MachineNumbers
import TaskQueue.RenderLifecycle
import TaskQueue.DashboardRefresh
import TaskQueue.SettledTasks
import TaskQueue.ClusterDelivery
import TaskQueue.RouteRefinement
import TaskQueue.RequestProgress
import TaskQueue.UninterruptedRequests
import TaskQueue.QueueFairness
import TaskQueue.WorkerPresence
import TaskQueue.ConcurrentKeys
import TaskQueue.ArtifactContents
import TaskQueue.SubmissionRecord
import TaskQueue.ConfiguredWorkers
import TaskQueue.DashboardSignIn
