import PawBackend.Auth.SessionSafety
import PawBackend.Auth.Throttle
import PawBackend.Authz.Delegation
import PawBackend.Compute.KvPromises
import PawBackend.Compute.Ledger
import PawBackend.Connections.Probes
import PawBackend.Connections.Quotas
import PawBackend.Connections.SessionCharges
import PawBackend.Connections.SlotExclusive
import PawBackend.Deploy.Chains
import PawBackend.Deploy.GoingBack
import PawBackend.Memory.Audiences
import PawBackend.Memory.Confirmation
import PawBackend.Memory.Eligibility
import PawBackend.Memory.EntryOrder
import PawBackend.Memory.ExactlyOnce
import PawBackend.Memory.ProcessingOrder
import PawBackend.Memory.TopN
import PawBackend.Memory.TurnOrder
import PawBackend.Orchestrator.Heartbeats
import PawBackend.Orchestrator.Independence
import PawBackend.Orchestrator.NodeResult
import PawBackend.Orchestrator.TaskEnd
import PawBackend.Orchestrator.WorktreeScope
import PawBackend.Projects.Managers
import PawBackend.Projects.TaskStopping
import PawBackend.Research.CopiedSpans
import PawBackend.Research.Normalization
import PawBackend.Retention.Partitions
import PawBackend.Sandbox.ReadAgreement
import PawBackend.Sandbox.WorkspacePaths
import PawBackend.Tasks.Completion
import PawBackend.Tasks.FailureWindow
import PawBackend.Tasks.JsonInput
import PawBackend.Tasks.QueueLeases
import PawBackend.Tasks.RuntimeBudget
import PawBackend.Tasks.StepLife
import PawBackend.Tasks.WakeUps
import PawBackend.Tools.ApprovalLockstep
import PawBackend.Tools.BrokerReservations
import PawBackend.Tools.GrantCoverage
