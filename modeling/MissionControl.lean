import MissionControl.Canonical.Identified
import MissionControl.Canonical.Parity
import MissionControl.Actions.Recovery
import MissionControl.Actions.Previews
import MissionControl.Actions.Compensation
import MissionControl.Jobs.Settlement
import MissionControl.Idempotency.Replay
import MissionControl.Ingress.Replay
import MissionControl.Council.Capability
import MissionControl.Compiled.Schedule
import MissionControl.Council.Approvals
import MissionControl.Approvals.Decisions
import MissionControl.Events.Delivery
import MissionControl.Commerce.Transfers
import MissionControl.Actions.Monotone
import MissionControl.Commerce.Confluence
import MissionControl.Durable.Leases
import MissionControl.Durable.Receipts
import MissionControl.Durable.Attempts
import MissionControl.Obligations.Bindings
import MissionControl.Obligations.Gate
import MissionControl.Bounds.Registry
import MissionControl.Reliability.Progress
import MissionControl.Reliability.Recovery
import MissionControl.Reliability.Keys
import MissionControl.Content.Slots
import MissionControl.Content.Revisions
import MissionControl.Content.Outboxed
import MissionControl.Council.Cancellation
import MissionControl.Compiled.Decisions
import MissionControl.Compiled.Authority
import MissionControl.Compiled.ChangeControl
import MissionControl.Compiled.MethodRouter
import MissionControl.Compiled.Sharing
import MissionControl.Memory.Isolation
import MissionControl.Projects.History
import MissionControl.Timing.Timeline
import MissionControl.Genome.Merge
import MissionControl.Genome.Promotion
import MissionControl.Lineage.History
import MissionControl.Lineage.Snapshots
import MissionControl.Avic.Filters
import MissionControl.Commerce.Commission
import MissionControl.Commerce.RateLimit
