import Elspeth.Relational.Table
import Elspeth.Relational.Transaction
import Elspeth.Relational.History
import Elspeth.Relational.Statement
import Elspeth.Landscape.Schema
import Elspeth.Landscape.Errors
import Elspeth.Landscape.Session
import Elspeth.Landscape.Coordination
import Elspeth.Protocol.Fencing
import Elspeth.Landscape.Outcomes
import Elspeth.Scheduler.GroupLosses
import Elspeth.Scheduler.WorkItems
import Elspeth.Landscape.Frame
import Elspeth.Scheduler.Leases
import Elspeth.Scheduler.Queue
import Elspeth.Scheduler.Dispositions
import Elspeth.Scheduler.Barrier
import Elspeth.Landscape.Fences
import Elspeth.Landscape.Governance
import Elspeth.Protocol.EventSourcing
import Elspeth.Scheduler.Lifecycle
import Elspeth.Scheduler.Refinement.Barrier
import Elspeth.Scheduler.Refinement.Claims
import Elspeth.Scheduler.Refinement.Recovery
import Elspeth.System.Journal
import Elspeth.System.Lanes
import Elspeth.System.Leadership
import Elspeth.System.StaleLeases
import Elspeth.System.Adoption
import Elspeth.System.Barriers
import Elspeth.System.Handoffs
import Elspeth.System.Membership
import Elspeth.System.Recovery
import Elspeth.System.Histories
import Elspeth.Coalesce.Eviction
import Elspeth.Graph.DependencyOrder
import Elspeth.Graph.Worklist
import Elspeth.Orchestrator.Counters
import Elspeth.Orchestrator.Parity
import Elspeth.Retention.Purge
import Elspeth.Retention.Safety
import Elspeth.Coalesce.BuildMerge
import Elspeth.Coalesce.TypeSoundness
import Elspeth.Contracts.SchemaConfig
import Elspeth.Expressions.Analysis
import Elspeth.Expressions.Confinement
import Elspeth.Expressions.Kinds
import Elspeth.Expressions.Messages
import Elspeth.Graph.Memo
import Elspeth.Guarantees.CoalesceSchema
import Elspeth.Guarantees.Propagation
import Elspeth.Guarantees.Soundness
import Elspeth.Regions.Bindings
import Elspeth.Regions.Nesting
import Elspeth.RowUnion.Executor
import Elspeth.RowUnion.Releases
import Elspeth.RowUnion.Runs
import Elspeth.Coalesce.OriginalNames
import Elspeth.Contracts.RowAccess
import Elspeth.Lineage.Nesting
import Elspeth.Scheduler.LossLedger
import Elspeth.Orchestrator.Dependencies
import Elspeth.Pooling.Throttle
