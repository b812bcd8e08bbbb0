import MetricRegistry.Catalog.MutationJson
import MetricRegistry.Host.Workspace
import MetricRegistry.Main
import MetricRegistry.Proofs.Catalog.Commuting
import MetricRegistry.Proofs.Catalog.Damage
import MetricRegistry.Proofs.Catalog.Identity
import MetricRegistry.Proofs.Catalog.Presentation
import MetricRegistry.Proofs.Catalog.Undoing
import MetricRegistry.Proofs.Catalog.WorkingCopy
import MetricRegistry.Proofs.Command.Overrides
import MetricRegistry.Proofs.Command.Runs
import MetricRegistry.Proofs.Registry.Attempts
import MetricRegistry.Proofs.Registry.Batching
import MetricRegistry.Proofs.Registry.Contention
import MetricRegistry.Proofs.Registry.Convergence
import MetricRegistry.Proofs.Registry.Isolation
import MetricRegistry.Proofs.Registry.Serializability
import MetricRegistry.Proofs.Request.Budget
import MetricRegistry.Proofs.Request.RoundTrip
import MetricRegistry.Proofs.Request.Unchanged
import MetricRegistry.Proofs.Request.Updates
import MetricRegistry.Proofs.Store.Agreement
import MetricRegistry.Proofs.Timestamp.Epoch
import MetricRegistry.Proofs.Timestamp.Fallbacks
import MetricRegistry.Proofs.Timestamp.Refused
import MetricRegistry.Store.Backing
import MetricRegistry.Store.Contended
