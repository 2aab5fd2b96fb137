import Expbuild.AccountRoutes
import Expbuild.Accounting
import Expbuild.Accounts
import Expbuild.Adapters
import Expbuild.Administration
import Expbuild.Admission
import Expbuild.Alerts
import Expbuild.ApiServer
import Expbuild.Atomicity
import Expbuild.Authority
import Expbuild.Bindings
import Expbuild.Booting
import Expbuild.Calls
import Expbuild.Capacity
import Expbuild.Checked
import Expbuild.Cleanup
import Expbuild.Clocks
import Expbuild.Clusters
import Expbuild.Commands
import Expbuild.Completion
import Expbuild.ContentScan
import Expbuild.Contract
import Expbuild.Controllers
import Expbuild.Crashes
import Expbuild.Credentials
import Expbuild.Disabling
import Expbuild.Disks
import Expbuild.Drift
import Expbuild.Effects
import Expbuild.Engines
import Expbuild.Evictions
import Expbuild.Executions
import Expbuild.Exposures
import Expbuild.Flags
import Expbuild.Gocache
import Expbuild.Gradlecache
import Expbuild.Guarantees
import Expbuild.Handlers
import Expbuild.Headroom
import Expbuild.Histories
import Expbuild.Http
import Expbuild.Idempotency
import Expbuild.Immutability
import Expbuild.Inheritance
import Expbuild.Inventory
import Expbuild.Isolation
import Expbuild.Keys
import Expbuild.Kinds
import Expbuild.Kubernetes
import Expbuild.Laws
import Expbuild.Licences
import Expbuild.Licensing
import Expbuild.Lives
import Expbuild.Locks
import Expbuild.Marshalling
import Expbuild.Metrics
import Expbuild.Naming
import Expbuild.Nxcache
import Expbuild.Objects
import Expbuild.Operating
import Expbuild.Origins
import Expbuild.Overflow
import Expbuild.Passages
import Expbuild.Patterns
import Expbuild.Permissions
import Expbuild.Permits
import Expbuild.Platform
import Expbuild.Programs
import Expbuild.Provisioning
import Expbuild.Quantities
import Expbuild.QuotaSync
import Expbuild.Quotas
import Expbuild.Readiness
import Expbuild.Readings
import Expbuild.Receipts
import Expbuild.Reconciler
import Expbuild.Reconciling
import Expbuild.Recovery
import Expbuild.Redaction
import Expbuild.Release
import Expbuild.Renderers
import Expbuild.Reports
import Expbuild.Reservations
import Expbuild.Restarts
import Expbuild.Revocation
import Expbuild.Routes
import Expbuild.Rows
import Expbuild.Runs
import Expbuild.Sanitizing
import Expbuild.Scans
import Expbuild.Schema
import Expbuild.Sections
import Expbuild.Serving
import Expbuild.Sessions
import Expbuild.Startup
import Expbuild.Stores
import Expbuild.Successions
import Expbuild.Supersession
import Expbuild.Synchronized
import Expbuild.Tables
import Expbuild.Timestamps
import Expbuild.Tracking
import Expbuild.Transactions
import Expbuild.Turbocache
import Expbuild.Undoing
import Expbuild.Versions
import Expbuild.Volumes
import Expbuild.Worker
import Expbuild.Writes
