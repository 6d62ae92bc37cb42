import EdgeBridge.Foundation.System
import EdgeBridge.Foundation.Wal
import EdgeBridge.Foundation.Utf8
import EdgeBridge.Foundation.JsonRoundTrip
import EdgeBridge.Schema
import EdgeBridge.Queue
import EdgeBridge.MessageParser
import EdgeBridge.Payload
import EdgeBridge.OdooResponse
import EdgeBridge.Production
import EdgeBridge.ApiCommands
import EdgeBridge.Accounting
import EdgeBridge.Job
import EdgeBridge.Ledger
import EdgeBridge.Bridge.Threads
import EdgeBridge.Bridge.Runs
import EdgeBridge.Bridge.Refinement
import EdgeBridge.Bridge.Hand
import EdgeBridge.Bridge.StatusDiagram
import EdgeBridge.Bridge.Attempts
import EdgeBridge.Bridge.Kill
import EdgeBridge.Bridge.Acks
import EdgeBridge.Foundation.JsonAscii
import EdgeBridge.Bridge.Completion
import EdgeBridge.Bridge.Ingest
import EdgeBridge.Api.Handler
import EdgeBridge.Api.Runs
import EdgeBridge.Api.AuditRows
import EdgeBridge.Api.PublishOnce
import EdgeBridge.Api.Replay
import EdgeBridge.Api.Fresh
import EdgeBridge.Foundation.Streak
import EdgeBridge.Readiness.Debounce
import EdgeBridge.Readiness.Refresh
import EdgeBridge.Bridge.Shutdown
import EdgeBridge.Bridge.Finality
import EdgeBridge.Foundation.Service
import EdgeBridge.Store.Claims
import EdgeBridge.Store.Recovery
import EdgeBridge.Store.Timestamps
import EdgeBridge.Store.Cleanup
import EdgeBridge.Foundation.Grouping
import EdgeBridge.Store.Dashboard
import EdgeBridge.Bridge.Batch
import EdgeBridge.Foundation.Limiter
import EdgeBridge.Store.Transactions
import EdgeBridge.Foundation.Extremes
import EdgeBridge.Store.DaySummary
import EdgeBridge.Store.Replays
import EdgeBridge.Mqtt.Layouts
import EdgeBridge.Foundation.Effect
import EdgeBridge.Odoo.Client
import EdgeBridge.Store.Legacy
import EdgeBridge.Odoo.Contract
import EdgeBridge.Mqtt.Callback
import EdgeBridge.Foundation.JsonScan
import EdgeBridge.Foundation.JsonSuffix
import EdgeBridge.Mqtt.Deliveries
import EdgeBridge.Foundation.JsonMembers
import EdgeBridge.Api.Fidelity
import EdgeBridge.Store.Reconciliation
import EdgeBridge.Foundation.Backlog
import EdgeBridge.Store.Progress
import EdgeBridge.Foundation.PyDatetime
import EdgeBridge.Store.Instants
import EdgeBridge.Foundation.Justified
import EdgeBridge.Bridge.Answers
import EdgeBridge.Bridge.Serial
import EdgeBridge.Bridge.ReplayBudget
import EdgeBridge.Bridge.Duplicates
import EdgeBridge.Bridge.Mirror
import EdgeBridge.Store.Counts
import EdgeBridge.Bridge.Conservation
import EdgeBridge.Foundation.Leads
import EdgeBridge.Bridge.Progress
import EdgeBridge.Bridge.Drain
import EdgeBridge.Foundation.Ddl
import EdgeBridge.Foundation.Migration
import EdgeBridge.Store.Initialize
import EdgeBridge.Store.LegacyRows
import EdgeBridge.Store.DatabaseFile
import EdgeBridge.Api.AuditTrail
import EdgeBridge.Bridge.Settle
import EdgeBridge.Bridge.Health
import EdgeBridge.Bridge.Provenance
