import ActorNet.Config.File
import ActorNet.Config.Overrides
import ActorNet.Scheduler.Run
import ActorNet.Script.Type
import ActorNet.Proofs.Operations
import ActorNet.Proofs.Requests
import ActorNet.Proofs.Cycles
import ActorNet.Proofs.History
import ActorNet.Proofs.Invariants
import ActorNet.Proofs.Bookkeeping
import ActorNet.Proofs.Coalescing
import ActorNet.Proofs.Delivery
import ActorNet.Proofs.Wiring
import ActorNet.Proofs.Conservation
import ActorNet.Proofs.Readiness
import ActorNet.Proofs.Restriction
import ActorNet.Proofs.Turns
import ActorNet.Proofs.Vigilance
import ActorNet.Proofs.Shutdown
import ActorNet.Proofs.Confluence
import ActorNet.Proofs.Isolation
import ActorNet.Proofs.Migration
import ActorNet.Proofs.Timetable
import ActorNet.Proofs.Succession
import ActorNet.Proofs.Sweeps
import ActorNet.Proofs.Activity
import ActorNet.Proofs.Precedence
import ActorNet.Proofs.Punctuality
import ActorNet.Proofs.Interleaving
import ActorNet.Proofs.Selection
import ActorNet.Proofs.Reports
import ActorNet.Proofs.Ledger
import ActorNet.Proofs.Merging
import ActorNet.Proofs.Outcomes
import ActorNet.Proofs.Volleys
import ActorNet.Proofs.Coverage
import ActorNet.Proofs.Independence
import ActorNet.Proofs.Rest
import ActorNet.Proofs.Heartbeat
import ActorNet.Proofs.Totals
import ActorNet.Proofs.Handover
import ActorNet.Proofs.Declarations
import ActorNet.Proofs.Refusals
import ActorNet.Proofs.Consumption
import ActorNet.Proofs.Legibility
import ActorNet.Proofs.Persistence
import ActorNet.Proofs.Answers
import ActorNet.Proofs.Tracing
import ActorNet.Proofs.Stretches
import ActorNet.Proofs.Counters
import ActorNet.Proofs.Balance
