import ActorNet.Scheduler.Request

set_option autoImplicit false

/-!
# Cycles

A cycle polls the monitor, takes the pending set, fires the enabled actors one after the other, and decides
what follows: another cycle at once when something fired or the monitor saw activity, a heartbeat
otherwise, and nothing after a stop. A firing that fails or panics is reported and disturbs no other.
-/
namespace ActorNet

structure CycleReport where
  cycle : Nat
  all : Bool
  eligible : ActorSet
  touched : List ActorId
  failed : List ActorId
  monitorActivity : Bool
  result : FiringResult
  next : NextCycle
deriving DecidableEq

def CycleReport.madeProgress (report : CycleReport) : Bool :=
  report.result.didFire || report.monitorActivity

def CycleReport.summary (report : CycleReport) : CycleSummary where
  cycle := report.cycle
  all := report.all
  eligible := report.eligible.size
  touched := report.touched.length
  failed := report.failed.length
  didFire := report.result.didFire
  monitorActivity := report.monitorActivity
  next := report.next

structure Sweep where
  total : FiringResult := .idle
  touched : List ActorId := []
  failed : List ActorId := []
deriving DecidableEq

namespace Scheduler

variable {σ : Type}

/-- A panic that leaves an actor's firing counts as an error of that actor. -/
def outcomeOf (id : ActorId) (outcome : Outcome FiringError FiringResult) : Except FiringError FiringResult :=
  outcome.catchPanic fun payload => .panicked id payload.message

def errorText (config : Config) (e : FiringError) : String :=
  if config.traceTriggers then e.chain else e.message

def fireOne (s : Scheduler σ) (sweep : Sweep) (id : ActorId) : Logged (Scheduler σ × Sweep) := do
  let (registry, outcome) ← s.registry.fireActor id
  let s := { s with registry }
  let sweep := { sweep with touched := sweep.touched ++ [id] }
  match outcomeOf id outcome with
  | .ok result =>
    Logged.note (.actorFired id result.didFire)
    return (s, { sweep with total := sweep.total.merge result })
  | .error e =>
    Logged.note (.firingFailed id (errorText s.config e))
    Logged.write (.hook s.now (.fireError e))
    return ({ s with stats := { s.stats with fireErrors := countUp s.stats.fireErrors } },
      { sweep with failed := sweep.failed ++ [id] })

def fireEach (only : Option ActorSet) : List ActorId → Scheduler σ × Sweep → Logged (Scheduler σ × Sweep)
  | [], state => return state
  | id :: ids, (s, sweep) =>
    if only.all (·.contains id) then do fireEach only ids (← s.fireOne sweep id)
    else do
      Logged.note (.notTriggered id)
      fireEach only ids (s, sweep)

def beginCycle (s : Scheduler σ) (all : Bool) : Scheduler σ :=
  { s with
    cycle := countUp s.cycle
    stats := { s.stats with
      cycles := countUp s.stats.cycles
      fullSweeps := if all then countUp s.stats.fullSweeps else s.stats.fullSweeps } }

def pollMonitor (s : Scheduler σ) : Bool × Scheduler σ :=
  let poll := s.monitor s.polls
  (poll.active, { s with polls := s.polls + 1, inbox := s.inbox ++ poll.send })

/-- Take the pending set. A scoped cycle that is still outstanding has nothing left to serve. -/
def takePending (s : Scheduler σ) : ActorSet × Scheduler σ :=
  let eligible := s.pending
  let s := { s with pending := ∅, unaddressed := false }
  if !s.hasImmediateCycle then (eligible, { s with immediate := none })
  else if !s.immediateSweep then (eligible, { s.cancel s.immediate with immediate := none })
  else (eligible, s)

def follow (s : Scheduler σ) (result : FiringResult) (active : Bool) : NextCycle × Scheduler σ :=
  if s.done then (.stopped, s)
  else if result.didFire then
    let s := s.cancelHeartbeat
    let s := { s with pending := s.pending ∪ result.affected }
    (.immediate, s.scheduleImmediate false)
  else if active then (.immediate, s.cancelHeartbeat.scheduleImmediate true)
  else (.heartbeat, s.armHeartbeat)

def countFiring (s : Scheduler σ) (didFire : Bool) : Scheduler σ :=
  if didFire then { s with stats := { s.stats with firingCycles := countUp s.stats.firingCycles } } else s

def loopOnce (s : Scheduler σ) (all : Bool) : Logged (Scheduler σ × CycleReport) := do
  let s := s.beginCycle all
  let cycle := s.cycle
  Logged.write (.hook s.now (.cycleStart cycle all))
  let (monitorActivity, s) := s.pollMonitor
  let s ← s.drain
  let (eligible, s) := s.takePending
  let only := if !all && s.config.restrictToTriggered then some eligible else none
  let (s, sweep) ← fireEach only s.registry.enabled (s, {})
  let s := s.countFiring sweep.total.didFire
  let (next, s) := s.follow sweep.total monitorActivity
  let report : CycleReport :=
    { cycle, all, eligible, touched := sweep.touched, failed := sweep.failed, monitorActivity,
      result := sweep.total, next }
  Logged.note (.cycleComplete report.summary)
  return (s, report)

end Scheduler

end ActorNet
