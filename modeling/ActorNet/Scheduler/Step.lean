import ActorNet.Scheduler.Cycle

set_option autoImplicit false

/-!
# Steps

A step obeys what waits in the inbox and then serves the first timer that is due: a cycle, the heartbeat,
which asks for a full sweep, or the halt, after which nothing happens any more.
-/
namespace ActorNet

inductive Step where
  | nothing
  | cycle (report : CycleReport)
  | heartbeat
  | halted
deriving DecidableEq

namespace Scheduler

variable {σ : Type}

def expireHeartbeat (s : Scheduler σ) : Logged (Scheduler σ) := do
  let s := { s with
    heartbeat := none
    stats := { s.stats with heartbeatsExpired := countUp s.stats.heartbeatsExpired } }
  Logged.note .heartbeatExpired
  s.trigger .zero .all

def wake (s : Scheduler σ) : Wakeup → Logged (Scheduler σ × Step)
  | .cycle all => do
    let (s, report) ← s.loopOnce all
    return (s, .cycle report)
  | .heartbeat => return (← s.expireHeartbeat, .heartbeat)
  | .halt => do
    Logged.note .halted
    return ({ s with halted := true }, .halted)

def step (s : Scheduler σ) : Logged (Scheduler σ × Step) := do
  let s ← s.drain
  if s.halted then return (s, .halted)
  else
    let (due, timers) := s.timers.popDue s.now
    let s := { s with timers }
    match due with
    | none => return (s, .nothing)
    | some (_, wakeup) => s.wake wakeup

/-- At most `turns` steps, until nothing is due or the scheduler has halted; the reports of the cycles. -/
def runSteps : Nat → Scheduler σ → Logged (Scheduler σ × List CycleReport)
  | 0, s => return (s, [])
  | turns + 1, s => do
    let (s, step) ← s.step
    match step with
    | .nothing | .halted => return (s, [])
    | .heartbeat => runSteps turns s
    | .cycle report => Prod.map id (report :: ·) <$> runSteps turns s

def runDue (s : Scheduler σ) : Logged (Scheduler σ × List CycleReport) :=
  runSteps s.config.maxCyclesPerTurn s

end Scheduler

end ActorNet
