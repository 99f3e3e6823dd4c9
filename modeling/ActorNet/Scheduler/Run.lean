import ActorNet.Scheduler.Step

set_option autoImplicit false

/-!
# The run loop

The loop takes turns of several steps as long as anything is due. It pauses after each turn, and commands
whose time has come are sent then. When nothing is due it sleeps until the next deadline or the next command,
whichever comes first, and goes on until the halt. Time passes while it sleeps, in one
jump to the next instant at which something happens; a sleeper wakes on whole milliseconds. The scheduler's
clock goes on with that time, unless it is a manual one: then the deadlines are no nearer after a sleep,
and only commands bring anything new. Commands that are still to come when a run ends are left for the next
one. The loop has no bound of its own, since actors may keep one another busy for ever: it runs on fuel, a
unit a turn.
-/
namespace ActorNet

structure Arrival where
  time : Instant
  command : Command
deriving DecidableEq

/-- What happens outside a sleeping scheduler: the time by which sleepers wake, the commands to come,
earliest first, and the instant at which its run is broken off, if it is. The scheduler's own clock may
stand still while that time passes. -/
structure Outside where
  now : Instant := .origin
  clockStands : Bool := false
  arrivals : List Arrival := []
  limit : Option Instant := none

/-- How a run ends. `unfinished` is a run out of fuel, or asleep for ever. -/
inductive Ending where
  | halted
  | timeout
  | unfinished
deriving DecidableEq, Repr

inductive Turn where
  | quiet
  | busy
  | halted
deriving DecidableEq, Repr

inductive Awakening where
  | command (arrival : Arrival) (rest : List Arrival)
  | deadline (time : Instant)
  | limit (time : Instant)
  | never

namespace Outside

def insert (arrival : Arrival) : List Arrival → List Arrival
  | [] => [arrival]
  | other :: rest => if arrival.time < other.time then arrival :: other :: rest else other :: insert arrival rest

def addFeed (outside : Outside) (feed : List (Duration × Command)) : Outside :=
  let join (sorted : List Arrival) (entry : Duration × Command) : List Arrival :=
    insert ⟨(outside.now.after entry.1).nextMilli, entry.2⟩ sorted
  { outside with arrivals := feed.foldl join outside.arrivals }

def stopAfter (outside : Outside) (span : Duration) : Outside :=
  { outside with limit := some (outside.now.after span) }

def comesFirst (t : Instant) : Option Instant → Bool
  | some other => t ≤ other
  | none => true

/-- What comes first, for a sleeper with so long to wait for its deadline. At the same instant the deadline
comes before the limit, and the limit before a command. -/
def awakening (outside : Outside) (wait : Option Duration) : Awakening :=
  let arrival := outside.arrivals.head?.map (·.time)
  match wait.map fun span => (outside.now.after span).nextMilli with
  | some t =>
    if comesFirst t outside.limit && comesFirst t arrival then .deadline t else limitOrCommand arrival
  | none => limitOrCommand arrival
where
  limitOrCommand (arrival : Option Instant) : Awakening :=
    match outside.limit, outside.arrivals with
    | some l, arrivals => if comesFirst l arrival then .limit l else commandOf arrivals
    | none, arrivals => commandOf arrivals
  commandOf : List Arrival → Awakening
    | arrival :: rest => .command arrival rest
    | [] => .never

def isOver (outside : Outside) : Bool := outside.limit.any (· ≤ outside.now)

end Outside

namespace Scheduler

variable {σ : Type}

def turnFrom (turn : Turn) : Nat → Scheduler σ → Logged (Scheduler σ × Turn)
  | 0, s => return (s, turn)
  | steps + 1, s => do
    let (s, step) ← s.step
    match step with
    | .nothing => return (s, turn)
    | .halted => return (s, .halted)
    | .cycle _ | .heartbeat => turnFrom .busy steps s

def turn (steps : Nat) (s : Scheduler σ) : Logged (Scheduler σ × Turn) := turnFrom .quiet steps s

def waitFor (s : Scheduler σ) (deadline : Instant) : Duration := deadline.since s.now

def sleepUntil (s : Scheduler σ) (t : Instant) (outside : Outside) : Scheduler σ × Outside :=
  let s := if outside.clockStands then s else { s with now := s.now.after (t.since outside.now) }
  (s, { outside with now := t })

def collect (s : Scheduler σ) (outside : Outside) : Scheduler σ × Outside :=
  let (arrived, arrivals) := outside.arrivals.span (·.time ≤ outside.now)
  ({ s with inbox := s.inbox ++ arrived.map Arrival.command }, { outside with arrivals })

def runLoop : Nat → Outside → Scheduler σ → Logged (Scheduler σ × Outside × Ending)
  | 0, outside, s => return (s, outside, .unfinished)
  | fuel + 1, outside, s => do
    let (s, turn) ← turn s.config.maxCyclesPerTurn s
    match turn with
    | .halted => return (s, outside, .halted)
    | .busy =>
      if outside.isOver then return (s, outside, .timeout)
      else
        let (s, outside) := s.collect outside
        runLoop fuel outside s
    | .quiet =>
      let (deadline, timers) := s.timers.nextDeadline
      let s := { s with timers }
      match outside.awakening (deadline.map s.waitFor) with
      | .command arrival arrivals =>
        let (s, outside) := s.sleepUntil arrival.time { outside with arrivals }
        let (s, outside) := s.collect outside
        runLoop fuel outside (← s.obey arrival.command)
      | .deadline t =>
        let (s, outside) := s.sleepUntil t outside
        runLoop fuel outside s
      | .limit t =>
        let (s, outside) := s.sleepUntil t outside
        return (s, outside, .timeout)
      | .never => return (s, outside, .unfinished)

def run (fuel : Nat) (outside : Outside) (s : Scheduler σ) : Logged (Scheduler σ × Outside × Ending) := do
  Logged.note (.running s.config.heartbeat)
  let s ← s.drain
  let s := if !s.done && s.scheduledCycles = 0 then s.scheduleImmediate true else s
  runLoop fuel outside s

def alreadyRunning : RunError :=
  .startFailed "run() called from inside a tokio runtime; use run_async"

end Scheduler

end ActorNet
