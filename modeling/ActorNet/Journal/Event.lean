import ActorNet.Fault
import ActorNet.Json.Value
import ActorNet.Status
import ActorNet.Targets
import ActorNet.Time

set_option autoImplicit false

/-!
# Entries of the journal

What a run tells the outside: log events, and calls of the hooks that watch a scheduler. An event is a case
of its own for each thing that is told; its level, its message and its fields are read off the case.

A trigger also carries the place in the program it was called from. The event that tells of a trigger names that place's
file and line, its hook is given the place, and the event on the provenance shows a backtrace. All three are left out
here: the place is handed through from the caller and decides nothing.
-/
namespace ActorNet

inductive Level where
  | error
  | warn
  | info
  | debug
  | trace
deriving DecidableEq, Repr, Inhabited

namespace Level

def text : Level → String
  | error => "error"
  | warn => "warn"
  | info => "info"
  | debug => "debug"
  | trace => "trace"

def all : List Level := [error, warn, info, debug, trace]

def ofText? (name : String) : Option Level := all.find? (·.text == name)

def severity : Level → Nat
  | error => 0
  | warn => 1
  | info => 2
  | debug => 3
  | trace => 4

/-- A log kept at `limit` holds the events of that level and of the more severe ones. -/
def isWithin (level limit : Level) : Bool := level.severity ≤ limit.severity

end Level

inductive NextCycle where
  | immediate
  | heartbeat
  | stopped
deriving DecidableEq, Repr, Inhabited

namespace NextCycle

def text : NextCycle → String
  | immediate => "immediate"
  | heartbeat => "heartbeat"
  | stopped => "stopped"

def title : NextCycle → String
  | immediate => "Immediate"
  | heartbeat => "Heartbeat"
  | stopped => "Stopped"

end NextCycle

structure CycleSummary where
  cycle : Nat
  all : Bool
  eligible : Nat
  touched : Nat
  failed : Nat
  didFire : Bool
  monitorActivity : Bool
  next : NextCycle
deriving DecidableEq, Repr

inductive Event where
  | conditionNotMet (actor : ActorId) (action : String)
  | guardRejected (actor : ActorId) (action : String)
  | guardFailed (actor : ActorId) (type action : String) (error : GuardError)
  | failureAbsorbed (actor : ActorId) (action : String)
  | fired (actor : ActorId) (action : String)
  | registered (actor : ActorId) (type : String)
  | removed (actor : ActorId)
  | statusChanged (actor : ActorId) (status : Status)
  | migrating (actor : ActorId)
  | migrationComplete (actor : ActorId)
  | triggerRequested (delay : Duration) (targets : Targets)
  | triggerProvenance
  | triggerIgnored (targets : Targets)
  | sweepDelayed (delay : Duration)
  | triggerDropped
  | notTriggered (actor : ActorId)
  | actorFired (actor : ActorId) (didFire : Bool)
  | firingFailed (actor : ActorId) (text : String)
  | cycleComplete (summary : CycleSummary)
  | heartbeatExpired
  | stopping
  | halted
  | running (heartbeat : Duration)
  | operationFailed (error : RunError)
  | operationDefaulted (error : RunError)
deriving DecidableEq

namespace Event

def level : Event → Level
  | guardFailed .. | firingFailed .. | operationFailed _ | operationDefaulted _ => .warn
  | migrating _ | migrationComplete _ | stopping | halted | running _ => .info
  | registered .. | removed _ | statusChanged .. | triggerRequested .. | triggerIgnored _
  | sweepDelayed _ | triggerDropped | cycleComplete _ | heartbeatExpired => .debug
  | conditionNotMet .. | guardRejected .. | failureAbsorbed .. | fired .. | triggerProvenance
  | notTriggered _ | actorFired .. => .trace

def message : Event → String
  | conditionNotMet .. => "condition not met"
  | guardRejected .. => "guard rejected"
  | guardFailed .. => "Guard evaluation failed, treating action as not eligible"
  | failureAbsorbed .. => "failure absorbed"
  | fired .. => "fired"
  | registered .. => "Actor registered"
  | removed _ => "Actor removed"
  | statusChanged .. => "Actor status changed"
  | migrating _ => "Actor migrating"
  | migrationComplete _ => "Actor migration complete"
  | triggerRequested .. => "Trigger requested"
  | triggerProvenance => "Trigger provenance"
  | triggerIgnored _ => "Ignoring trigger after stop"
  | sweepDelayed _ => "Delayed sweep scheduled"
  | triggerDropped => "Ignoring trigger with no addressable actor"
  | notTriggered _ => "Not triggered, skipping"
  | actorFired .. => "Fired actor"
  | firingFailed .. => "Actor firing failed"
  | cycleComplete _ => "Cycle complete"
  | heartbeatExpired => "Heartbeat expired"
  | stopping => "Scheduler stopping"
  | halted => "Scheduler halted"
  | running _ => "Scheduler running"
  | operationFailed _ => "Operation failed"
  | operationDefaulted _ => "Operation failed, using default"

def fields : Event → List (String × Json.Value)
  | conditionNotMet id name | guardRejected id name | failureAbsorbed id name | fired id name =>
    [("actor_id", .string id.text), ("action", .string name)]
  | guardFailed id type name error =>
    [("actor_id", .string id.text), ("actor_type", .string type), ("action", .string name),
      ("error", .string error.message)]
  | registered id type => [("actor_id", .string id.text), ("actor_type", .string type)]
  | removed id | migrating id | migrationComplete id | notTriggered id => [("actor_id", .string id.text)]
  | statusChanged id status => [("actor_id", .string id.text), ("status", .string status.text)]
  | triggerRequested delay targets =>
    [("delay_ms", .int delay.millis), ("targets", .string targets.text)]
  | triggerIgnored targets => [("targets", .string targets.text)]
  | sweepDelayed delay => [("delay_ms", .int delay.millis)]
  | actorFired id didFire => [("actor_id", .string id.text), ("did_fire", .bool didFire)]
  | firingFailed id text => [("actor_id", .string id.text), ("error", .string text)]
  | cycleComplete s =>
    [("cycle", .int s.cycle), ("all", .bool s.all), ("eligible", .int s.eligible),
      ("touched", .int s.touched), ("failed", .int s.failed), ("did_fire", .bool s.didFire),
      ("monitor_activity", .bool s.monitorActivity), ("next", .string s.next.title)]
  | running heartbeat => [("heartbeat_ms", .int heartbeat.millis)]
  | operationFailed error | operationDefaulted error => [("error", .string error.message)]
  | triggerProvenance | triggerDropped | heartbeatExpired | stopping | halted => []

end Event

inductive HookCall where
  | trigger (delay : Duration) (targets : Targets)
  | cycleStart (cycle : Nat) (all : Bool)
  | fireError (error : FiringError)
deriving DecidableEq

/-- What is written: an event, or a hook called at an instant. -/
inductive Entry where
  | event (event : Event)
  | hook (time : Instant) (call : HookCall)
deriving DecidableEq

end ActorNet
