import ActorNet.Scheduler.State

set_option autoImplicit false

/-!
# Requests

A trigger with a delay schedules a full sweep of its own. One without delay asks for an immediate cycle:
requests for single actors join the pending set and share a cycle, a request for all makes that cycle a
full sweep. After a stop, triggers are ignored.
-/
namespace ActorNet.Scheduler

variable {σ : Type}

/-- Make sure that an immediate cycle is outstanding. A full sweep takes the place of whatever was. -/
def scheduleImmediate (s : Scheduler σ) (all : Bool) : Scheduler σ :=
  if !all && s.hasImmediateCycle then s
  else
    let (id, s) := (s.cancel s.immediate).schedule .zero (.cycle all)
    { s with immediate := some id, immediateSweep := all }

def cancelHeartbeat (s : Scheduler σ) : Scheduler σ := { s.cancel s.heartbeat with heartbeat := none }

def armHeartbeat (s : Scheduler σ) : Scheduler σ :=
  let s := s.cancelHeartbeat
  let (id, s) := s.schedule s.config.heartbeat .heartbeat
  { s with
    heartbeat := some id
    stats := { s.stats with heartbeatsArmed := countUp s.stats.heartbeatsArmed } }

/-- Add the named actors to the pending set. A request that leaves nobody to serve but the marker for
"no actor" is dropped. -/
def requestActors (s : Scheduler σ) (ids : Std.ExtTreeSet (Option ActorId) compare) : Logged (Scheduler σ) :=
  let s := { s with
    unaddressed := s.unaddressed || ids.contains none
    pending := s.pending.insertMany (ids.toList.filterMap id) }
  if s.pending.isEmpty && s.unaddressed then do
    Logged.note .triggerDropped
    return { s with stats := { s.stats with triggersDropped := countUp s.stats.triggersDropped } }
  else return s.scheduleImmediate false

def announce (s : Scheduler σ) (delay : Duration) (targets : Targets) : Logged Unit := do
  Logged.write (.hook s.now (.trigger delay targets))
  if s.config.traceTriggers then Logged.notes [.triggerRequested delay targets, .triggerProvenance]

def trigger (s : Scheduler σ) (delay : Duration) (targets : Targets) : Logged (Scheduler σ) := do
  s.announce delay targets
  if s.done then
    Logged.note (.triggerIgnored targets)
    return s
  else if !delay.isZero then
    Logged.note (.sweepDelayed delay)
    return (s.schedule delay (.cycle true)).2
  else
    match targets with
    | .all => return s.scheduleImmediate true
    | .actors ids => s.requestActors ids

def stop (s : Scheduler σ) : Logged (Scheduler σ) := do
  if s.done then return s
  else
    Logged.note .stopping
    return { (s.schedule .zero .halt).2 with done := true }

def obey (s : Scheduler σ) : Command → Logged (Scheduler σ)
  | .trigger delay targets => s.trigger delay targets
  | .stop => s.stop

def sendTo (command : Command) : Option (Scheduler σ) → Option (Scheduler σ) × Except RunError Unit
  | some s => (some (s.send command), .ok ())
  | none => (none, .error .closed)

def drain (s : Scheduler σ) : Logged (Scheduler σ) :=
  s.inbox.foldlM obey { s with inbox := [] }

def edit (s : Scheduler σ) (change : Edit σ) : Logged (Scheduler σ × Except ActorError (Reply σ)) := do
  let (registry, answer) ← s.registry.edit change
  let s := { s with registry }
  match change, answer with
  | .completeMigration id, .ok _ => return (← s.trigger .zero (.one id), answer)
  | _, _ => return (s, answer)

end ActorNet.Scheduler
