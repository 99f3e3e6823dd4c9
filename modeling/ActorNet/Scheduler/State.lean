import ActorNet.Config
import ActorNet.Registry.Delivery
import ActorNet.Registry.Edit
import ActorNet.Timers

set_option autoImplicit false

/-!
# State of a scheduler

A scheduler owns a registry and wakes up by timers. It is idle while no cycle is scheduled and active
otherwise. Requests for single actors gather in `pending`; at most one immediate cycle serves them, and at
most one heartbeat stands by for a full sweep when nothing else happens. Commands from handles wait in
`inbox` until the scheduler looks there.
-/
namespace ActorNet

inductive Wakeup where
  | cycle (all : Bool)
  | heartbeat
  | halt
deriving DecidableEq, Repr

inductive Command where
  | trigger (delay : Duration) (targets : Targets)
  | stop
deriving DecidableEq

/-- What a monitor does when it is polled: it sends commands, and tells whether it saw activity. -/
structure Poll where
  active : Bool := false
  send : List Command := []

/-- A monitor, by the number of its polls so far. -/
abbrev Monitor := Nat → Poll

def Monitor.silent : Monitor := fun _ => {}

structure Stats where
  cycles : Nat := 0
  fullSweeps : Nat := 0
  firingCycles : Nat := 0
  fireErrors : Nat := 0
  heartbeatsArmed : Nat := 0
  heartbeatsExpired : Nat := 0
  triggersDropped : Nat := 0
deriving DecidableEq, Repr, Inhabited

inductive Phase where
  | idle
  | active
  | stopped
deriving DecidableEq, Repr

def Phase.text : Phase → String
  | idle => "idle"
  | active => "active"
  | stopped => "stopped"

structure Scheduler (σ : Type) where
  config : Config
  registry : Registry σ
  monitor : Monitor := .silent
  polls : Nat := 0
  now : Instant := .origin
  timers : TimerQueue Wakeup := {}
  pending : ActorSet := ∅
  unaddressed : Bool := false
  immediate : Option TimerId := none
  immediateSweep : Bool := false
  heartbeat : Option TimerId := none
  done : Bool := false
  halted : Bool := false
  cycle : Nat := 0
  stats : Stats := {}
  inbox : List Command := []

namespace Scheduler

variable {σ : Type}

def new (registry : Registry σ) (config : Config) : Except RunError (Scheduler σ) := do
  config.validate
  return { config, registry }

def isPending (s : Scheduler σ) (timer : Option TimerId) : Bool := timer.any s.timers.isPending

def hasImmediateCycle (s : Scheduler σ) : Bool := s.isPending s.immediate

def isHeartbeatArmed (s : Scheduler σ) : Bool := s.isPending s.heartbeat

def scheduledCycles (s : Scheduler σ) : Nat :=
  s.timers.payloads.countP fun
    | .cycle _ => true
    | _ => false

def phase (s : Scheduler σ) : Phase :=
  if s.done || s.halted then .stopped
  else if 0 < s.scheduledCycles then .active
  else .idle

def schedule (s : Scheduler σ) (delay : Duration) (wakeup : Wakeup) : TimerId × Scheduler σ :=
  let (id, timers) := s.timers.scheduleAfter s.now delay wakeup
  (id, { s with timers })

def cancel (s : Scheduler σ) (timer : Option TimerId) : Scheduler σ :=
  match timer with
  | some id => { s with timers := (s.timers.cancel id).2 }
  | none => s

def send (s : Scheduler σ) (command : Command) : Scheduler σ := { s with inbox := s.inbox ++ [command] }

def advance (s : Scheduler σ) (span : Duration) : Scheduler σ := { s with now := s.now.advance span }

end Scheduler

end ActorNet
