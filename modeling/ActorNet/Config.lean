import ActorNet.Fault
import ActorNet.Time

set_option autoImplicit false

/-!
# Configuration of a scheduler

How long an idle scheduler waits before it sweeps, which actors a cycle fires, whether triggers are traced,
and how many wakeups the run loop serves in one turn.
-/
namespace ActorNet

structure Config where
  heartbeat : Duration := .ofMillis 1000
  restrictToTriggered : Bool := false
  traceTriggers : Bool := false
  maxCyclesPerTurn : Nat := 64
deriving DecidableEq, Repr

namespace Config

instance : Inhabited Config := ⟨{}⟩

def fault? (config : Config) : Option RunError :=
  if config.heartbeat.isZero then some (.invalidConfig "heartbeat_ms must be greater than 0")
  else if config.maxCyclesPerTurn = 0 then
    some (.invalidConfig "max_cycles_per_turn must be greater than 0")
  else none

def validate (config : Config) : Except RunError Unit :=
  match config.fault? with
  | some fault => .error fault
  | none => .ok ()

end Config

end ActorNet
