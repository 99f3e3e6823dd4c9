import ActorNet.Config
import ActorNet.Journal.Logged
import ActorNet.Text.Blank
import ActorNet.Text.Unsigned

set_option autoImplicit false

/-!
# Overrides from the environment

Variables may override some fields of a configuration. A value that cannot be read is logged and skipped.
-/
namespace ActorNet.Config

def wordOverride (key raw : String) : Except RunError Nat :=
  (Text.unsigned (Text.trim raw.toList)).mapError fun fault =>
    .invalidConfig (key ++ "=" ++ raw ++ ": " ++ fault.message)

def lowerAscii (c : Char) : Char := if 'A' ≤ c ∧ c ≤ 'Z' then Char.ofNat (c.toNat + 32) else c

def flagOverride (key raw : String) : Except RunError Bool :=
  let word := String.ofList ((Text.trim raw.toList).map lowerAscii)
  if ["1", "true", "yes", "on"].contains word then .ok true
  else if ["0", "false", "no", "off"].contains word then .ok false
  else .error (.invalidConfig (key ++ "=" ++ raw ++ ": expected a boolean"))

/-- The value of a variable, if it is set and can be read. -/
def override {α : Type} (lookup : String → Option String) (key : String)
    (read : String → String → Except RunError α) : Logged (Option α) :=
  match lookup key with
  | some raw => Logged.orNone (read key raw)
  | none => return none

def heartbeatKey : String := "TOKENFLOW_HEARTBEAT_MS"

def restrictKey : String := "TOKENFLOW_RESTRICT_TO_TRIGGERED"

def traceKey : String := "TOKENFLOW_TRACE_TRIGGERS"

def withOverrides (config : Config) (lookup : String → Option String) : Logged Config := do
  let heartbeat ← override lookup heartbeatKey wordOverride
  let restrict ← override lookup restrictKey flagOverride
  let trace ← override lookup traceKey flagOverride
  return {
    config with
    heartbeat := (heartbeat.map .ofMillis).getD config.heartbeat
    restrictToTriggered := restrict.getD config.restrictToTriggered
    traceTriggers := trace.getD config.traceTriggers }

end ActorNet.Config
