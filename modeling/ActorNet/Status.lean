import ActorNet.Json.Source

set_option autoImplicit false

/-!
# Statuses of registered actors

Only an enabled actor is fired.
-/
namespace ActorNet

inductive Status where
  | enabled
  | paused
  | migrating
  | terminating
deriving DecidableEq, Repr, Inhabited

namespace Status

def text : Status → String
  | enabled => "enabled"
  | paused => "paused"
  | migrating => "migrating"
  | terminating => "terminating"

def all : List Status := [enabled, paused, migrating, terminating]

def ofText? (name : String) : Option Status := all.find? (·.text == name)

theorem ofText?_text (status : Status) : ofText? status.text = some status := by
  cases status <;> rfl

def ofSource? (source : Json.Source) : Option Status := source.choice?.bind ofText?

def isEnabled : Status → Bool
  | enabled => true
  | paused | migrating | terminating => false

end Status

end ActorNet
