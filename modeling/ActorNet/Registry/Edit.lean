import ActorNet.Registry

set_option autoImplicit false

/-!
# Changes of the registry

The changes that callers make between firings, as data, so that a history of a registry is a list.
-/
namespace ActorNet

inductive Edit (σ : Type) where
  | add (actor : Actor σ)
  | remove (id : ActorId)
  | pause (id : ActorId)
  | resume (id : ActorId)
  | terminate (id : ActorId)
  | beginMigration (id : ActorId)
  | completeMigration (id : ActorId)
  | connect (source target : PortAddr)
  | push (target : PortAddr) (token : Token)
  | drain (source : PortAddr)

inductive Reply (σ : Type) where
  | done
  | registered (id : ActorId)
  | removed (actor : Actor σ)
  | drained (tokens : List Token)

namespace Registry

variable {σ : Type}

/-- The registry after a change that either happens or leaves everything as it is. -/
def settle {α : Type} (r : Registry σ) (answer : α → Reply σ) :
    Except ActorError (α × Registry σ) → Registry σ × Except ActorError (Reply σ)
  | .ok (value, r) => (r, .ok (answer value))
  | .error e => (r, .error e)

def change (r : Registry σ) : Edit σ → Registry σ × Except ActorError (Reply σ)
  | .add actor => r.settle (fun () => .registered actor.id) ((r.add actor).map ((), ·))
  | .remove id => r.settle .removed (r.remove id)
  | .pause id => r.settle (fun () => .done) ((r.pause id).map ((), ·))
  | .resume id => r.settle (fun () => .done) ((r.resume id).map ((), ·))
  | .terminate id => r.settle (fun () => .done) ((r.markTerminating id).map ((), ·))
  | .beginMigration id => r.settle (fun () => .done) ((r.beginMigration id).map ((), ·))
  | .completeMigration id =>
    let (r, answer) := r.completeMigration id
    (r, answer.map fun () => .done)
  | .connect source target => r.settle (fun () => .done) ((r.connect source target).map ((), ·))
  | .push target token => r.settle (fun () => .done) ((r.pushInput target token).map ((), ·))
  | .drain source => r.settle .drained (r.drainOutput source)

def changeEvents : Edit σ → List Event
  | .add actor => [.registered actor.id actor.kind.name]
  | .remove id => [.removed id]
  | .pause id => [.statusChanged id .paused]
  | .resume id => [.statusChanged id .enabled]
  | .terminate id => [.statusChanged id .terminating]
  | .beginMigration id => [.migrating id]
  | .completeMigration id => [.migrationComplete id]
  | .connect .. | .push .. | .drain _ => []

def edit (r : Registry σ) (e : Edit σ) : Logged (Registry σ × Except ActorError (Reply σ)) := do
  let (r, answer) := r.change e
  if answer.isOk then Logged.notes (changeEvents e)
  return (r, answer)

end Registry

end ActorNet
