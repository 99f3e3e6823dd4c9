import ActorNet.Actor

set_option autoImplicit false

/-!
# The registry

Registered actors with their statuses, in the order of their registration, and the wires between their
ports in the order in which they were laid. A change that is refused leaves everything as it was, apart from
what a refused arrival did to the fields of its actor.
-/
namespace ActorNet

structure Entrant (σ : Type) where
  actor : Actor σ
  status : Status

structure Wire where
  source : PortAddr
  target : PortAddr
deriving DecidableEq, Repr

structure Registry (σ : Type) where
  entries : List (Entrant σ) := []
  wires : List Wire := []

namespace Registry

variable {σ : Type}

def empty : Registry σ := {}

def ids (r : Registry σ) : List ActorId := r.entries.map (·.actor.id)

def size (r : Registry σ) : Nat := r.entries.length

def entry? (r : Registry σ) (id : ActorId) : Option (Entrant σ) := r.entries.find? (·.actor.id = id)

def contains (r : Registry σ) (id : ActorId) : Bool := (r.entry? id).isSome

def actor? (r : Registry σ) (id : ActorId) : Option (Actor σ) := (r.entry? id).map (·.actor)

def status? (r : Registry σ) (id : ActorId) : Option Status := (r.entry? id).map (·.status)

def enabled (r : Registry σ) : List ActorId :=
  (r.entries.filter (·.status.isEnabled)).map (·.actor.id)

def modify (r : Registry σ) (id : ActorId) (f : Entrant σ → Entrant σ) : Registry σ :=
  { r with entries := r.entries.map fun e => if e.actor.id = id then f e else e }

def setActor (r : Registry σ) (id : ActorId) (actor : Actor σ) : Registry σ :=
  r.modify id ({ · with actor })

def modifyPorts (r : Registry σ) (id : ActorId) (f : Ports → Ports) : Registry σ :=
  r.modify id fun e => { e with actor := { e.actor with ports := f e.actor.ports } }

def entry (r : Registry σ) (id : ActorId) : Except ActorError (Entrant σ) :=
  match r.entry? id with
  | some e => .ok e
  | none => .error (.notFound id)

def expectStatus (r : Registry σ) (id : ActorId) (expected : Status) : Except ActorError (Entrant σ) := do
  let e ← r.entry id
  if e.status = expected then return e
  else throw (.invalidStatus id e.status.text expected.text)

def setStatus (r : Registry σ) (id : ActorId) (status : Status) : Except ActorError (Registry σ) := do
  let _ ← r.entry id
  return r.modify id ({ · with status })

def port (r : Registry σ) (addr : PortAddr) (direction : PortDirection) : Except ActorError Port := do
  let e ← r.entry addr.actor
  e.actor.port addr.port direction

def add (r : Registry σ) (actor : Actor σ) : Except ActorError (Registry σ) :=
  if r.contains actor.id then .error (.alreadyRegistered actor.id)
  else .ok { r with entries := r.entries ++ [⟨actor, .enabled⟩] }

def wiresWithout (id : ActorId) (wires : List Wire) : List Wire :=
  wires.filter fun wire => wire.source.actor ≠ id ∧ wire.target.actor ≠ id

def remove (r : Registry σ) (id : ActorId) : Except ActorError (Actor σ × Registry σ) := do
  let e ← r.entry id
  return (e.actor,
    { entries := r.entries.filter (·.actor.id ≠ id), wires := wiresWithout id r.wires })

def pause (r : Registry σ) (id : ActorId) : Except ActorError (Registry σ) := r.setStatus id .paused

def resume (r : Registry σ) (id : ActorId) : Except ActorError (Registry σ) := do
  let _ ← r.expectStatus id .paused
  r.setStatus id .enabled

def markTerminating (r : Registry σ) (id : ActorId) : Except ActorError (Registry σ) :=
  r.setStatus id .terminating

def beginMigration (r : Registry σ) (id : ActorId) : Except ActorError (Registry σ) := do
  let _ ← r.expectStatus id .enabled
  return r.modify id fun e => ⟨e.actor.willMigrate, .migrating⟩

/-- The actor is asked whether it has arrived; when it refuses it stays where it is, with what the
question did to its fields. -/
def completeMigration (r : Registry σ) (id : ActorId) : Registry σ × Except ActorError Unit :=
  match r.expectStatus id .migrating with
  | .error e => (r, .error e)
  | .ok e =>
    match e.actor.didMigrate with
    | (actor, .error refusal) => (r.setActor id actor, .error (.migration id refusal))
    | (actor, .ok ()) => (r.modify id fun _ => ⟨actor, .enabled⟩, .ok ())

def connect (r : Registry σ) (source target : PortAddr) : Except ActorError (Registry σ) := do
  let _ ← r.port source .output
  let _ ← r.port target .input
  let wire : Wire := ⟨source, target⟩
  return if wire ∈ r.wires then r else { r with wires := r.wires ++ [wire] }

/-- The targets of a port, in the order in which they were connected. -/
def targets (r : Registry σ) (source : PortAddr) : List PortAddr :=
  (r.wires.filter (·.source = source)).map (·.target)

def pushInput (r : Registry σ) (target : PortAddr) (token : Token) : Except ActorError (Registry σ) := do
  let _ ← r.port target .input
  return r.modifyPorts target.actor (·.push target.port [token])

def drainOutput (r : Registry σ) (source : PortAddr) : Except ActorError (List Token × Registry σ) := do
  let port ← r.port source .output
  return (port.queue, r.modifyPorts source.actor (·.setQueue source.port []))

end Registry

end ActorNet
