import ActorNet.Registry

set_option autoImplicit false

/-!
# Firing registered actors

What an actor produces on a wired output is delivered right after its firing: each wire of that output gets
a copy of everything that waits there.
-/
namespace ActorNet.Registry

variable {σ : Type}

def outgoing (r : Registry σ) (id : ActorId) : List (String × List Token) :=
  match r.actor? id with
  | none => []
  | some actor =>
    (actor.ports.pendingOutputs.filter fun name => r.targets ⟨id, name⟩ ≠ []).map fun name =>
      (name, (actor.ports[name]?.map (·.queue)).getD [])

/-- Append tokens to each target that exists; the actors reached come along. -/
def send (tokens : List Token) : List PortAddr → Registry σ → Registry σ × List ActorId
  | [], r => (r, [])
  | target :: targets, r =>
    match (r.actor? target.actor).bind (·.ports[target.port]?) with
    | none => send tokens targets r
    | some _ =>
      let (r, reached) := send tokens targets (r.modifyPorts target.actor (·.push target.port tokens))
      (r, target.actor :: reached)

def deliver (r : Registry σ) (id : ActorId) : Registry σ × List ActorId :=
  let outgoing := r.outgoing id
  let drained := r.modifyPorts id fun ports =>
    outgoing.foldl (fun ports (name, _) => ports.setQueue name []) ports
  outgoing.foldl
    (fun (r, reached) (name, tokens) =>
      let (r, more) := send tokens (r.targets ⟨id, name⟩) r
      (r, reached ++ more))
    (drained, [])

def fireActor (r : Registry σ) (id : ActorId) : Logged (Registry σ × Outcome FiringError FiringResult) := do
  match r.actor? id with
  | none => return (r, .error (.unknownActor id))
  | some actor =>
    let (actor, outcome) ← actor.fire
    let r := r.setActor id actor
    match outcome with
    | .ok result =>
      if result.didFire then
        let (r, reached) := r.deliver id
        return (r, .ok (result.addAffected reached))
      else return (r, .ok result)
    | outcome => return (r, outcome)

end ActorNet.Registry
