import ActorNet.ActorType
import ActorNet.FiringResult
import ActorNet.Journal.Logged

set_option autoImplicit false

/-!
# Actors and their firing

An actor has an ID, a type, ports and a field state. Firing selects the first ready action, takes its
tokens, and runs its body; control tokens and failures go to the handler of the type, or become the error
of the firing when there is none. A firing ends with a production, with the failure absorbed, with an error,
or with a panic of the handler, which nothing here holds back.
-/
namespace ActorNet

structure Actor (σ : Type) where
  id : ActorId
  kind : ActorType σ
  ports : Ports
  state : σ

namespace Actor

variable {σ : Type}

def new (id : ActorId) (kind : ActorType σ) (state : σ) : Actor σ := ⟨id, kind, kind.newPorts, state⟩

def port (actor : Actor σ) (name : String) (direction : PortDirection) : Except ActorError Port :=
  match actor.ports[name]? with
  | none => .error (.unknownPort ⟨actor.id, name⟩)
  | some port =>
    if port.direction = direction then .ok port else .error (.wrongDirection ⟨actor.id, name⟩ direction)

def pushInput (actor : Actor σ) (name : String) (token : Token) : Except ActorError (Actor σ) := do
  let _ ← actor.port name .input
  return { actor with ports := actor.ports.push name [token] }

def drainOutput (actor : Actor σ) (name : String) : Except ActorError (List Token × Actor σ) := do
  let port ← actor.port name .output
  return (port.queue, { actor with ports := actor.ports.setQueue name [] })

def reraise (id : ActorId) (action : Action σ) : Cause → FiringError
  | .control kind => .controlToken id action.name kind
  | .body error => .action id action.name error

/-- What the handler makes of a failure: a production, nothing, an error, or a panic. -/
def recover (actor : Actor σ) (failure : Failure σ) : σ × Outcome FiringError (Option Production) :=
  match actor.kind.handler with
  | none => (actor.state, .error (reraise actor.id failure.action failure.cause))
  | some handler =>
    let fail := FiringError.action actor.id failure.action.name
    match handler actor.state failure with
    | (state, .ok .absorbed) => (state, .ok none)
    | (state, .ok (.fired production)) =>
      match failure.action.checkProduction production with
      | .ok production => (state, .ok (some production))
      | .error e => (state, .error (fail e))
    | (state, .error e) => (state, .error (fail e))
    | (state, .panic payload) => (state, .panic payload)

def emit (actor : Actor σ) (outputs : List String) (production : Production) : Actor σ × FiringResult :=
  let produced := outputs.zip production
  let ports := produced.foldl (fun ports (name, token) => ports.push name [token]) actor.ports
  let map := produced.foldl (fun (map : ProductionMap) (name, token) => map.add ⟨actor.id, name⟩ [token]) ∅
  ({ actor with ports }, .fired actor.id map)

def run (actor : Actor σ) (action : Action σ) (control : Option TokenKind) :
    Actor σ × Outcome FiringError (Option Production) :=
  let (args, ports) := action.condition.consume actor.ports
  let actor := { actor with ports }
  let (actor, cause) : Actor σ × Except Cause Production :=
    match control with
    | some kind => (actor, .error (.control kind))
    | none =>
      let (state, answer) := action.attempt actor.state args
      ({ actor with state }, answer.mapError .body)
  match cause with
  | .ok production => (actor, .ok (some production))
  | .error cause =>
    let (state, outcome) := actor.recover ⟨action, args, cause⟩
    ({ actor with state }, outcome)

def passedEvent (actor : Actor σ) (action : Action σ) : Action.Obstacle → Event
  | .conditionNotMet => .conditionNotMet actor.id action.name
  | .guardRejected => .guardRejected actor.id action.name
  | .guardFailed e => .guardFailed actor.id actor.kind.name action.name e

def fire (actor : Actor σ) : Logged (Actor σ × Outcome FiringError FiringResult) := do
  let (passed, chosen) := Action.select actor.ports actor.state actor.kind.actions
  Logged.notes (passed.map fun (action, obstacle) => actor.passedEvent action obstacle)
  match chosen with
  | none => return (actor, .ok .idle)
  | some (action, control) =>
    match actor.run action control with
    | (actor, .ok (some production)) =>
      Logged.note (.fired actor.id action.name)
      let (actor, result) := actor.emit action.condition.outputs production
      return (actor, .ok result)
    | (actor, .ok none) =>
      Logged.note (.failureAbsorbed actor.id action.name)
      return (actor, .ok .idle)
    | (actor, .error e) => return (actor, .error e)
    | (actor, .panic payload) => return (actor, .panic payload)

def willMigrate (actor : Actor σ) : Actor σ := { actor with state := actor.kind.hooks.before actor.state }

def didMigrate (actor : Actor σ) : Actor σ × Except MigrationError Unit :=
  let (state, answer) := actor.kind.hooks.after actor.state
  ({ actor with state }, answer)

end Actor

end ActorNet
