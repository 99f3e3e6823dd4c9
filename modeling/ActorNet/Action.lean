import ActorNet.Fault

set_option autoImplicit false

/-!
# Actions

An action takes a token from each port of its condition, may be held back by a guard, and answers with one
token per output port. Guards, bodies and handlers are supplied by callers: they see the field state of the
actor and the tokens given to them, and a body or a handler leaves a new field state, also when it fails or
panics half-way.
-/
namespace ActorNet

abbrev Production := List Token

structure Action (σ : Type) where
  name : String
  condition : Condition
  guard : Option (σ → List Token → Outcome GuardError Bool)
  body : σ → List Token → σ × Outcome ActionError Production

/-- Why the tokens taken for an action did not lead to a production by its body. -/
inductive Cause where
  | control (kind : TokenKind)
  | body (error : ActionError)
deriving DecidableEq, Repr

structure Failure (σ : Type) where
  action : Action σ
  args : List Token
  cause : Cause

def Failure.isEndOfStream {σ : Type} (failure : Failure σ) : Bool :=
  failure.cause = .control .endOfStream

inductive Recovery where
  | absorbed
  | fired (production : Production)
deriving DecidableEq

abbrev Handler (σ : Type) := σ → Failure σ → σ × Outcome ActionError Recovery

namespace Action

variable {σ : Type}

def checkGuard (action : Action σ) (state : σ) (tokens : List Token) : Outcome GuardError Bool :=
  match action.guard with
  | none => .ok true
  | some guard => guard state tokens

def checkProduction (action : Action σ) (production : Production) : Except ActionError Production :=
  if production.length = action.condition.outputs.length then .ok production
  else .error (.productionArity action.name action.condition.outputs.length production.length)

def invoke (action : Action σ) (state : σ) (args : List Token) : σ × Outcome ActionError Production :=
  let (state, outcome) := action.body state args
  (state, outcome.andThen action.checkProduction)

def guardVerdict (action : Action σ) (state : σ) (tokens : List Token) : Except GuardError Bool :=
  (action.checkGuard state tokens).catchPanic fun payload => ⟨"guard panicked: " ++ payload.message⟩

def attempt (action : Action σ) (state : σ) (args : List Token) : σ × Except ActionError Production :=
  let (state, outcome) := action.invoke state args
  (state, outcome.catchPanic fun payload => .failed ("action panicked: " ++ payload.message))

inductive Obstacle where
  | conditionNotMet
  | guardRejected
  | guardFailed (error : GuardError)
deriving DecidableEq, Repr

/-- How an action stands: passed over, or to be run, with the kind of the first control token at the head of
its inputs if there is one. A control token lets an action run whatever its guard says. -/
inductive Standing where
  | passed (obstacle : Obstacle)
  | ready (control : Option TokenKind)
deriving DecidableEq, Repr

def standing (action : Action σ) (ports : Ports) (state : σ) : Standing :=
  match action.condition.peek? ports with
  | none => .passed .conditionNotMet
  | some heads =>
    match heads.find? Token.isControl with
    | some token => .ready (some token.kind)
    | none =>
      match action.guardVerdict state heads with
      | .ok true => .ready none
      | .ok false => .passed .guardRejected
      | .error e => .passed (.guardFailed e)

def select (ports : Ports) (state : σ) :
    List (Action σ) → List (Action σ × Obstacle) × Option (Action σ × Option TokenKind)
  | [] => ([], none)
  | action :: actions =>
    match action.standing ports state with
    | .ready control => ([], some (action, control))
    | .passed obstacle =>
      let (passed, chosen) := select ports state actions
      ((action, obstacle) :: passed, chosen)

end Action

end ActorNet
