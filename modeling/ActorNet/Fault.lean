import ActorNet.Address
import ActorNet.Port

set_option autoImplicit false

/-!
# Faults

What can go wrong, by who meets it: a guard, an action, a firing, a migration hook, the registry, the
scheduler. Each kind of fault names its causes; its `message` is the one place that words them.
Code that callers supply may also panic; a panic carries a text or something that is not a text.
-/
namespace ActorNet

inductive Panic where
  | text (message : String)
  | nonText
deriving DecidableEq, Repr, Inhabited

def Panic.message : Panic → String
  | text message => message
  | nonText => "non-string panic payload"

/-- What running supplied code comes to: an answer, a refusal with its cause, or a panic. -/
inductive Outcome (ε α : Type) where
  | ok (value : α)
  | error (cause : ε)
  | panic (payload : Panic)
deriving DecidableEq, Repr

namespace Outcome

variable {ε α β : Type}

def catchPanic (cause : Panic → ε) : Outcome ε α → Except ε α
  | ok value => .ok value
  | error e => .error e
  | panic payload => .error (cause payload)

def andThen (x : Outcome ε α) (f : α → Except ε β) : Outcome ε β :=
  match x with
  | ok value =>
    match f value with
    | .ok value => ok value
    | .error e => error e
  | error e => error e
  | panic payload => panic payload

def ofExcept : Except ε α → Outcome ε α
  | .ok value => ok value
  | .error e => error e

end Outcome

structure GuardError where
  reason : String
deriving DecidableEq, Repr, Inhabited

def GuardError.message (e : GuardError) : String := "guard failed: " ++ e.reason

inductive ActionError where
  | failed (reason : String)
  | unexpectedToken (port : String) (kind : TokenKind)
  | productionArity (action : String) (expected actual : Nat)
deriving DecidableEq, Repr, Inhabited

def ActionError.message : ActionError → String
  | failed reason => "action failed: " ++ reason
  | unexpectedToken port kind => "unexpected " ++ kind.text ++ " token on port '" ++ port ++ "'"
  | productionArity action expected actual =>
    "action '" ++ action ++ "' produced " ++ toString actual ++ " tokens for " ++ toString expected
      ++ " output ports"

inductive FiringError where
  | action (actor : ActorId) (action : String) (source : ActionError)
  | controlToken (actor : ActorId) (action : String) (kind : TokenKind)
  | panicked (actor : ActorId) (reason : String)
  | unknownActor (actor : ActorId)
deriving DecidableEq, Repr, Inhabited

namespace FiringError

def actor : FiringError → ActorId
  | .action id _ _ | controlToken id _ _ | panicked id _ | unknownActor id => id

def source? : FiringError → Option ActionError
  | .action _ _ source => some source
  | _ => none

def message : FiringError → String
  | .action id name source =>
    "actor " ++ id.text ++ " action '" ++ name ++ "' failed: " ++ source.message
  | controlToken id name kind =>
    "actor " ++ id.text ++ " action '" ++ name ++ "' received " ++ kind.text ++ " token"
  | panicked id reason => "actor " ++ id.text ++ " panicked while firing: " ++ reason
  | unknownActor id => "actor " ++ id.text ++ " not found"

def chain (e : FiringError) : String :=
  match e.source? with
  | some source => e.message ++ ": " ++ source.message
  | none => e.message

end FiringError

structure MigrationError where
  reason : String
deriving DecidableEq, Repr, Inhabited

def MigrationError.message (e : MigrationError) : String := "migration failed: " ++ e.reason

inductive ActorError where
  | notFound (actor : ActorId)
  | alreadyRegistered (actor : ActorId)
  | unknownPort (addr : PortAddr)
  | wrongDirection (addr : PortAddr) (expected : PortDirection)
  | invalidType (name : String) (reason : String)
  | invalidStatus (actor : ActorId) (status expected : String)
  | migration (actor : ActorId) (source : MigrationError)
deriving DecidableEq, Repr, Inhabited

def ActorError.message : ActorError → String
  | notFound actor => "actor not found: " ++ actor.text
  | alreadyRegistered actor => "actor already registered: " ++ actor.text
  | unknownPort addr => "unknown port: " ++ addr.text
  | wrongDirection addr expected => "port " ++ addr.text ++ " is not an " ++ expected.text ++ " port"
  | invalidType name reason => "invalid actor type '" ++ name ++ "': " ++ reason
  | invalidStatus actor status expected =>
    "actor " ++ actor.text ++ " is " ++ status ++ ", expected " ++ expected
  | migration actor source => "actor " ++ actor.text ++ ": " ++ source.message

inductive RunError where
  | configRead (path reason : String)
  | configParse (reason : String)
  | invalidConfig (reason : String)
  | startFailed (reason : String)
  | closed
  | invariantViolated (reason : String)
  | io (reason : String)
deriving DecidableEq, Repr, Inhabited

namespace RunError

def message : RunError → String
  | configRead path reason => "failed to read config '" ++ path ++ "': " ++ reason
  | configParse reason => "config parse error: " ++ reason
  | invalidConfig reason => "invalid config: " ++ reason
  | startFailed reason => "failed to start runtime: " ++ reason
  | closed => "scheduler is closed"
  | invariantViolated reason => "scheduler invariant violated: " ++ reason
  | io reason => "I/O error: " ++ reason

/-- Only a broken invariant leaves nothing to go on with. -/
def isFatal : RunError → Bool
  | invariantViolated _ => true
  | _ => false

end RunError

end ActorNet
