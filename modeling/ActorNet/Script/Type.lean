import ActorNet.Script.Body

set_option autoImplicit false

/-!
# Scripted actor types

A type in the little language of guards, bodies and handlers, and the declaration that it stands for.
A handler notes what it was told, and then does what its first fitting case says.
-/
namespace ActorNet.Script

/-- What a case of a handler does with the tokens it has emitted. -/
inductive Conclusion where
  | absorb
  | fire
  | invoke
deriving DecidableEq, Repr

structure Case where
  on : String
  statements : List Statement
  conclusion : Conclusion

def causeKind : Cause → String
  | .control kind => kind.text
  | .body _ => "body"

def causeText : Cause → String
  | .control kind => "control " ++ kind.text
  | .body e => "body " ++ e.message

def failureNote (failure : Failure Fields) : String :=
  failure.action.name ++ " " ++ toString failure.args.length ++ " " ++ causeText failure.cause

def fired : Outcome ActionError Production → Outcome ActionError Recovery
  | .ok production => .ok (.fired production)
  | .error e => .error e
  | .panic payload => .panic payload

def Case.run (c : Case) (fields : Fields) (failure : Failure Fields) :
    Fields × Outcome ActionError Recovery :=
  match Statement.runAll failure.args c.statements fields with
  | (fields, .ok emitted) =>
    match c.conclusion with
    | .absorb => (fields, .ok .absorbed)
    | .fire => (fields, .ok (.fired emitted))
    | .invoke =>
      let (fields, outcome) := failure.action.invoke fields failure.args
      (fields, fired outcome)
  | (fields, .error e) => (fields, .error e)
  | (fields, .panic payload) => (fields, .panic payload)

def handle (cases : List Case) : Handler Fields := fun fields failure =>
  let fields := fields.note (failureNote failure)
  let kind := causeKind failure.cause
  match cases.find? fun c => c.on == "any" || c.on == kind with
  | some c => c.run fields failure
  | none => (fields, .error (.failed ("unhandled " ++ kind)))

structure ActionScript where
  name : String
  inputs : List String
  outputs : List String
  guard : Option Guard
  body : List Statement

def ActionScript.action (a : ActionScript) : Action Fields where
  name := a.name
  condition := ⟨a.inputs, a.outputs⟩
  guard := a.guard.map fun guard fields tokens => guard.eval fields tokens
  body fields args := Statement.runAll args a.body fields

structure TypeScript where
  name : String
  inputs : List String
  outputs : List String
  actions : List ActionScript
  handler : Option (List Case)

def TypeScript.declaration (t : TypeScript) : Declaration Fields where
  name := t.name
  inputs := t.inputs
  outputs := t.outputs
  actions := t.actions.map ActionScript.action
  handler := t.handler.map handle
  hooks := Fields.migration

end ActorNet.Script
