import ActorNet.Script.Guard

set_option autoImplicit false

/-!
# Scripted bodies

The statements of a body run in order on the fields and the arguments; the tokens that they emit are the
production. A statement that fails or panics ends the body, and what was done before it stays.
-/
namespace ActorNet.Script

inductive Statement where
  | emit (token : Token)
  | emitArg (index : Nat)
  | emitAll
  | emitSum
  | emitVar (name : String)
  | emitJoined (separator : String)
  | emitKept
  | keep
  | clear
  | add (name : String) (n : Int)
  | set (name : String) (n : Int)
  | note (text : String)
  | expectString (port : String)
  | fail (reason : String)
  | failIf (guard : Guard) (reason : String)
  | panic (payload : Panic)

namespace Statement

/-- What a statement leaves: the fields, and the tokens that it emits. -/
def run (fields : Fields) (args : List Token) : Statement → Fields × Outcome ActionError Production
  | emit token => (fields, .ok [token])
  | emitArg index =>
    match args[index]? with
    | some token => (fields, .ok [token])
    | none => (fields, .error (.failed "missing argument"))
  | emitAll => (fields, .ok args)
  | emitSum => (fields, .ok [.data (.int (sum args))])
  | emitVar name => (fields, .ok [.data (.int (fields.var name))])
  | emitJoined separator =>
    (fields, .ok [.data (.string (separator.intercalate (fields.keptTokens.filterMap Token.text?)))])
  | emitKept => (fields, .ok [.data (.array (fields.keptTokens.filterMap Token.data?))])
  | keep => (fields.keep args, .ok [])
  | clear => ({ fields with kept := [] }, .ok [])
  | add name n => (fields.add name n, .ok [])
  | set name n => (fields.set name n, .ok [])
  | note text => (fields.note text, .ok [])
  | expectString port =>
    match args.find? (·.text?.isNone) with
    | some token => (fields, .error (.unexpectedToken port token.kind))
    | none => (fields, .ok [])
  | fail reason => (fields, .error (.failed reason))
  | failIf guard reason =>
    match guard.eval fields args with
    | .ok true => (fields, .error (.failed reason))
    | .ok false | .error _ => (fields, .ok [])
    | .panic payload => (fields, .panic payload)
  | panic payload => (fields, .panic payload)

def runAll (args : List Token) : List Statement → Fields → Fields × Outcome ActionError Production
  | [], fields => (fields, .ok [])
  | statement :: statements, fields =>
    match statement.run fields args with
    | (fields, .ok emitted) =>
      match runAll args statements fields with
      | (fields, .ok more) => (fields, .ok (emitted ++ more))
      | stopped => stopped
    | stopped => stopped

end Statement

end ActorNet.Script
