import ActorNet.Script.Fields

set_option autoImplicit false

/-!
# Scripted guards

A guard looks at the fields and at the tokens. A failure or a panic inside it ends the whole guard; `all`
and `any` stop at the first answer that decides.
-/
namespace ActorNet.Script

inductive Guard where
  | always (answer : Bool)
  | eq (index : Nat) (value : Json.Value)
  | gt (index : Nat) (bound : Int)
  | evenSum
  | isString (index : Nat)
  | count (n : Nat)
  | var (name : String) (n : Int)
  | kept (n : Nat)
  | not (guard : Guard)
  | all (guards : List Guard)
  | any (guards : List Guard)
  | fail (reason : String)
  | panic (payload : Panic)
deriving Inhabited

namespace Guard

abbrev Answer := Outcome GuardError Bool

mutual

def eval (fields : Fields) (tokens : List Token) : Guard → Answer
  | always answer => .ok answer
  | eq index value => .ok (tokens[index]? == some (.data value))
  | gt index bound => .ok ((tokens[index]?.bind int?).any (bound < ·))
  | evenSum => .ok (sum tokens % 2 == 0)
  | isString index => .ok (tokens[index]?.bind Token.text?).isSome
  | count n => .ok (tokens.length == n)
  | var name n => .ok (fields.var name == n)
  | kept n => .ok (n ≤ fields.kept.length)
  | not guard =>
    match eval fields tokens guard with
    | .ok answer => .ok !answer
    | other => other
  | all guards => evalAll fields tokens guards
  | any guards => evalAny fields tokens guards
  | fail reason => .error ⟨reason⟩
  | panic payload => .panic payload

def evalAll (fields : Fields) (tokens : List Token) : List Guard → Answer
  | [] => .ok true
  | guard :: guards =>
    match eval fields tokens guard with
    | .ok true => evalAll fields tokens guards
    | other => other

def evalAny (fields : Fields) (tokens : List Token) : List Guard → Answer
  | [] => .ok false
  | guard :: guards =>
    match eval fields tokens guard with
    | .ok false => evalAny fields tokens guards
    | other => other

end

end Guard

end ActorNet.Script
