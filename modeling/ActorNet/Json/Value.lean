import Std.Data.ExtTreeMap

set_option autoImplicit false

/-!
# JSON values

Integers are exact and any other number keeps its text. An object lists its fields in the order in
which they are written; `Value.ofFields` puts them in key order, one field a key.
-/
namespace ActorNet.Json

inductive Value where
  | null
  | bool (value : Bool)
  | int (value : Int)
  | decimal (text : String)
  | string (text : String)
  | array (items : List Value)
  | object (fields : List (String × Value))
deriving Inhabited, Repr

namespace Value

mutual

def decideEq (a b : Value) : Decidable (a = b) := by
  cases a <;> cases b
  case null.null => exact isTrue rfl
  case bool.bool a b => exact decidable_of_iff (a = b) (by simp)
  case int.int a b => exact decidable_of_iff (a = b) (by simp)
  case decimal.decimal a b => exact decidable_of_iff (a = b) (by simp)
  case string.string a b => exact decidable_of_iff (a = b) (by simp)
  case array.array a b =>
    have := decideItems a b
    exact decidable_of_iff (a = b) (by simp)
  case object.object a b =>
    have := decideFields a b
    exact decidable_of_iff (a = b) (by simp)
  all_goals exact isFalse (by simp)

def decideItems : (a b : List Value) → Decidable (a = b)
  | [], [] => isTrue rfl
  | x :: xs, y :: ys =>
    have := decideEq x y
    have := decideItems xs ys
    decidable_of_iff (x = y ∧ xs = ys) (by simp)
  | [], _ :: _ | _ :: _, [] => isFalse (by simp)

def decideFields : (a b : List (String × Value)) → Decidable (a = b)
  | [], [] => isTrue rfl
  | (k, x) :: xs, (l, y) :: ys =>
    have := decideEq x y
    have := decideFields xs ys
    decidable_of_iff ((k = l ∧ x = y) ∧ xs = ys) (by simp)
  | [], _ :: _ | _ :: _, [] => isFalse (by simp)

end

instance : DecidableEq Value := decideEq

/-- Fields in key order; of a repeated key the last field counts. -/
def ofFields (fields : List (String × Value)) : Value :=
  .object (Std.ExtTreeMap.ofList fields compare).toList

def text? : Value → Option String
  | .string text => some text
  | _ => none

end Value

end ActorNet.Json
