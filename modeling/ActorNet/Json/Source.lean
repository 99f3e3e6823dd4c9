import ActorNet.Json.Value

set_option autoImplicit false

/-!
# JSON text before it has a meaning

`Source` is what a JSON text says literally: fields in their order and with repeats, and strings that
may name half of a surrogate pair, which denote no text (`none`). A part of a text that nobody looks at
may hold such strings and may be nested to any depth; a part that is turned into a `Value` may not.
-/
namespace ActorNet.Json

inductive Source where
  | null
  | bool (value : Bool)
  | int (value : Int)
  | decimal (text : String)
  | string (text : Option String)
  | array (items : List Source)
  | object (fields : List (Option String × Source))
deriving Inhabited, Repr

namespace Source

/-- At most this many arrays and objects may stand inside one another. -/
def nestingLimit : Nat := 127

mutual

def toValue? : Source → Nat → Option Value
  | .null, _ => some .null
  | .bool b, _ => some (.bool b)
  | .int n, _ => some (.int n)
  | .decimal t, _ => some (.decimal t)
  | .string t, _ => t.map .string
  | .array _, 0 | .object _, 0 => none
  | .array xs, room + 1 => (toItems? xs room).map .array
  | .object xs, room + 1 => (toFields? xs room).map .ofFields

def toItems? : List Source → Nat → Option (List Value)
  | [], _ => some []
  | x :: xs, room => do return (← toValue? x room) :: (← toItems? xs room)

def toFields? : List (Option String × Source) → Nat → Option (List (String × Value))
  | [], _ => some []
  | (k, x) :: xs, room => do return (← k, ← toValue? x room) :: (← toFields? xs room)

end

def text? : Source → Option String
  | .string text => text
  | _ => none

/-- The name of a choice without content: the name itself, or an object whose one field is the name with `null`. -/
def choice? : Source → Option String
  | .string text => text
  | .object [(name, .null)] => name
  | _ => none

def field? (name : String) (fields : List (Option String × Source)) : Option (Option Source) :=
  match fields.filter (·.1 == some name) with
  | [] => some none
  | [(_, x)] => some (some x)
  | _ => none

/-- Every field name that an object gives at its own level is a text. -/
def named (fields : List (Option String × Source)) : Bool := fields.all (·.1.isSome)

end Source

end ActorNet.Json
