import ActorNet.Json.Source
import Std.Data.ExtTreeSet

set_option autoImplicit false

/-!
# Actor IDs and port addresses

IDs are any texts. They are ordered by their code points; addresses are ordered by actor, then by port.
-/
namespace ActorNet

structure ActorId where
  text : String
deriving DecidableEq, Repr, Inhabited

namespace ActorId

instance : Ord ActorId := ⟨compareOn text⟩

instance : Std.TransOrd ActorId := inferInstanceAs (Std.TransCmp (compareOn text))

instance : Std.LawfulEqOrd ActorId where
  eq_of_compare {a b} h := by
    cases a; cases b
    exact congrArg mk (Std.LawfulEqOrd.eq_of_compare (α := String) h)

def hexDigits (n : Nat) : Nat → List Char
  | 0 => []
  | width + 1 => hexDigits (n / 16) width ++ [Nat.digitChar (n % 16)]

/-- The ID of a seed of 122 bits, in the shape of a random identifier of version 4: the version digit is
4 and the top bits of the digit that starts the fourth group are 1 and 0. -/
def ofSeed (seed : Nat) : ActorId :=
  let group (shift width : Nat) := String.ofList (hexDigits (seed >>> (4 * shift)) width)
  ⟨"actor-" ++ group 22 8 ++ "-" ++ group 18 4 ++ "-4" ++ group 15 3 ++ "-"
    ++ String.singleton (Nat.digitChar (8 + (seed >>> 120) % 4)) ++ group 12 3 ++ "-" ++ group 0 12⟩

def ofSource? (source : Json.Source) : Option ActorId := source.text?.map mk

end ActorId

structure PortAddr where
  actor : ActorId
  port : String
deriving DecidableEq, Repr, Inhabited

namespace PortAddr

instance : Ord PortAddr := ⟨compareLex (compareOn actor) (compareOn port)⟩

instance : Std.TransOrd PortAddr :=
  inferInstanceAs (Std.TransCmp (compareLex (compareOn actor) (compareOn port)))

instance : Std.LawfulEqOrd PortAddr where
  eq_of_compare {a b} h := by
    have h : (compare a.actor b.actor).then (compare a.port b.port) = .eq := h
    rw [Ordering.then_eq_eq] at h
    cases a; cases b
    exact congr (congrArg mk (Std.LawfulEqOrd.eq_of_compare h.1)) (Std.LawfulEqOrd.eq_of_compare h.2)

def text (addr : PortAddr) : String := addr.actor.text ++ "." ++ addr.port

def toJson (addr : PortAddr) : Json.Value :=
  .object [("actor", .string addr.actor.text), ("port", .string addr.port)]

def ofSource? : Json.Source → Option PortAddr
  | .object fields => do
    guard (Json.Source.named fields)
    let actor ← (← Json.Source.field? "actor" fields).bind ActorId.ofSource?
    let port ← (← Json.Source.field? "port" fields).bind Json.Source.text?
    return ⟨actor, port⟩
  | .array [actor, port] => do return ⟨← ActorId.ofSource? actor, ← port.text?⟩
  | _ => none

end PortAddr

/-- Sets of actors, equal as soon as they have the same members. -/
abbrev ActorSet := Std.ExtTreeSet ActorId compare

end ActorNet
