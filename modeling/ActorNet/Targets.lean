import ActorNet.Address

set_option autoImplicit false

/-!
# Targets of a trigger

All actors, or a set of actors in which the marker `none` may stand for "no actor at all".
-/
namespace ActorNet

inductive Targets where
  | all
  | actors (ids : Std.ExtTreeSet (Option ActorId) compare)
deriving DecidableEq

namespace Targets

def ofList (ids : List (Option ActorId)) : Targets := .actors (.ofList ids compare)

def ofIds (ids : List ActorId) : Targets := ofList (ids.map some)

def one (id : ActorId) : Targets := ofIds [id]

def unaddressed : Targets := ofList [none]

def isAll : Targets → Bool
  | all => true
  | actors _ => false

def ids : Targets → List ActorId
  | all => []
  | actors ids => ids.toList.filterMap id

def text : Targets → String
  | all => "ALL"
  | actors ids =>
    let names := ids.toList.map fun id => (id.map ActorId.text).getD "<none>"
    "\x7b" ++ ", ".intercalate names ++ "\x7d"

end Targets

end ActorNet
