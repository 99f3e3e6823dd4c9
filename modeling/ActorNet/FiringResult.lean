import ActorNet.Address
import ActorNet.Token
import Std.Data.ExtTreeMap

set_option autoImplicit false

/-!
# Results of firings

A result says whether anything fired, which tokens were produced at which address, and which actors were
affected. Merging joins the token lists of an address in order; the idle result changes nothing.
-/
namespace ActorNet

/-- Tokens by the address at which they were produced. An address may stand with no tokens. -/
abbrev ProductionMap := Std.ExtTreeMap PortAddr (List Token) compare

namespace ProductionMap

def add (map : ProductionMap) (addr : PortAddr) (tokens : List Token) : ProductionMap :=
  map.alter addr fun old => some (old.getD [] ++ tokens)

def ofList (entries : List (PortAddr × List Token)) : ProductionMap := Std.ExtTreeMap.ofList entries compare

end ProductionMap

structure FiringResult where
  didFire : Bool
  production : ProductionMap
  affected : ActorSet
deriving DecidableEq

namespace FiringResult

def idle : FiringResult := ⟨false, ∅, ∅⟩

instance : Inhabited FiringResult := ⟨idle⟩

def fired (actor : ActorId) (production : ProductionMap) : FiringResult := ⟨true, production, {actor}⟩

def producedOn (result : FiringResult) (addr : PortAddr) : List Token := result.production[addr]?.getD []

def addAffected (result : FiringResult) (ids : List ActorId) : FiringResult :=
  { result with affected := result.affected.insertMany ids }

def merge (a b : FiringResult) : FiringResult where
  didFire := a.didFire || b.didFire
  production := b.production.toList.foldl (fun map (addr, tokens) => map.add addr tokens) a.production
  affected := a.affected ∪ b.affected

def collect (results : List FiringResult) : FiringResult := results.foldl merge idle

end FiringResult

end ActorNet
