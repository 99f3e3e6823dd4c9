import ActorNet.ActorType
import ActorNet.Word

set_option autoImplicit false

/-!
# Field state of scripted actors

Named signed numbers of 64 bits, of which a missing one reads zero; the tokens an actor has kept; and the
notes it has made, both the newest first. Sums go from left to right and stay at the bound that they reach.
-/
namespace ActorNet.Script

structure Fields where
  vars : Std.ExtTreeMap String Int compare := ∅
  kept : List Token := []
  notes : List String := []
deriving DecidableEq

namespace Fields

instance : Inhabited Fields := ⟨{}⟩

def var (fields : Fields) (name : String) : Int := fields.vars[name]?.getD 0

def set (fields : Fields) (name : String) (n : Int) : Fields :=
  { fields with vars := fields.vars.insert name n }

def add (fields : Fields) (name : String) (n : Int) : Fields :=
  fields.set name (clamp (fields.var name + n))

def keep (fields : Fields) (tokens : List Token) : Fields :=
  { fields with kept := tokens.reverse ++ fields.kept }

def keptTokens (fields : Fields) : List Token := fields.kept.reverse

def note (fields : Fields) (text : String) : Fields := { fields with notes := text :: fields.notes }

def noteTexts (fields : Fields) : List String := fields.notes.reverse

/-- Each departure is counted in `migrations` and each arrival in `arrivals`; an arrival is refused as often
as `refuse` says. -/
def migration : MigrationHooks Fields where
  before fields := fields.add "migrations" 1
  after fields :=
    if 0 < fields.var "refuse" then
      let fields := fields.add "refuse" (-1)
      (fields, .error ⟨"refused, " ++ toString (fields.var "refuse") ++ " left"⟩)
    else (fields.add "arrivals" 1, .ok ())

end Fields

def int? : Token → Option Int
  | .data (.int n) => if isSigned n then some n else none
  | _ => none

def sum (tokens : List Token) : Int := (tokens.filterMap int?).foldl (fun total n => clamp (total + n)) 0

end ActorNet.Script
