import ActorNet.Token
import Std.Data.ExtTreeMap

set_option autoImplicit false

/-!
# Ports

A port is a directed queue of tokens. A port set holds its ports by name, in name order; of a name that is
declared twice the later declaration counts. A condition names the ports that an action takes a token from
and the ports that it fills. Taking from a port that is empty or missing takes nothing.
-/
namespace ActorNet

inductive PortDirection where
  | input
  | output
deriving DecidableEq, Repr, Inhabited

namespace PortDirection

def text : PortDirection → String
  | input => "input"
  | output => "output"

def all : List PortDirection := [input, output]

def ofText? (name : String) : Option PortDirection := all.find? (·.text == name)

theorem ofText?_text (direction : PortDirection) : ofText? direction.text = some direction := by
  cases direction <;> rfl

def ofSource? (source : Json.Source) : Option PortDirection := source.choice?.bind ofText?

end PortDirection

structure Port where
  direction : PortDirection
  queue : List Token
deriving DecidableEq, Repr, Inhabited

abbrev Ports := Std.ExtTreeMap String Port compare

namespace Ports

def ofNames (inputs outputs : List String) : Ports :=
  .ofList (inputs.map (·, ⟨.input, []⟩) ++ outputs.map (·, ⟨.output, []⟩)) compare

def directed? (ports : Ports) (name : String) (direction : PortDirection) : Option Port :=
  ports[name]?.filter (·.direction = direction)

def pending (ports : Ports) (name : String) : Nat := (ports[name]?.map (·.queue.length)).getD 0

def peek? (ports : Ports) (name : String) : Option Token := ports[name]?.bind (·.queue.head?)

def setQueue (ports : Ports) (name : String) (queue : List Token) : Ports :=
  ports.modify name ({ · with queue })

def push (ports : Ports) (name : String) (tokens : List Token) : Ports :=
  ports.modify name fun port => { port with queue := port.queue ++ tokens }

def pop (ports : Ports) (name : String) : Ports :=
  ports.modify name fun port => { port with queue := port.queue.tail }

def drain (ports : Ports) (name : String) : List Token × Ports :=
  ((ports[name]?.map (·.queue)).getD [], ports.setQueue name [])

def pendingOutputs (ports : Ports) : List String :=
  (ports.toList.filter fun (_, port) => port.direction = .output ∧ port.queue ≠ []).map (·.1)

end Ports

structure Condition where
  inputs : List String
  outputs : List String
deriving DecidableEq, Repr, Inhabited

namespace Condition

def isSatisfied (condition : Condition) (ports : Ports) : Bool :=
  condition.inputs.all fun name => 0 < ports.pending name

/-- The head tokens in declared order, if every input has one. -/
def peek? (condition : Condition) (ports : Ports) : Option (List Token) :=
  condition.inputs.mapM ports.peek?

def takeEach : List String → Ports → List Token × Ports
  | [], ports => ([], ports)
  | name :: names, ports =>
    let (tokens, rest) := takeEach names (ports.pop name)
    ((ports.peek? name).toList ++ tokens, rest)

def consume (condition : Condition) (ports : Ports) : List Token × Ports :=
  takeEach condition.inputs ports

end Condition

end ActorNet
