import ActorNet.Config
import ActorNet.Json.Source
import ActorNet.Json.Reader
import ActorNet.Json.Writer
import ActorNet.Toml.Reader

set_option autoImplicit false

/-!
# Configurations in text

The heartbeat is written in whole milliseconds. A configuration is read from TOML or JSON text; fields that
are missing have their defaults and unknown ones do not count.
-/
namespace ActorNet.Config

def fields (config : Config) : List (String × Json.Value) :=
  [("heartbeat_ms", .int config.heartbeat.millis), ("restrict_to_triggered", .bool config.restrictToTriggered),
    ("trace_triggers", .bool config.traceTriggers), ("max_cycles_per_turn", .int config.maxCyclesPerTurn)]

def toJson (config : Config) : Json.Value := .object config.fields

def toToml (config : Config) : String :=
  String.join (config.fields.map fun (name, value) => name ++ " = " ++ value.render ++ "\n")

def word? (n : Int) : Option Nat := if 0 ≤ n ∧ n ≤ wordMax then some n.toNat else none

def natOfSource? : Json.Source → Option Nat
  | .int n => word? n
  | _ => none

def boolOfSource? : Json.Source → Option Bool
  | .bool b => some b
  | _ => none

def orDefault {α β : Type} (read : α → Option β) (default : β) : Option α → Option β
  | none => some default
  | some source => read source

def ofParts? {α : Type} (nat? : α → Option Nat) (bool? : α → Option Bool)
    (heartbeat restrict trace max : Option α) : Option Config := do
  let base : Config := {}
  return {
    heartbeat := ← orDefault (fun x => (nat? x).map .ofMillis) base.heartbeat heartbeat
    restrictToTriggered := ← orDefault bool? base.restrictToTriggered restrict
    traceTriggers := ← orDefault bool? base.traceTriggers trace
    maxCyclesPerTurn := ← orDefault nat? base.maxCyclesPerTurn max }

/-- An object in which no field is repeated, or a list of the first fields in their order. -/
def ofSource? : Json.Source → Option Config
  | .object fields => do
    guard (Json.Source.named fields)
    ofParts? natOfSource? boolOfSource? (← Json.Source.field? "heartbeat_ms" fields)
      (← Json.Source.field? "restrict_to_triggered" fields)
      (← Json.Source.field? "trace_triggers" fields) (← Json.Source.field? "max_cycles_per_turn" fields)
  | .array items => do
    guard (items.length ≤ 4)
    ofParts? natOfSource? boolOfSource? items[0]? items[1]? items[2]? items[3]?
  | _ => none

def ofJson? (text : String) : Option Config := (Json.Reader.read? text).bind ofSource?

def natOfItem? : Toml.Item → Option Nat
  | .scalar (.integer n) => word? n
  | _ => none

def boolOfItem? : Toml.Item → Option Bool
  | .scalar (.boolean b) => some b
  | _ => none

def ofToml? (text : String) : Option Config := do
  let table ← Toml.Reader.read? text
  ofParts? natOfItem? boolOfItem? (table.get? "heartbeat_ms") (table.get? "restrict_to_triggered")
    (table.get? "trace_triggers") (table.get? "max_cycles_per_turn")

def parse (text : String) : Except RunError Config :=
  match ofToml? text with
  | some config => .ok config
  | none => .error (.configParse "the text is not a configuration")

end ActorNet.Config
