import ActorNet.Json.Value

set_option autoImplicit false

/-!
# Writing JSON text

Text is compact. In strings the two characters that JSON reserves and the control characters below the
blank are escaped, each with its short escape if it has one; everything else stands as it is.
-/
namespace ActorNet.Json

def escape (c : Char) : String :=
  if c = '"' then "\\\""
  else if c = '\\' then "\\\\"
  else if c = '\x08' then "\\b"
  else if c = '\x0c' then "\\f"
  else if c = '\n' then "\\n"
  else if c = '\r' then "\\r"
  else if c = '\t' then "\\t"
  else if c.toNat < 0x20 then
    "\\u00" ++ String.ofList [Nat.digitChar (c.toNat / 16), Nat.digitChar (c.toNat % 16)]
  else String.singleton c

def quote (text : String) : String :=
  "\"" ++ text.foldl (fun written c => written ++ escape c) "" ++ "\""

namespace Value

mutual

def render : Value → String
  | .null => "null"
  | .bool b => if b then "true" else "false"
  | .int n => toString n
  | .decimal text => text
  | .string text => quote text
  | .array items => "[" ++ ",".intercalate (renderItems items) ++ "]"
  | .object fields => "\x7b" ++ ",".intercalate (renderFields fields) ++ "\x7d"

def renderItems : List Value → List String
  | [] => []
  | x :: xs => x.render :: renderItems xs

def renderFields : List (String × Value) → List String
  | [] => []
  | (name, x) :: xs => (quote name ++ ":" ++ x.render) :: renderFields xs

end

end Value

end ActorNet.Json
