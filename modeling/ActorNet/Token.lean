import ActorNet.Json.Source

set_option autoImplicit false

/-!
# Tokens

What travels between actors: data, the end of a stream, or an exception. The last two are control tokens.
In text a token is tagged: an object with its kind and its content, or a list of the two.
-/
namespace ActorNet

inductive TokenKind where
  | data
  | endOfStream
  | exception
deriving DecidableEq, Repr, Inhabited

namespace TokenKind

def text : TokenKind → String
  | data => "data"
  | endOfStream => "end_of_stream"
  | exception => "exception"

def all : List TokenKind := [data, endOfStream, exception]

def ofText? (name : String) : Option TokenKind := all.find? (·.text == name)

theorem ofText?_text (kind : TokenKind) : ofText? kind.text = some kind := by
  cases kind <;> rfl

def ofSource? (source : Json.Source) : Option TokenKind := source.choice?.bind ofText?

end TokenKind

inductive Token where
  | data (value : Json.Value)
  | endOfStream
  | exception (reason : String)
deriving DecidableEq, Repr, Inhabited

namespace Token

def kind : Token → TokenKind
  | data _ => .data
  | endOfStream => .endOfStream
  | exception _ => .exception

def isControl : Token → Bool
  | data _ => false
  | endOfStream | exception _ => true

def data? : Token → Option Json.Value
  | data value => some value
  | endOfStream | exception _ => none

def text? (token : Token) : Option String := token.data?.bind Json.Value.text?

/-- The kind always stands; the content stands unless the kind says everything. -/
def toJson : Token → Json.Value
  | data value => .object [("kind", .string TokenKind.data.text), ("value", value)]
  | endOfStream => .object [("kind", .string TokenKind.endOfStream.text)]
  | exception reason => .object [("kind", .string TokenKind.exception.text), ("value", .string reason)]

def ofContent? (depth : Nat) : TokenKind → Option Json.Source → Option Token
  | .data, some content => (content.toValue? (Json.Source.nestingLimit - depth)).map data
  | .exception, some content => content.text?.map exception
  | .endOfStream, none | .endOfStream, some .null => some endOfStream
  | _, _ => none

/-- Fields other than the kind and the value do not count; either of the two may stand once only. In a list
the kind is its bare name. -/
def ofSource? : Json.Source → Option Token
  | .object fields => do
    guard (Json.Source.named fields)
    let kind ← (← Json.Source.field? "kind" fields).bind TokenKind.ofSource?
    ofContent? 1 kind (← Json.Source.field? "value" fields)
  | .array [kind, content] => do ofContent? 1 (← kind.text?.bind TokenKind.ofText?) (some content)
  | _ => none

end Token

end ActorNet
