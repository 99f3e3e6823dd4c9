import ActorNet.Config.Text

set_option autoImplicit false

/-!
# Configuration files

A file is read as JSON when its extension says so, and as TOML otherwise. A file that is missing, is a
directory or holds no text has a fault of its own, apart from that of a text that is no configuration.
-/
namespace ActorNet.Config

inductive FileContent where
  | missing
  | directory
  | bytes (content : ByteArray)

def fileName? (path : String) : Option (List Char) :=
  let parts := (path.toList.splitOn '/').filter fun part => part != [] && part != ['.']
  match parts.getLast? with
  | some name => if name = ['.', '.'] then none else some name
  | none => none

/-- What follows the last point of a file name, unless the point comes first. -/
def extension? (path : String) : Option (List Char) := do
  let name ← fileName? path
  let parts := name.splitOn '.'
  guard (2 < parts.length || (parts.length = 2 && parts.head? != some []))
  parts.getLast?

def FileContent.text : FileContent → Except String String
  | .missing => .error "No such file or directory (os error 2)"
  | .directory => .error "Is a directory (os error 21)"
  | .bytes content =>
    match String.fromUTF8? content with
    | some text => .ok text
    | none => .error "stream did not contain valid UTF-8"

def load (path : String) (content : FileContent) : Except RunError Config := do
  let text ← content.text.mapError (.configRead path)
  let config := if extension? path = some "json".toList then ofJson? text else ofToml? text
  match config with
  | some config => return config
  | none => throw (.configParse "the text is not a configuration")

end ActorNet.Config
