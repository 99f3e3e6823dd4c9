import ActorNet.Toml.Scalar

set_option autoImplicit false

/-!
# Reading TOML text

A text is a list of lines, each of them blank, a header, or a key with its value; `Statement` is what a
line says. Strings may be basic or literal, on one line or on several. Arrays and inline tables may go over
lines, may hold comments, and may end in a comma. The loops run on fuel taken from the length of the text,
of which every turn uses up a character.
-/
namespace ActorNet.Toml.Reader

def isBlank (c : Char) : Bool := c == ' ' || c == '\t'

def skipBlank (cs : List Char) : List Char := cs.dropWhile isBlank

def isAllowed (c : Char) : Bool := c == '\t' || (0x20 ≤ c.toNat && c.toNat != 0x7F)

def newline? : List Char → Option (List Char)
  | '\n' :: rest => some rest
  | '\r' :: '\n' :: rest => some rest
  | _ => none

def skipComment : List Char → List Char
  | '#' :: rest => rest.dropWhile isAllowed
  | cs => cs

def endLine? (cs : List Char) : Option (List Char) :=
  match skipComment (skipBlank cs) with
  | [] => some []
  | cs => newline? cs

def skipLines : Nat → List Char → List Char
  | 0, cs => cs
  | fuel + 1, cs =>
    let cs := skipComment (skipBlank cs)
    match newline? cs with
    | some rest => skipLines fuel rest
    | none => cs

def skipGaps : Nat → List Char → List Char
  | 0, cs => cs
  | fuel + 1, cs =>
    match newline? (skipBlank cs) with
    | some rest => skipGaps fuel rest
    | none => skipBlank cs

def isHexDigit (c : Char) : Bool := isDigitOf 16 c

def codePoint? (width : Nat) (cs : List Char) : Option (Char × List Char) := do
  let digits := cs.take width
  guard (digits.length = width && digits.all isHexDigit)
  let n := natural 16 digits
  guard (n < 0xD800 || (0xE000 ≤ n && n < 0x110000))
  return (Char.ofNat n, cs.drop width)

def escaped? : List Char → Option (Char × List Char)
  | '"' :: rest => some ('"', rest)
  | '\\' :: rest => some ('\\', rest)
  | 'b' :: rest => some ('\x08', rest)
  | 'e' :: rest => some ('\x1b', rest)
  | 'f' :: rest => some ('\x0c', rest)
  | 'n' :: rest => some ('\n', rest)
  | 'r' :: rest => some ('\r', rest)
  | 't' :: rest => some ('\t', rest)
  | 'x' :: rest => codePoint? 2 rest
  | 'u' :: rest => codePoint? 4 rest
  | 'U' :: rest => codePoint? 8 rest
  | _ => none

def basic? : Nat → List Char → Option (List Char × List Char)
  | 0, _ => none
  | fuel + 1, cs =>
    match cs with
    | [] => none
    | '"' :: rest => some ([], rest)
    | '\\' :: rest => do
      let (c, rest) ← escaped? rest
      let (text, rest) ← basic? fuel rest
      return (c :: text, rest)
    | c :: rest => do
      guard (isAllowed c)
      let (text, rest) ← basic? fuel rest
      return (c :: text, rest)

def literal? : List Char → Option (List Char × List Char)
  | [] => none
  | '\x27' :: rest => some ([], rest)
  | c :: rest => do
    guard (isAllowed c)
    let (text, rest) ← literal? rest
    return (c :: text, rest)

/-- Three quotes end a string of several lines; up to two more before them belong to the string. -/
def closing? (quote : Char) : List Char → Option (List Char × List Char)
  | a :: b :: c :: rest =>
    if a = quote && b = quote && c = quote then
      match rest with
      | d :: e :: more =>
        if d = quote && e = quote then some ([quote, quote], more)
        else if d = quote then some ([quote], e :: more)
        else some ([], rest)
      | [d] => if d = quote then some ([quote], []) else some ([], rest)
      | [] => some ([], [])
    else none
  | _ => none

/-- A string of several lines after its opening quotes. In a basic one a backslash at the end of a line
takes away the blanks and ends of lines after it. -/
def lines? (quote : Char) (escapes : Bool) : Nat → List Char → Option (List Char × List Char)
  | 0, _ => none
  | fuel + 1, cs =>
    match closing? quote cs with
    | some found => some found
    | none =>
      match newline? cs with
      | some rest => do
        let (text, rest) ← lines? quote escapes fuel rest
        return ('\n' :: text, rest)
      | none =>
        match cs with
        | [] => none
        | c :: rest =>
          if c = '\\' && escapes then
            match newline? (skipBlank rest) with
            | some rest =>
              lines? quote escapes fuel (skipGaps fuel rest)
            | none => do
              let (c, rest) ← escaped? rest
              let (text, rest) ← lines? quote escapes fuel rest
              return (c :: text, rest)
          else do
            guard (isAllowed c)
            let (text, rest) ← lines? quote escapes fuel rest
            return (c :: text, rest)

def firstNewline (cs : List Char) : List Char := (newline? cs).getD cs

def string? (cs : List Char) : Option (String × List Char) :=
  let fuel := cs.length + 1
  let found := match cs with
    | '"' :: '"' :: '"' :: rest => lines? '"' true fuel (firstNewline rest)
    | '\x27' :: '\x27' :: '\x27' :: rest => lines? '\x27' false fuel (firstNewline rest)
    | '"' :: rest => basic? fuel rest
    | '\x27' :: rest => literal? rest
    | _ => none
  found.map fun (text, rest) => (String.ofList text, rest)

def isBare (c : Char) : Bool := c.isAlphanum || c == '_' || c == '-'

def simpleKey? (cs : List Char) : Option (String × List Char) :=
  match cs with
  | '"' :: rest => (basic? (rest.length + 1) rest).map fun (text, rest) => (String.ofList text, rest)
  | '\x27' :: rest => (literal? rest).map fun (text, rest) => (String.ofList text, rest)
  | _ =>
    match cs.span isBare with
    | ([], _) => none
    | (name, rest) => some (String.ofList name, rest)

/-- At most this many arrays and inline tables may stand inside one another. The path of a dotted key, its last
part apart, is shorter. -/
def nestingLimit : Nat := 80

def parts? : Nat → List Char → Option ((List String × String) × List Char)
  | 0, _ => none
  | fuel + 1, cs => do
    let (name, rest) ← simpleKey? (skipBlank cs)
    match skipBlank rest with
    | '.' :: rest =>
      let ((path, last), rest) ← parts? fuel rest
      return ((name :: path, last), rest)
    | rest => return (([], name), rest)

def key? (fuel : Nat) (cs : List Char) : Option ((List String × String) × List Char) := do
  let ((path, last), rest) ← parts? fuel cs
  guard (path.length < nestingLimit)
  return ((path, last), rest)

def isWordChar (c : Char) : Bool := c.isAlphanum || ['_', '+', '-', '.', ':'].contains c

def scalar? (cs : List Char) : Option (Scalar × List Char) := do
  let (word, rest) := cs.span isWordChar
  let (word, rest) := match rest with
    | ' ' :: c :: more =>
      if date? word = some [] && c.isDigit then
        let (clock, more) := (c :: more).span isWordChar
        (word ++ ' ' :: clock, more)
      else (word, rest)
    | _ => (word, rest)
  return (← Scalar.ofChars? word, rest)

mutual

def value? : Nat → Nat → List Char → Option (Item × List Char)
  | 0, _, _ => none
  | fuel + 1, room, cs =>
    match cs with
    | '[' :: rest => do
      guard (0 < room)
      let (xs, rest) ← items? fuel (room - 1) (skipLines fuel rest)
      return (.array xs, rest)
    | '\x7b' :: rest => do
      guard (0 < room)
      let (fields, rest) ← fields? fuel (room - 1) [] (skipLines fuel rest)
      return (.table .inline fields, rest)
    | c :: _ =>
      if c = '"' || c = '\x27' then (string? cs).map fun (text, rest) => (.scalar (.string text), rest)
      else (scalar? cs).map fun (s, rest) => (.scalar s, rest)
    | [] => none

def items? : Nat → Nat → List Char → Option (List Item × List Char)
  | 0, _, _ => none
  | fuel + 1, room, cs =>
    match cs with
    | ']' :: rest => some ([], rest)
    | cs => do
      let (x, rest) ← value? fuel room cs
      match skipLines fuel rest with
      | ',' :: rest =>
        let (xs, rest) ← items? fuel room (skipLines fuel rest)
        return (x :: xs, rest)
      | ']' :: rest => return ([x], rest)
      | _ => none

/-- The fields of an inline table up to its closing brace, added to those before. A key may not be broken
over lines; the line may end anywhere else. -/
def fields? : Nat → Nat → Fields → List Char → Option (Fields × List Char)
  | 0, _, _, _ => none
  | fuel + 1, room, fields, cs =>
    match cs with
    | '\x7d' :: rest => some (fields, rest)
    | cs => do
      let ((path, key), rest) ← key? fuel cs
      let (x, rest) ← value? fuel room (skipLines fuel (← char? '=' (skipLines fuel rest)))
      let fields ← assign path key x .header fields
      match skipLines fuel rest with
      | ',' :: rest => fields? fuel room fields (skipLines fuel rest)
      | '\x7d' :: rest => return (fields, rest)
      | _ => none

end

inductive Statement where
  | header (path : List String) (key : String)
  | element (path : List String) (key : String)
  | assignment (path : List String) (key : String) (item : Item)

def statement? (fuel : Nat) (cs : List Char) : Option (Statement × List Char) :=
  match cs with
  | '[' :: '[' :: rest => do
    let ((path, key), rest) ← key? fuel rest
    return (.element path key, ← char? ']' (← char? ']' rest))
  | '[' :: rest => do
    let ((path, key), rest) ← key? fuel rest
    return (.header path key, ← char? ']' rest)
  | cs => do
    let ((path, key), rest) ← key? fuel cs
    let (item, rest) ← value? fuel nestingLimit (skipBlank (← char? '=' rest))
    return (.assignment path key item, rest)

def statements? : Nat → List Char → Option (List Statement)
  | 0, _ => none
  | fuel + 1, cs =>
    match skipLines (fuel + 1) cs with
    | [] => some []
    | cs => do
      let (statement, rest) ← statement? (fuel + 1) cs
      let more ← statements? fuel (← endLine? rest)
      return statement :: more

/-- The whole table after one more statement, and the path at which keys are assigned from then on. -/
def execute? (document : List String × Fields) : Statement → Option (List String × Fields)
  | .header path key => do return (path ++ [key], ← openTable path key .header document.2)
  | .element path key => do return (path ++ [key], ← openElement path key .header document.2)
  | .assignment path key item => do
    return (document.1, ← changeAt false (assign path key item) document.1 .header document.2)

def read? (text : String) : Option Fields := do
  let cs := match text.toList with
    | '\ufeff' :: cs => cs
    | cs => cs
  let document ← (← statements? (2 * cs.length + 2) cs).foldlM execute? ([], [])
  return document.2

end ActorNet.Toml.Reader
