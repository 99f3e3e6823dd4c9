import ActorNet.Json.Source
import ActorNet.Word

set_option autoImplicit false

/-!
# Reading JSON text

A reader takes what it needs from the front of the text and returns the rest. Nesting is followed with
fuel, which `read?` takes from the length of the text: every array, object or value uses up a character.
-/
namespace ActorNet.Json.Reader

def isBlank (c : Char) : Bool := c == ' ' || c == '\t' || c == '\n' || c == '\r'

def skipBlank (cs : List Char) : List Char := cs.dropWhile isBlank

def hexDigit? (c : Char) : Option Nat :=
  if c.isDigit then some (c.toNat - '0'.toNat)
  else if 'a' ≤ c ∧ c ≤ 'f' then some (c.toNat - 'a'.toNat + 10)
  else if 'A' ≤ c ∧ c ≤ 'F' then some (c.toNat - 'A'.toNat + 10)
  else none

def hexNumber? (digits : List Char) : Option Nat :=
  digits.foldlM (fun n c => (hexDigit? c).map (16 * n + ·)) 0

/-- A piece of a string: a character as it stands, or the number that a `\u` escape gives. -/
inductive Piece where
  | char (c : Char)
  | code (n : Nat)

def escaped? : Char → Option Char
  | '"' => some '"'
  | '\\' => some '\\'
  | '/' => some '/'
  | 'b' => some '\x08'
  | 'f' => some '\x0c'
  | 'n' => some '\n'
  | 'r' => some '\r'
  | 't' => some '\t'
  | _ => none

def pieces? : List Char → Option (List Piece × List Char)
  | [] => none
  | '"' :: rest => some ([], rest)
  | '\\' :: 'u' :: a :: b :: c :: d :: rest => do
    let n ← hexNumber? [a, b, c, d]
    let (ps, rest) ← pieces? rest
    return (.code n :: ps, rest)
  | '\\' :: c :: rest => do
    let c ← escaped? c
    let (ps, rest) ← pieces? rest
    return (.char c :: ps, rest)
  | c :: rest => do
    guard (0x20 ≤ c.toNat)
    let (ps, rest) ← pieces? rest
    return (.char c :: ps, rest)

def isHigh (n : Nat) : Bool := 0xD800 ≤ n && n < 0xDC00

def isLow (n : Nat) : Bool := 0xDC00 ≤ n && n < 0xE000

/-- The characters that pieces denote: a high half and the low half after it make one character, and a half
without its partner denotes nothing. -/
def chars? : List Piece → Option (List Char)
  | [] => some []
  | .char c :: ps => (chars? ps).map (c :: ·)
  | .code n :: ps =>
    if isHigh n then
      match ps with
      | .code m :: ps =>
        if isLow m then
          (chars? ps).map (Char.ofNat (0x10000 + (n - 0xD800) * 0x400 + (m - 0xDC00)) :: ·)
        else none
      | _ => none
    else if isLow n then none
    else (chars? ps).map (Char.ofNat n :: ·)

def string? (cs : List Char) : Option (Option String × List Char) :=
  (pieces? cs).map fun (ps, rest) => ((chars? ps).map String.ofList, rest)

def natural (digits : List Char) : Nat := digits.foldl (fun n c => 10 * n + (c.toNat - '0'.toNat)) 0

def digits? (cs : List Char) : Option (List Char × List Char) :=
  match cs.span Char.isDigit with
  | ([], _) => none
  | found => some found

def whole? (cs : List Char) : Option (List Char × List Char) := do
  let (digits, rest) ← digits? cs
  guard (digits.length = 1 || digits.head? != some '0')
  return (digits, rest)

def fraction? : List Char → Option (List Char × List Char)
  | '.' :: rest => (digits? rest).map fun (digits, rest) => ('.' :: digits, rest)
  | rest => some ([], rest)

def exponent? : List Char → Option (List Char × List Char)
  | c :: rest =>
    if c == 'e' || c == 'E' then
      match rest with
      | s :: rest =>
        if s == '+' || s == '-' then (digits? rest).map fun (digits, rest) => (c :: s :: digits, rest)
        else (digits? (s :: rest)).map fun (digits, rest) => (c :: digits, rest)
      | [] => none
    else some ([], c :: rest)
  | [] => some ([], [])

/-- Integers of 64 bits, signed or not, are exact. -/
def isExact (n : Int) : Bool := signedMin ≤ n && n ≤ wordMax

def number? (cs : List Char) : Option (Source × List Char) := do
  let (sign, cs) := match cs with
    | '-' :: rest => (['-'], rest)
    | rest => ([], rest)
  let (digits, cs) ← whole? cs
  let (fraction, cs) ← fraction? cs
  let (exponent, cs) ← exponent? cs
  let n : Int := if sign.isEmpty then natural digits else -natural digits
  let negativeZero := n == 0 && !sign.isEmpty
  if fraction.isEmpty && exponent.isEmpty && isExact n then
    return (if negativeZero then .decimal "-0.0" else .int n, cs)
  else
    return (.decimal (String.ofList (sign ++ digits ++ fraction ++ exponent)), cs)

mutual

def value? : Nat → List Char → Option (Source × List Char)
  | 0, _ => none
  | fuel + 1, cs =>
    match cs with
    | 'n' :: 'u' :: 'l' :: 'l' :: rest => some (.null, rest)
    | 't' :: 'r' :: 'u' :: 'e' :: rest => some (.bool true, rest)
    | 'f' :: 'a' :: 'l' :: 's' :: 'e' :: rest => some (.bool false, rest)
    | '"' :: rest => (string? rest).map fun (text, rest) => (.string text, rest)
    | '[' :: rest =>
      match skipBlank rest with
      | ']' :: rest => some (.array [], rest)
      | rest => (items? fuel rest).map fun (xs, rest) => (.array xs, rest)
    | '\x7b' :: rest =>
      match skipBlank rest with
      | '\x7d' :: rest => some (.object [], rest)
      | rest => (fields? fuel rest).map fun (xs, rest) => (.object xs, rest)
    | rest => number? rest

def items? : Nat → List Char → Option (List Source × List Char)
  | 0, _ => none
  | fuel + 1, cs => do
    let (x, rest) ← value? fuel cs
    match skipBlank rest with
    | ']' :: rest => return ([x], rest)
    | ',' :: rest =>
      let (xs, rest) ← items? fuel (skipBlank rest)
      return (x :: xs, rest)
    | _ => none

def fields? : Nat → List Char → Option (List (Option String × Source) × List Char)
  | 0, _ => none
  | fuel + 1, cs =>
    match cs with
    | '"' :: rest => do
      let (name, rest) ← string? rest
      match skipBlank rest with
      | ':' :: rest =>
        let (x, rest) ← value? fuel (skipBlank rest)
        match skipBlank rest with
        | '\x7d' :: rest => return ([(name, x)], rest)
        | ',' :: rest =>
          let (xs, rest) ← fields? fuel (skipBlank rest)
          return ((name, x) :: xs, rest)
        | _ => none
      | _ => none
    | _ => none

end

def read? (text : String) : Option Source := do
  let cs := text.toList
  let (x, rest) ← value? (2 * cs.length + 2) (skipBlank cs)
  guard (skipBlank rest).isEmpty
  return x

end Reader

def Value.ofText? (text : String) : Option Value := do
  (← Reader.read? text).toValue? Source.nestingLimit

end ActorNet.Json
