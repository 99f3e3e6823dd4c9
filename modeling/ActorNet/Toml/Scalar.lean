import ActorNet.Toml.Table

set_option autoImplicit false

/-!
# TOML numbers, booleans and times

These are told apart by their text alone. Digits may be grouped by single underscores. A number in
hexadecimal, octal or binary has no sign; a decimal one has no needless leading zero, save in an exponent.
-/
namespace ActorNet.Toml

def digitValue? (c : Char) : Option Nat :=
  if c.isDigit then some (c.toNat - '0'.toNat)
  else if 'a' ≤ c ∧ c ≤ 'f' then some (c.toNat - 'a'.toNat + 10)
  else if 'A' ≤ c ∧ c ≤ 'F' then some (c.toNat - 'A'.toNat + 10)
  else none

def isDigitOf (base : Nat) (c : Char) : Bool := (digitValue? c).any (· < base)

def grouped? (base : Nat) : List Char → Option (List Char)
  | [] => none
  | [c] => if isDigitOf base c then some [c] else none
  | c :: '_' :: rest => do
    guard (isDigitOf base c)
    return c :: (← grouped? base rest)
  | c :: rest => do
    guard (isDigitOf base c)
    return c :: (← grouped? base rest)

def natural (base : Nat) (digits : List Char) : Nat :=
  digits.foldl (fun n c => base * n + (digitValue? c).getD 0) 0

def splitSign : List Char → Bool × List Char
  | '-' :: rest => (true, rest)
  | '+' :: rest => (false, rest)
  | rest => (false, rest)

def whole? (cs : List Char) : Option (List Char) := do
  let digits ← grouped? 10 cs
  guard (digits.length = 1 || digits.head? != some '0')
  return digits

def isWide (n : Int) : Bool := -Nat.pow 2 127 ≤ n && n < Nat.pow 2 128

def integer? (cs : List Char) : Option Int := do
  let n : Int ← match cs with
    | '0' :: 'x' :: digits => (grouped? 16 digits).map fun ds => (natural 16 ds : Int)
    | '0' :: 'o' :: digits => (grouped? 8 digits).map fun ds => (natural 8 ds : Int)
    | '0' :: 'b' :: digits => (grouped? 2 digits).map fun ds => (natural 2 ds : Int)
    | _ =>
      let (negative, digits) := splitSign cs
      (whole? digits).map fun ds => if negative then -natural 10 ds else natural 10 ds
  guard (isWide n)
  return n

/-- The least number that rounds beyond the largest double. -/
def floatLimit : Nat := Nat.pow 2 1024 - Nat.pow 2 970

/-- Whether `digits` times ten to the `exponent` rounds beyond the largest double. -/
def overflows (digits : List Char) (exponent : Int) : Bool :=
  let n := natural 10 digits
  let width : Int := (Nat.toDigits 10 n).length + exponent
  if n = 0 || width ≤ 308 then false
  else if width > 310 then true
  else if exponent ≥ 0 then floatLimit ≤ n * Nat.pow 10 exponent.toNat
  else floatLimit * Nat.pow 10 (-exponent).toNat ≤ n

def isExponentMark (c : Char) : Bool := c == 'e' || c == 'E'

def isFloat (cs : List Char) : Bool :=
  let (_, cs) := splitSign cs
  if cs = ['i', 'n', 'f'] || cs = ['n', 'a', 'n'] then true
  else
    let (mantissa, exponent) := cs.span (!isExponentMark ·)
    let (before, after) := mantissa.span (· != '.')
    let parts := do
      let before ← whole? before
      let after ← match after with
        | [] => some []
        | _ :: after => grouped? 10 after
      let power : Int ← match exponent with
        | [] => some 0
        | _ :: exponent =>
          let (negative, digits) := splitSign exponent
          (grouped? 10 digits).map fun ds => if negative then -natural 10 ds else natural 10 ds
      guard (!(overflows (before ++ after) (power - after.length)))
    (exponent != [] || after != []) && parts.isSome

def field? (width low high : Nat) (cs : List Char) : Option (Nat × List Char) := do
  let digits := cs.take width
  guard (digits.length = width && digits.all Char.isDigit)
  let n := natural 10 digits
  guard (low ≤ n && n ≤ high)
  return (n, cs.drop width)

def char? (c : Char) : List Char → Option (List Char)
  | d :: rest => if c = d then some rest else none
  | [] => none

def isLeap (year : Nat) : Bool := year % 4 = 0 && (year % 100 != 0 || year % 400 = 0)

def daysIn (year month : Nat) : Nat :=
  if month = 2 then if isLeap year then 29 else 28
  else if [4, 6, 9, 11].contains month then 30
  else 31

def date? (cs : List Char) : Option (List Char) := do
  let (year, cs) ← field? 4 0 9999 cs
  let (month, cs) ← field? 2 1 12 (← char? '-' cs)
  let (_, cs) ← field? 2 1 (daysIn year month) (← char? '-' cs)
  return cs

/-- The seconds may be left out; their fraction has at least one digit. -/
def clock? (cs : List Char) : Option (List Char) := do
  let (_, cs) ← field? 2 0 23 cs
  let (_, cs) ← field? 2 0 59 (← char? ':' cs)
  match cs with
  | ':' :: cs =>
    let (_, cs) ← field? 2 0 60 cs
    match cs with
    | '.' :: cs =>
      guard ((cs.head?.map Char.isDigit).getD false)
      return cs.dropWhile Char.isDigit
    | cs => return cs
  | cs => return cs

def isZone : List Char → Bool
  | ['Z'] | ['z'] => true
  | sign :: cs =>
    (sign == '+' || sign == '-') && (do
      let (_, cs) ← field? 2 0 23 cs
      let (_, cs) ← field? 2 0 59 (← char? ':' cs)
      return cs.isEmpty).getD false
  | [] => false

def isTime (cs : List Char) : Bool :=
  match date? cs with
  | some [] => true
  | some (mark :: rest) =>
    (mark == 'T' || mark == 't' || mark == ' ') &&
      ((clock? rest).map fun rest => rest.isEmpty || isZone rest).getD false
  | none => clock? cs = some []

def Scalar.ofChars? (cs : List Char) : Option Scalar :=
  if cs = "true".toList then some (.boolean true)
  else if cs = "false".toList then some (.boolean false)
  else
    match integer? cs with
    | some n => some (.integer n)
    | none =>
      if isFloat cs then some (.float (String.ofList cs))
      else if isTime cs then some (.time (String.ofList cs))
      else none

end ActorNet.Toml
