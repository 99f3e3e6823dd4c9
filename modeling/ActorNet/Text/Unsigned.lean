import ActorNet.Word

set_option autoImplicit false

/-!
# Unsigned numbers of 64 bits in text

Decimal ASCII digits after at most one plus sign; leading zeros are allowed. A sign alone is an invalid
digit. Of two faults the first one met from the left wins, so a number that is too large before its first
bad character is too large.
-/
namespace ActorNet.Text

inductive NumberFault where
  | empty
  | invalidDigit
  | tooLarge
deriving DecidableEq, Repr

def NumberFault.message : NumberFault → String
  | .empty => "cannot parse integer from empty string"
  | .invalidDigit => "invalid digit found in string"
  | .tooLarge => "number too large to fit in target type"

/-- The number that `value` becomes as the digits follow it. -/
def unsignedFrom (value : Nat) : List Char → Except NumberFault Nat
  | [] => .ok value
  | c :: cs =>
    if c.isDigit then
      let next := 10 * value + (c.toNat - '0'.toNat)
      if next ≤ wordMax then unsignedFrom next cs else .error .tooLarge
    else .error .invalidDigit

def unsigned : List Char → Except NumberFault Nat
  | [] => .error .empty
  | ['+'] => .error .invalidDigit
  | '+' :: digits => unsignedFrom 0 digits
  | digits => unsignedFrom 0 digits

end ActorNet.Text
