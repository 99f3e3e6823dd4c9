set_option autoImplicit false

/-!
# Numbers of 64 bits

Counters and sums that would leave 64 bits stay at the bound that they reach.
-/
namespace ActorNet

def wordMax : Nat := 0xFFFFFFFFFFFFFFFF

def signedMin : Int := -0x8000000000000000

def signedMax : Int := 0x7FFFFFFFFFFFFFFF

def countUp (n : Nat) : Nat := min (n + 1) wordMax

/-- The nearest signed number. -/
def clamp (n : Int) : Int := max signedMin (min n signedMax)

def isSigned (n : Int) : Bool := signedMin ≤ n && n ≤ signedMax

theorem countUp_of_lt {n : Nat} (h : n < wordMax) : countUp n = n + 1 := by
  unfold countUp; omega

end ActorNet
