import ActorNet.Word

set_option autoImplicit false

/-!
# Durations and instants

Both are counts of nanoseconds. A duration is at most `Duration.max`. An instant is counted from the
origin of the clock that tells it, and only instants before `Instant.limit` can be represented: a
deadline beyond it is replaced by one in the far future.
-/
namespace ActorNet

structure Duration where
  nanos : Nat
deriving DecidableEq, Repr, Inhabited

namespace Duration

def nanosPerMilli : Nat := 1000000

def nanosPerSecond : Nat := 1000000000

def zero : Duration := ⟨0⟩

def isZero (d : Duration) : Bool := d.nanos == 0

def ofMillis (ms : Nat) : Duration := ⟨ms * nanosPerMilli⟩

def ofParts (seconds nanos : Nat) : Duration := ⟨seconds * nanosPerSecond + nanos⟩

def ofSeconds (seconds : Nat) : Duration := ofParts seconds 0

def max : Duration := ofParts wordMax (nanosPerSecond - 1)

def millis (d : Duration) : Nat := min (d.nanos / nanosPerMilli) wordMax

end Duration

structure Instant where
  nanos : Nat
deriving DecidableEq, Repr, Inhabited

namespace Instant

def origin : Instant := ⟨0⟩

instance : LE Instant := ⟨fun a b => a.nanos ≤ b.nanos⟩

instance : LT Instant := ⟨fun a b => a.nanos < b.nanos⟩

instance (a b : Instant) : Decidable (a ≤ b) := inferInstanceAs (Decidable (a.nanos ≤ b.nanos))

instance (a b : Instant) : Decidable (a < b) := inferInstanceAs (Decidable (a.nanos < b.nanos))

def limit : Nat := 0x8000000000000000 * Duration.nanosPerSecond

def farFuture : Duration := .ofSeconds 946080000

def add? (t : Instant) (d : Duration) : Option Instant :=
  if t.nanos + d.nanos < limit then some ⟨t.nanos + d.nanos⟩ else none

/-- The instant a duration later; failing that one in the far future, failing that the same instant. -/
def after (t : Instant) (d : Duration) : Instant :=
  ((t.add? d).orElse fun _ => t.add? farFuture).getD t

def since (t earlier : Instant) : Duration := ⟨t.nanos - earlier.nanos⟩

/-- A manual clock counts its nanoseconds in 64 bits: it stops at the last of them. -/
def advance (t : Instant) (span : Duration) : Instant := ⟨Nat.max t.nanos (min (t.nanos + span.nanos) wordMax)⟩

/-- A sleeper wakes on the first whole millisecond at or after its deadline. -/
def nextMilli (t : Instant) : Instant :=
  ⟨(t.nanos + (Duration.nanosPerMilli - 1)) / Duration.nanosPerMilli * Duration.nanosPerMilli⟩

end Instant

end ActorNet
