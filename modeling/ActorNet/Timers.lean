import ActorNet.Time
import Std.Data.ExtTreeMap

set_option autoImplicit false

/-!
# A queue of timers

Timers are numbered in the order in which they are scheduled, and a number is never used again. The agenda
lists deadlines in the order in which they come due, earlier numbers first among equal deadlines. A
cancelled timer leaves `pending` at once, but its place on the agenda only when it comes to the front.
-/
namespace ActorNet

structure TimerId where
  number : Nat
deriving DecidableEq, Repr, Inhabited

namespace TimerId

instance : Ord TimerId := ⟨compareOn number⟩

instance : Std.TransOrd TimerId := inferInstanceAs (Std.TransCmp (compareOn number))

instance : Std.LawfulEqOrd TimerId where
  eq_of_compare {a b} h := by
    cases a; cases b
    exact congrArg mk (Std.LawfulEqOrd.eq_of_compare (α := Nat) h)

def text (id : TimerId) : String := "timer-" ++ toString id.number

end TimerId

abbrev Slot := Instant × TimerId

def Slot.before (a b : Slot) : Bool :=
  a.1.nanos < b.1.nanos || (a.1.nanos == b.1.nanos && a.2.number ≤ b.2.number)

structure TimerQueue (α : Type) where
  agenda : List Slot := []
  pending : Std.ExtTreeMap TimerId α compare := ∅
  nextNumber : Nat := 0

namespace TimerQueue

variable {α : Type}

instance : Inhabited (TimerQueue α) := ⟨{}⟩

def insertSlot (slot : Slot) : List Slot → List Slot
  | [] => [slot]
  | other :: rest => if slot.before other then slot :: other :: rest else other :: insertSlot slot rest

def scheduleAt (q : TimerQueue α) (deadline : Instant) (payload : α) : TimerId × TimerQueue α :=
  let id : TimerId := ⟨q.nextNumber⟩
  (id,
    { agenda := insertSlot (deadline, id) q.agenda
      pending := q.pending.insert id payload
      nextNumber := q.nextNumber + 1 })

def scheduleAfter (q : TimerQueue α) (now : Instant) (delay : Duration) (payload : α) :
    TimerId × TimerQueue α :=
  q.scheduleAt (now.after delay) payload

def cancel (q : TimerQueue α) (id : TimerId) : Option α × TimerQueue α :=
  (q.pending[id]?, { q with pending := q.pending.erase id })

def isPending (q : TimerQueue α) (id : TimerId) : Bool := q.pending.contains id

/-- Take the first live slot that is due, and every dead slot before it. -/
def popSlot (now : Instant) (pending : Std.ExtTreeMap TimerId α compare) :
    List Slot → Option (TimerId × α) × List Slot
  | [] => (none, [])
  | (deadline, id) :: rest =>
    if now < deadline then (none, (deadline, id) :: rest)
    else
      match pending[id]? with
      | some payload => (some (id, payload), rest)
      | none => popSlot now pending rest

def popDue (q : TimerQueue α) (now : Instant) : Option (TimerId × α) × TimerQueue α :=
  match popSlot now q.pending q.agenda with
  | (some (id, payload), agenda) => (some (id, payload), { q with agenda, pending := q.pending.erase id })
  | (none, agenda) => (none, { q with agenda })

def liveFrom (pending : Std.ExtTreeMap TimerId α compare) (agenda : List Slot) : List Slot :=
  agenda.dropWhile fun slot => !pending.contains slot.2

/-- The earliest deadline of a pending timer; dead slots before it are dropped. -/
def nextDeadline (q : TimerQueue α) : Option Instant × TimerQueue α :=
  let agenda := liveFrom q.pending q.agenda
  (agenda.head?.map (·.1), { q with agenda })

def payloads (q : TimerQueue α) : List α := q.pending.toList.map (·.2)

def size (q : TimerQueue α) : Nat := q.pending.size

def isEmpty (q : TimerQueue α) : Bool := q.pending.isEmpty

end TimerQueue

end ActorNet
