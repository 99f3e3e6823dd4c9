import ActorNet.Proofs.Timers
import Mathlib.Data.List.MinMax
import Mathlib.Data.List.TakeWhile
import Mathlib.Data.Prod.Lex

set_option autoImplicit false

/-!
# A queue of timers answers as a plain list does

A timetable has no agenda: it lists the timers that are pending, in the order of their numbers, and looks
through the whole list for the one that comes due first. A queue of timers gives the same answers, whatever it
is asked and in whatever order. The dead places on its agenda never show, so that asking for the next
deadline, which clears some of them away, changes no later answer.
-/
namespace ActorNet

variable {α : Type}

inductive TimerCall (α : Type) where
  | scheduleAt (deadline : Instant) (payload : α)
  | scheduleAfter (now : Instant) (delay : Duration) (payload : α)
  | cancel (id : TimerId)
  | isPending (id : TimerId)
  | popDue (now : Instant)
  | nextDeadline
  | payloads
  | size
  | isEmpty

inductive TimerAnswer (α : Type) where
  | scheduled (id : TimerId)
  | cancelled (payload : Option α)
  | isPending (pending : Bool)
  | popped (timer : Option (TimerId × α))
  | deadline (earliest : Option Instant)
  | payloads (payloads : List α)
  | size (count : Nat)
  | isEmpty (empty : Bool)

def TimerQueue.serve (q : TimerQueue α) : TimerCall α → TimerAnswer α × TimerQueue α
  | .scheduleAt deadline payload => (q.scheduleAt deadline payload).map .scheduled id
  | .scheduleAfter now delay payload => (q.scheduleAfter now delay payload).map .scheduled id
  | .cancel timer => (q.cancel timer).map .cancelled id
  | .isPending timer => (.isPending (q.isPending timer), q)
  | .popDue now => (q.popDue now).map .popped id
  | .nextDeadline => q.nextDeadline.map .deadline id
  | .payloads => (.payloads q.payloads, q)
  | .size => (.size q.size, q)
  | .isEmpty => (.isEmpty q.isEmpty, q)

structure Timing (α : Type) where
  id : TimerId
  deadline : Instant
  payload : α

namespace Timing

def key (e : Timing α) : Nat ×ₗ Nat := toLex (e.deadline.nanos, e.id.number)

theorem key_le_iff (e f : Timing α) :
    e.key ≤ f.key ↔ Slot.before (e.deadline, e.id) (f.deadline, f.id) = true := by
  rw [key, key, Prod.Lex.toLex_le_toLex, Slot.before_iff]

end Timing

/-- The pending timers, in the order of their numbers. -/
structure Timetable (α : Type) where
  entries : List (Timing α) := []
  nextNumber : Nat := 0

namespace Timetable

def scheduleAt (t : Timetable α) (deadline : Instant) (payload : α) : TimerId × Timetable α :=
  let id : TimerId := ⟨t.nextNumber⟩
  (id, { entries := t.entries ++ [⟨id, deadline, payload⟩], nextNumber := t.nextNumber + 1 })

def find? (t : Timetable α) (id : TimerId) : Option (Timing α) := t.entries.find? (·.id = id)

def without (t : Timetable α) (id : TimerId) : Timetable α :=
  { t with entries := t.entries.filter (·.id ≠ id) }

/-- The entry with the least deadline, and among those with the least number. -/
def first? (t : Timetable α) : Option (Timing α) := t.entries.argmin Timing.key

def popDue (t : Timetable α) (now : Instant) : Option (TimerId × α) × Timetable α :=
  match t.first? with
  | some e => if e.deadline ≤ now then (some (e.id, e.payload), t.without e.id) else (none, t)
  | none => (none, t)

def serve (t : Timetable α) : TimerCall α → TimerAnswer α × Timetable α
  | .scheduleAt deadline payload => (t.scheduleAt deadline payload).map .scheduled id
  | .scheduleAfter now delay payload => (t.scheduleAt (now.after delay) payload).map .scheduled id
  | .cancel timer => (.cancelled ((t.find? timer).map (·.payload)), t.without timer)
  | .isPending timer => (.isPending (t.find? timer).isSome, t)
  | .popDue now => (t.popDue now).map .popped id
  | .nextDeadline => (.deadline (t.first?.map (·.deadline)), t)
  | .payloads => (.payloads (t.entries.map (·.payload)), t)
  | .size => (.size t.entries.length, t)
  | .isEmpty => (.isEmpty t.entries.isEmpty, t)

end Timetable

def TimerQueue.ByNumber (timers : List (TimerId × α)) : Prop := timers.Pairwise (·.1.number < ·.1.number)

theorem TimerQueue.ByNumber.nodup {timers : List (TimerId × α)} (h : ByNumber timers) : timers.Nodup := by
  refine List.Pairwise.imp ?_ h
  rintro a b hlt rfl
  exact Nat.lt_irrefl _ hlt

/-- The timetable lists what is pending in the queue. -/
structure TimerQueue.Listed (q : TimerQueue α) (t : Timetable α) : Prop where
  sound : q.Sound
  nextNumber : t.nextNumber = q.nextNumber
  increasing : t.entries.Pairwise (·.id.number < ·.id.number)
  entries : ∀ e : Timing α, e ∈ t.entries ↔ (e.deadline, e.id) ∈ q.live ∧ q.pending[e.id]? = some e.payload

namespace TimerQueue.Listed

variable {q q' : TimerQueue α} {t : Timetable α}

theorem empty : ({} : TimerQueue α).Listed {} where
  sound := sound_empty
  nextNumber := rfl
  increasing := List.Pairwise.nil
  entries e := by simp [live]

theorem same (h : q.Listed t) (same : q.Same q') : q'.Listed t where
  sound := same.sound h.sound
  nextNumber := h.nextNumber.trans same.nextNumber.symm
  increasing := h.increasing
  entries := by
    rw [same.live, same.pending]
    exact h.entries

theorem exists_entry (h : q.Listed t) {id : TimerId} {payload : α} (pending : q.pending[id]? = some payload) :
    ∃ deadline, (⟨id, deadline, payload⟩ : Timing α) ∈ t.entries := by
  obtain ⟨deadline, hlive⟩ := h.sound.exists_live (Std.ExtTreeMap.getElem?_eq_some_iff.mp pending).1
  exact ⟨deadline, (h.entries _).mpr ⟨hlive, pending⟩⟩

theorem number_lt (h : q.Listed t) {e : Timing α} (he : e ∈ t.entries) : e.id.number < q.nextNumber :=
  h.sound.number_lt (mem_live.mp ((h.entries e).mp he).1).2

theorem find? (h : q.Listed t) (id : TimerId) : (t.find? id).map (·.payload) = q.pending[id]? := by
  cases hfound : t.find? id with
  | some e =>
    have hid : e.id = id := of_decide_eq_true (List.find?_some hfound :)
    rw [← hid, ((h.entries e).mp (List.mem_of_find?_eq_some hfound)).2]
    rfl
  | none =>
    cases hpending : q.pending[id]? with
    | none => rfl
    | some payload =>
      obtain ⟨deadline, he⟩ := h.exists_entry hpending
      exact absurd (decide_eq_true rfl) (List.find?_eq_none.mp hfound _ he)

theorem isPending (h : q.Listed t) (id : TimerId) : q.isPending id = (t.find? id).isSome := by
  rw [TimerQueue.isPending, Std.ExtTreeMap.contains_eq_isSome_getElem?, ← h.find? id, Option.isSome_map]

theorem toList (h : q.Listed t) : q.pending.toList = t.entries.map fun e => (e.id, e.payload) := by
  have hincreasing : ByNumber (t.entries.map fun e => (e.id, e.payload)) := List.pairwise_map.mpr h.increasing
  have hsorted : q.pending.toList.Pairwise fun a b => compare a.1 b.1 = .lt := Std.ExtTreeMap.ordered_keys_toList
  have hordered : ByNumber q.pending.toList := hsorted.imp Nat.compare_eq_lt.mp
  have hperm := (List.perm_ext_iff_of_nodup hordered.nodup hincreasing.nodup).mpr fun (id, payload) => by
    rw [Std.ExtTreeMap.mem_toList_iff_getElem?_eq_some]
    constructor
    · intro hpending
      obtain ⟨deadline, he⟩ := h.exists_entry hpending
      exact List.mem_map.mpr ⟨_, he, rfl⟩
    · intro hmem
      obtain ⟨e, he, heq⟩ := List.mem_map.mp hmem
      cases heq
      exact ((h.entries e).mp he).2
  exact hperm.eq_of_pairwise (fun _ _ _ _ hlt hgt => absurd hgt (Nat.lt_asymm hlt)) hordered hincreasing

theorem payloads (h : q.Listed t) : q.payloads = t.entries.map (·.payload) := by
  rw [TimerQueue.payloads, h.toList, List.map_map]
  rfl

theorem size (h : q.Listed t) : q.size = t.entries.length := by
  rw [TimerQueue.size, ← Std.ExtTreeMap.length_toList, h.toList, List.length_map]

theorem isEmpty (h : q.Listed t) : q.isEmpty = t.entries.isEmpty := by
  rw [TimerQueue.isEmpty, ← Std.ExtTreeMap.isEmpty_toList, h.toList, List.isEmpty_map]

theorem first? (h : q.Listed t) {deadline : Instant} {id : TimerId} {payload : α} {rest : List Slot}
    (live : q.live = (deadline, id) :: rest) (pending : q.pending[id]? = some payload) :
    t.first? = some ⟨id, deadline, payload⟩ := by
  have hslot : (deadline, id) ∈ q.live := by
    rw [live]
    exact List.mem_cons_self
  have hentry := (h.entries ⟨id, deadline, payload⟩).mpr ⟨hslot, pending⟩
  cases hfirst : t.first? with
  | none =>
    rw [List.argmin_eq_none.mp hfirst] at hentry
    cases hentry
  | some e =>
    obtain ⟨helive, hepending⟩ := (h.entries e).mp (List.argmin_mem hfirst)
    have hordered : Ordered q.live := h.sound.ordered.filter _
    rw [live] at hordered helive
    -- Neither of the two comes due after the other, and the key tells timers apart.
    have hle : e.key ≤ Timing.key ⟨id, deadline, payload⟩ := List.le_of_mem_argmin hentry hfirst
    have hge : Timing.key ⟨id, deadline, payload⟩ ≤ e.key := by
      rcases List.mem_cons.mp helive with heq | hlater
      · obtain ⟨hdeadline, hid⟩ := Prod.mk.inj heq
        rw [Timing.key, Timing.key, hdeadline, hid]
      · exact (Timing.key_le_iff _ _).mpr ((List.pairwise_cons.mp hordered).1 _ hlater)
    obtain ⟨hdeadline, hnumber⟩ := Prod.mk.inj (toLex.injective (le_antisymm hle hge))
    obtain ⟨⟨number⟩, ⟨nanos⟩, other⟩ := e
    obtain ⟨rfl⟩ : number = id.number := hnumber
    obtain ⟨rfl⟩ : nanos = deadline.nanos := hdeadline
    rw [pending] at hepending
    rw [Option.some.inj hepending]

theorem nextDeadline (h : q.Listed t) : q.nextDeadline.1 = t.first?.map (·.deadline) := by
  rw [nextDeadline_fst]
  cases hlive : q.live with
  | nil =>
    have hnone : t.entries = [] := List.eq_nil_iff_forall_not_mem.mpr fun e he => by
      rw [h.entries, hlive] at he
      exact List.not_mem_nil he.1
    rw [Timetable.first?, hnone]
    rfl
  | cons slot rest =>
    have hpending := (mem_live.mp (hlive ▸ List.mem_cons_self : slot ∈ q.live)).2
    rw [h.first? hlive (Std.ExtTreeMap.getElem?_eq_some_getElem hpending)]
    rfl

theorem scheduleAt (h : q.Listed t) (deadline : Instant) (payload : α) :
    (q.scheduleAt deadline payload).1 = (t.scheduleAt deadline payload).1 ∧
      (q.scheduleAt deadline payload).2.Listed (t.scheduleAt deadline payload).2 := by
  have hid : (t.scheduleAt deadline payload).1 = ⟨q.nextNumber⟩ := congrArg TimerId.mk h.nextNumber
  refine ⟨hid.symm, h.sound.scheduleAt deadline payload, congrArg Nat.succ h.nextNumber, ?_, fun e => ?_⟩
  · refine List.pairwise_append.mpr ⟨h.increasing, List.pairwise_singleton _ _, fun e he f hf => ?_⟩
    rw [List.mem_singleton.mp hf]
    exact Nat.lt_of_lt_of_eq (h.number_lt he) h.nextNumber.symm
  · change e ∈ t.entries ++ [⟨(t.scheduleAt deadline payload).1, deadline, payload⟩] ↔ _
    rw [List.mem_append, List.mem_singleton, hid, h.entries, mem_live_scheduleAt h.sound, scheduleAt_pending]
    simp only [Std.ExtTreeMap.getElem?_insert, Std.LawfulEqOrd.compare_eq_iff_eq]
    constructor
    · rintro (⟨hlive, hpending⟩ | rfl)
      · rw [if_neg (h.sound.fresh hlive)]
        exact ⟨.inr hlive, hpending⟩
      · exact ⟨.inl rfl, if_pos rfl⟩
    · rintro ⟨hnew | hlive, hpending⟩
      · obtain ⟨eid, edeadline, epayload⟩ := e
        cases hnew
        rw [if_pos rfl] at hpending
        cases hpending
        exact .inr rfl
      · rw [if_neg (h.sound.fresh hlive)] at hpending
        exact .inl ⟨hlive, hpending⟩

theorem without (h : q.Listed t) {id : TimerId} (shrinks : q.Shrinks q') (pending : q'.pending = q.pending.erase id)
    (sound : q'.Sound) : q'.Listed (t.without id) where
  sound := sound
  nextNumber := h.nextNumber.trans shrinks.nextNumber.symm
  increasing := h.increasing.filter _
  entries e := by
    rw [Timetable.without, List.mem_filter, decide_eq_true_iff, h.entries, shrinks.live, left, List.mem_filter,
      decide_eq_true_iff, pending]
    simp only [Std.ExtTreeMap.mem_erase, Std.ExtTreeMap.getElem?_erase, Std.LawfulEqOrd.compare_eq_iff_eq, Ne]
    constructor
    · rintro ⟨⟨hlive, hpending⟩, hother⟩
      rw [if_neg (Ne.symm hother)]
      exact ⟨⟨hlive, Ne.symm hother, (mem_live.mp hlive).2⟩, hpending⟩
    · rintro ⟨⟨hlive, hother, -⟩, hpending⟩
      rw [if_neg hother] at hpending
      exact ⟨⟨hlive, hpending⟩, Ne.symm hother⟩

theorem popDue (h : q.Listed t) (now : Instant) :
    (q.popDue now).1 = (t.popDue now).1 ∧ (q.popDue now).2.Listed (t.popDue now).2 := by
  rcases hpop : q.popDue now with ⟨_ | ⟨id, payload⟩, q'⟩
  · have hlater := h.sound.popDue_none hpop
    have hnothing : t.popDue now = (none, t) := by
      unfold Timetable.popDue
      cases hfirst : t.first? with
      | none => rfl
      | some e => exact if_neg (Nat.not_le_of_lt (hlater _ ((h.entries e).mp (List.argmin_mem hfirst)).1))
    rw [hnothing]
    exact ⟨rfl, h.same (same_popDue_none hpop)⟩
  · have hexpires := h.sound.popDue_some hpop
    obtain ⟨deadline, hdue, hlive⟩ := hexpires.live
    have hpopped : t.popDue now = (some (id, payload), t.without id) := by
      unfold Timetable.popDue
      rw [h.first? hlive hexpires.payload]
      exact if_pos hdue
    rw [hpopped]
    exact ⟨rfl, h.without hexpires.shrinks hexpires.pending hexpires.sound⟩

theorem serve (h : q.Listed t) (call : TimerCall α) :
    (q.serve call).1 = (t.serve call).1 ∧ (q.serve call).2.Listed (t.serve call).2 := by
  cases call with
  | scheduleAt deadline payload =>
    obtain ⟨hid, hlisted⟩ := h.scheduleAt deadline payload
    exact ⟨congrArg TimerAnswer.scheduled hid, hlisted⟩
  | scheduleAfter now delay payload =>
    obtain ⟨hid, hlisted⟩ := h.scheduleAt (now.after delay) payload
    exact ⟨congrArg TimerAnswer.scheduled hid, hlisted⟩
  | cancel id =>
    exact ⟨congrArg TimerAnswer.cancelled (h.find? id).symm,
      h.without (q.shrinks_cancel id) (q.cancel_pending id) (h.sound.cancel id)⟩
  | isPending id => exact ⟨congrArg TimerAnswer.isPending (h.isPending id), h⟩
  | popDue now =>
    obtain ⟨htimer, hlisted⟩ := h.popDue now
    exact ⟨congrArg TimerAnswer.popped htimer, hlisted⟩
  | nextDeadline => exact ⟨congrArg TimerAnswer.deadline h.nextDeadline, h.same q.same_nextDeadline⟩
  | payloads => exact ⟨congrArg TimerAnswer.payloads h.payloads, h⟩
  | size => exact ⟨congrArg TimerAnswer.size h.size, h⟩
  | isEmpty => exact ⟨congrArg TimerAnswer.isEmpty h.isEmpty, h⟩

end TimerQueue.Listed

def transcript {ς : Type} (serve : ς → TimerCall α → TimerAnswer α × ς) :
    ς → List (TimerCall α) → List (TimerCall α × TimerAnswer α)
  | _, [] => []
  | s, call :: calls => (call, (serve s call).1) :: transcript serve (serve s call).2 calls

theorem transcript_append {ς : Type} (serve : ς → TimerCall α → TimerAnswer α × ς) (s : ς)
    (first second : List (TimerCall α)) :
    transcript serve s (first ++ second) =
      transcript serve s first ++ transcript serve (first.foldl (fun s call => (serve s call).2) s) second := by
  induction first generalizing s with
  | nil => rfl
  | cons call first ih => exact congrArg ((call, (serve s call).1) :: ·) (ih (serve s call).2)

theorem transcript_length {ς : Type} (serve : ς → TimerCall α → TimerAnswer α × ς) (s : ς)
    (calls : List (TimerCall α)) : (transcript serve s calls).length = calls.length := by
  induction calls generalizing s with
  | nil => rfl
  | cons call calls ih => exact congrArg Nat.succ (ih (serve s call).2)

theorem TimerQueue.Listed.transcript {q : TimerQueue α} {t : Timetable α} (h : q.Listed t)
    (calls : List (TimerCall α)) :
    ActorNet.transcript TimerQueue.serve q calls = ActorNet.transcript Timetable.serve t calls := by
  induction calls generalizing q t with
  | nil => rfl
  | cons call calls ih =>
    obtain ⟨hanswer, hlisted⟩ := h.serve call
    rw [ActorNet.transcript, ActorNet.transcript, hanswer, ih hlisted]

def Timing.scheduled? : TimerCall α × TimerAnswer α → Option (Timing α)
  | (.scheduleAt deadline payload, .scheduled id) => some ⟨id, deadline, payload⟩
  | (.scheduleAfter now delay payload, .scheduled id) => some ⟨id, now.after delay, payload⟩
  | _ => none

def TimerId.gone? : TimerCall α × TimerAnswer α → Option TimerId
  | (.cancel id, .cancelled (some _)) => some id
  | (.popDue _, .popped (some (id, _))) => some id
  | _ => none

def scheduledBy (past : List (TimerCall α × TimerAnswer α)) : List (Timing α) := past.filterMap Timing.scheduled?

def goneBy (past : List (TimerCall α × TimerAnswer α)) : List TimerId := past.filterMap TimerId.gone?

section Cons

variable (call : TimerCall α × TimerAnswer α) (past : List (TimerCall α × TimerAnswer α))

theorem scheduledBy_cons : scheduledBy (call :: past) = (Timing.scheduled? call).toList ++ scheduledBy past := by
  cases h : Timing.scheduled? call <;> simp [scheduledBy, h]

theorem goneBy_cons : goneBy (call :: past) = (TimerId.gone? call).toList ++ goneBy past := by
  cases h : TimerId.gone? call <;> simp [goneBy, h]

end Cons

namespace Timetable

/-- A timetable lists what has been scheduled and has not gone. Numbers are given one after the other, and no
timer goes twice. -/
structure Records (scheduled : List (Timing α)) (gone : List TimerId) (t : Timetable α) : Prop where
  entries : t.entries = scheduled.filter (·.id ∉ gone)
  numbers : scheduled.map (·.id.number) = List.range t.nextNumber
  known : ∀ id ∈ gone, id ∈ scheduled.map (·.id)
  once : gone.Nodup

def after (t : Timetable α) (calls : List (TimerCall α)) : Timetable α :=
  calls.foldl (fun t call => (t.serve call).2) t

namespace Records

variable {scheduled : List (Timing α)} {gone : List TimerId} {t : Timetable α}

theorem number_lt (h : t.Records scheduled gone) {id : TimerId} (hid : id ∈ scheduled.map (·.id)) :
    id.number < t.nextNumber := by
  obtain ⟨e, he, rfl⟩ := List.mem_map.mp hid
  apply List.mem_range.mp
  rw [← h.numbers]
  exact List.mem_map_of_mem he

theorem scheduleAt (h : t.Records scheduled gone) (deadline : Instant) (payload : α) :
    (t.scheduleAt deadline payload).2.Records
      (scheduled ++ [⟨(t.scheduleAt deadline payload).1, deadline, payload⟩]) gone where
  entries := by
    have hnew : (t.scheduleAt deadline payload).1 ∉ gone := fun hgone =>
      Nat.lt_irrefl _ (h.number_lt (h.known _ hgone))
    rw [List.filter_append, ← h.entries, List.filter_cons_of_pos (by simpa using hnew)]
    rfl
  numbers := by
    rw [List.map_append, h.numbers]
    exact List.range_succ.symm
  known id hid := by
    rw [List.map_append]
    exact List.mem_append_left _ (h.known id hid)
  once := h.once

theorem without (h : t.Records scheduled gone) {e : Timing α} (listed : e ∈ t.entries) :
    (t.without e.id).Records scheduled (gone ++ [e.id]) where
  entries := by
    rw [Timetable.without, h.entries, List.filter_filter]
    refine List.filter_congr fun f _ => ?_
    simp [and_comm]
  numbers := h.numbers
  known id hid := by
    rw [h.entries] at listed
    rcases List.mem_append.mp hid with hold | hnew
    · exact h.known id hold
    · rw [List.mem_singleton.mp hnew]
      exact List.mem_map_of_mem (List.mem_filter.mp listed).1
  once := by
    rw [h.entries] at listed
    have hnew : e.id ∉ gone := of_decide_eq_true (List.mem_filter.mp listed).2
    exact List.nodup_append'.mpr ⟨h.once, List.nodup_singleton _, by simpa using hnew⟩

theorem cancel (h : t.Records scheduled gone) (id : TimerId) :
    (t.without id).Records scheduled (gone ++ ((t.find? id).map fun _ => id).toList) := by
  cases hfound : t.find? id with
  | none =>
    have hsame : t.entries.filter (·.id ≠ id) = t.entries :=
      List.filter_eq_self.mpr fun e he => by simpa using List.find?_eq_none.mp hfound e he
    rw [Timetable.without, hsame]
    simpa using h
  | some e =>
    obtain rfl : e.id = id := of_decide_eq_true (List.find?_some hfound :)
    exact h.without (List.mem_of_find?_eq_some hfound)

theorem popDue (h : t.Records scheduled gone) (now : Instant) :
    (t.popDue now).2.Records scheduled (gone ++ ((t.popDue now).1.map (·.1)).toList) := by
  unfold Timetable.popDue
  cases hfirst : t.first? with
  | none => simpa using h
  | some e =>
    dsimp only
    split
    · exact h.without (List.argmin_mem hfirst)
    · simpa using h

theorem serve (h : t.Records scheduled gone) (call : TimerCall α) :
    (t.serve call).2.Records (scheduled ++ (Timing.scheduled? (call, (t.serve call).1)).toList)
      (gone ++ (TimerId.gone? (call, (t.serve call).1)).toList) := by
  cases call with
  | scheduleAt deadline payload =>
    have hscheduled := h.scheduleAt deadline payload
    rwa [← gone.append_nil] at hscheduled
  | scheduleAfter now delay payload =>
    have hscheduled := h.scheduleAt (now.after delay) payload
    rwa [← gone.append_nil] at hscheduled
  | cancel id =>
    have hcancelled := h.cancel id
    rw [← scheduled.append_nil] at hcancelled
    change (t.without id).Records _
      (gone ++ (TimerId.gone? (.cancel id, .cancelled ((t.find? id).map (·.payload)))).toList)
    cases hfound : t.find? id <;> rw [hfound] at hcancelled <;> exact hcancelled
  | popDue now =>
    have hpopped := h.popDue now
    rw [← scheduled.append_nil] at hpopped
    change (t.popDue now).2.Records _ (gone ++ (TimerId.gone? (.popDue now, .popped (t.popDue now).1)).toList)
    cases htimer : (t.popDue now).1 <;> rw [htimer] at hpopped <;> exact hpopped
  | isPending | nextDeadline | payloads | size | isEmpty =>
    rw [← scheduled.append_nil, ← gone.append_nil] at h
    exact h

theorem after (h : t.Records scheduled gone) (calls : List (TimerCall α)) :
    (t.after calls).Records (scheduled ++ scheduledBy (transcript Timetable.serve t calls))
      (gone ++ goneBy (transcript Timetable.serve t calls)) := by
  induction calls generalizing scheduled gone t with
  | nil =>
    rw [← scheduled.append_nil, ← gone.append_nil] at h
    exact h
  | cons call calls ih =>
    rw [transcript, scheduledBy_cons, goneBy_cons, ← List.append_assoc, ← List.append_assoc]
    exact ih (h.serve call)

end Records

end Timetable

theorem Timetable.undisturbed (before after : List (TimerCall α)) :
    transcript serve {} (before ++ after) =
      (transcript serve {} (before ++ .nextDeadline :: after)).eraseIdx before.length := by
  rw [transcript_append, transcript_append, ← transcript_length serve {} before,
    List.eraseIdx_append_of_length_le (Nat.le_refl _), Nat.sub_self]
  rfl

/-- A queue that is new when it is asked answers as a timetable does. -/
structure TimerQueue.PlainlyAnswered (calls : List (TimerCall α)) : Prop where
  answers : transcript TimerQueue.serve {} calls = transcript Timetable.serve {} calls
  timetable : (({} : Timetable α).after calls).Records (scheduledBy (transcript TimerQueue.serve {} calls))
    (goneBy (transcript TimerQueue.serve {} calls))
  /-- Asking for the next deadline makes no difference to the other answers. -/
  undisturbed : ∀ before after, calls = before ++ .nextDeadline :: after →
    transcript TimerQueue.serve {} (before ++ after) =
      (transcript TimerQueue.serve {} calls).eraseIdx before.length

theorem TimerQueue.answers_plainly (calls : List (TimerCall α)) : PlainlyAnswered calls where
  answers := Listed.empty.transcript calls
  timetable := by
    have hnew : ({} : Timetable α).Records [] [] := ⟨rfl, rfl, nofun, List.nodup_nil⟩
    rw [Listed.empty.transcript calls]
    exact hnew.after calls
  undisturbed := by
    rintro before after rfl
    rw [Listed.empty.transcript, Listed.empty.transcript]
    exact Timetable.undisturbed before after

end ActorNet
