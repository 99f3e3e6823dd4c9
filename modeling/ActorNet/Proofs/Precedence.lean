import ActorNet.Proofs.Shutdown
import Mathlib.Data.List.Perm.Subperm

set_option autoImplicit false

/-!
# Timers keep their order

A timer keeps the place that it was given, and a new one never comes due before the time at which it is
scheduled. So once a timer is due nothing comes before it but what was ahead of it then.
-/
namespace ActorNet

variable {σ : Type}

def Slot.precedes (a b : Slot) : Bool :=
  a.1.nanos < b.1.nanos || (a.1.nanos == b.1.nanos && a.2.number < b.2.number)

theorem Slot.precedes_iff (a b : Slot) :
    a.precedes b = true ↔
      a.1.nanos < b.1.nanos ∨ (a.1.nanos = b.1.nanos ∧ a.2.number < b.2.number) := by
  simp [precedes]

namespace TimerQueue

variable {α : Type} {q q' q'' : TimerQueue α}

/-- The places of the pending timers that come due before a slot. -/
def ahead (q : TimerQueue α) (slot : Slot) : List Slot := q.live.filter (·.precedes slot)

theorem Sound.unique (sound : q.Sound) {a b : Slot} (ha : a ∈ q.live) (hb : b ∈ q.live) (same : a.2 = b.2) :
    a = b :=
  List.inj_on_of_nodup_map sound.distinct (mem_live.mp ha).1 (mem_live.mp hb).1 same

/-- Old timers may have gone; new ones come due no earlier than the time. -/
structure Renewed (q : TimerQueue α) (now : Instant) (q' : TimerQueue α) : Prop where
  nextNumber : q.nextNumber ≤ q'.nextNumber
  live : ∀ slot ∈ q'.live, slot ∈ q.live ∨ (now ≤ slot.1 ∧ q.nextNumber ≤ slot.2.number)
  payload : ∀ id : TimerId, id.number < q.nextNumber → ∀ payload : α,
    q'.pending[id]? = some payload → q.pending[id]? = some payload

theorem Shrinks.renewed (h : q.Shrinks q') (now : Instant) : q.Renewed now q' where
  nextNumber := Nat.le_of_eq h.nextNumber.symm
  live slot hslot := by
    rw [h.live] at hslot
    exact .inl (List.mem_filter.mp hslot).1
  payload id _ := h.pending id

theorem Sound.renewed (sound : q.Sound) {now deadline : Instant} (later : now ≤ deadline) (payload : α) :
    q.Renewed now (q.scheduleAt deadline payload).2 where
  nextNumber := Nat.le_succ _
  live slot hslot := by
    rcases (mem_live_scheduleAt sound).mp hslot with rfl | hold
    · exact .inr ⟨later, Nat.le_refl _⟩
    · exact .inl hold
  payload id old other hpending := by
    have hne : (⟨q.nextNumber⟩ : TimerId) ≠ id := by
      rintro rfl
      exact Nat.lt_irrefl _ old
    change (q.pending.insert ⟨q.nextNumber⟩ payload)[id]? = some other at hpending
    rwa [Std.ExtTreeMap.getElem?_insert, if_neg (mt Std.LawfulEqOrd.compare_eq_iff_eq.mp hne)] at hpending

namespace Renewed

variable {now now' : Instant}

theorem trans (h : q.Renewed now q') (h' : q'.Renewed now' q'') (later : now ≤ now') : q.Renewed now q'' where
  nextNumber := Nat.le_trans h.nextNumber h'.nextNumber
  live slot hslot := by
    rcases h'.live slot hslot with hold | ⟨hlater, hnew⟩
    · exact h.live slot hold
    · exact .inr ⟨Nat.le_trans later hlater, Nat.le_trans h.nextNumber hnew⟩
  payload id old payload hpending :=
    h.payload id old payload (h'.payload id (Nat.lt_of_lt_of_le old h.nextNumber) payload hpending)

theorem pending (h : q.Renewed now q') {id : TimerId} (old : id.number < q.nextNumber) (pending : id ∈ q'.pending) :
    id ∈ q.pending := by
  have hpayload := h.payload id old _ (Std.ExtTreeMap.getElem?_eq_some_getElem pending)
  exact (Std.ExtTreeMap.getElem?_eq_some_iff.mp hpayload).1

variable {slot : Slot}

theorem place (h : q.Renewed now q') (sound : q.Sound) (sound' : q'.Sound) (live : slot ∈ q.live)
    (pending : slot.2 ∈ q'.pending) : slot ∈ q'.live := by
  obtain ⟨deadline, hslot⟩ := sound'.exists_live pending
  rcases h.live _ hslot with hold | ⟨-, hnew⟩
  · rwa [sound.unique hold live rfl] at hslot
  · exact absurd (sound.number_lt (mem_live.mp live).2) (Nat.not_lt_of_le hnew)

variable {id : TimerId} {payload : α} {rest : TimerQueue α}

theorem due (h : q.Renewed now q') (sound : q.Sound) (sound' : q'.Sound) (live : slot ∈ q.live)
    (expires : q'.Expires now' slot.2 payload rest) : slot.1 ≤ now' := by
  obtain ⟨deadline, hdue, hlive⟩ := expires.live
  have hslot : (deadline, slot.2) ∈ q'.live := hlive ▸ List.mem_cons_self
  have hplace : (deadline, slot.2) = slot :=
    sound'.unique hslot (h.place sound sound' live (mem_live.mp hslot).2) rfl
  rwa [← hplace]

theorem turn (h : q.Renewed now q') (sound : q.Sound) (sound' : q'.Sound) (live : slot ∈ q.live) (due : slot.1 ≤ now)
    (pending : slot.2 ∈ q'.pending) (expires : q'.Expires now' id payload rest) :
    id = slot.2 ∨ id ∈ (q.ahead slot).map (·.2) := by
  obtain ⟨deadline, -, hlive⟩ := expires.live
  have hordered : Ordered q'.live := sound'.ordered.filter _
  have hslot := h.place sound sound' live pending
  rw [hlive] at hordered hslot
  rcases List.mem_cons.mp hslot with rfl | hbehind
  · exact .inl rfl
  · by_cases hid : id = slot.2
    · exact .inl hid
    · have hnumber : id.number ≠ slot.2.number := fun hsame => hid (congrArg TimerId.mk hsame)
      have hbefore := (Slot.before_iff _ _).mp ((List.pairwise_cons.mp hordered).1 slot hbehind)
      rcases h.live (deadline, id) (hlive ▸ List.mem_cons_self) with hold | ⟨hlater, hnew⟩
      · refine .inr (List.mem_map.mpr ⟨(deadline, id), List.mem_filter.mpr ⟨hold, ?_⟩, rfl⟩)
        rw [Slot.precedes_iff]
        dsimp only at hbefore ⊢
        omega
      · -- A newer timer stands behind whatever was due when it was scheduled.
        have hnumbered := sound.number_lt (mem_live.mp live).2
        have hnanos : slot.1.nanos ≤ deadline.nanos := Nat.le_trans due hlater
        dsimp only at hbefore hnew
        omega

end Renewed

end TimerQueue

namespace Scheduler

variable {s s' s'' : Scheduler σ}

/-- What the clock, the timers and the halt have come to, later on. -/
structure Onward (s s' : Scheduler σ) : Prop where
  later : s.now ≤ s'.now
  timers : s.timers.Renewed s.now s'.timers
  halted : s.halted = true → s'.halted = true

namespace Onward

theorem of_shrinks (timers : s.timers.Shrinks s'.timers) (later : s.now ≤ s'.now)
    (halted : s.halted = true → s'.halted = true) : s.Onward s' :=
  ⟨later, timers.renewed s.now, halted⟩

theorem of_eq (timers : s'.timers = s.timers) (now : s'.now = s.now) (halted : s'.halted = s.halted) :
    s.Onward s' := by
  refine of_shrinks ?_ (Nat.le_of_eq (congrArg Instant.nanos now.symm)) halted.trans
  rw [timers]
  exact (TimerQueue.Same.refl _).shrinks

theorem refl (s : Scheduler σ) : s.Onward s := .of_eq rfl rfl rfl

theorem trans (h : s.Onward s') (h' : s'.Onward s'') : s.Onward s'' :=
  ⟨Nat.le_trans h.later h'.later, h.timers.trans h'.timers h.later, fun hhalted => h'.halted (h.halted hhalted)⟩

end Onward

theorem Quiet.onward (quiet : s.Quiet s') : s.Onward s' := by
  refine .of_shrinks quiet.timers.shrinks quiet.later fun hhalted => ?_
  rwa [quiet.eq]

theorem cancel_onward (s : Scheduler σ) (timer : Option TimerId) : s.Onward (s.cancel timer) := by
  cases timer with
  | none => exact .refl s
  | some id => exact .of_shrinks (s.timers.shrinks_cancel id) (Nat.le_refl _) fun h => h

theorem schedule_onward (sound : s.timers.Sound) (delay : Duration) (wakeup : Wakeup) :
    s.Onward (s.schedule delay wakeup).2 :=
  ⟨Nat.le_refl _, sound.renewed (Instant.le_after _ _) _, fun h => h⟩

theorem renewImmediate_onward (sound : s.timers.Sound) (all : Bool) : s.Onward (s.renewImmediate all) := by
  have hdropped : s.Onward s.dropImmediate := (s.cancel_onward s.immediate).trans (.of_eq rfl rfl rfl)
  have hscheduled := schedule_onward (dropImmediate_sound sound) .zero (.cycle all)
  exact hdropped.trans (hscheduled.trans (.of_eq rfl rfl rfl))

theorem scheduleImmediate_onward (sound : s.timers.Sound) (all : Bool) : s.Onward (s.scheduleImmediate all) := by
  rw [scheduleImmediate_eq]
  split
  · exact .refl s
  · exact renewImmediate_onward sound all

theorem cancelHeartbeat_onward (s : Scheduler σ) : s.Onward s.cancelHeartbeat :=
  (s.cancel_onward s.heartbeat).trans (.of_eq rfl rfl rfl)

theorem Obeyed.onward {command : Command} (h : s.Obeyed command s') (sound : s.timers.Sound) : s.Onward s' := by
  cases h with
  | ignored | stopAgain | dropped => exact .of_eq rfl rfl rfl
  | delayed delay => exact schedule_onward sound delay (.cycle true)
  | sweep => exact renewImmediate_onward sound true
  | joined delay ids =>
    have hjoined : s.Onward (s.join ids) := .of_eq rfl rfl rfl
    exact hjoined.trans (scheduleImmediate_onward (s := s.join ids) sound false)
  | stop => exact (schedule_onward sound .zero .halt).trans (.of_eq rfl rfl rfl)

theorem Followed.onward {result : FiringResult} {active : Bool} {next : NextCycle}
    (h : s.Followed result active next s') (sound : s.timers.Sound) : s.Onward s' := by
  have hsound := cancelHeartbeat_sound sound
  cases h with
  | stopped => exact .refl s
  | fired =>
    have hgathered : s.Onward (s.cancelHeartbeat.gather result.affected) :=
      s.cancelHeartbeat_onward.trans (.of_eq rfl rfl rfl)
    exact hgathered.trans (scheduleImmediate_onward (s := s.cancelHeartbeat.gather result.affected) hsound false)
  | active => exact s.cancelHeartbeat_onward.trans (renewImmediate_onward hsound true)
  | quiet =>
    have hscheduled := schedule_onward hsound s.cancelHeartbeat.config.heartbeat .heartbeat
    exact s.cancelHeartbeat_onward.trans (hscheduled.trans (.of_eq rfl rfl rfl))

theorem closeCycle_onward (sound : s.timers.Sound) (cycle : Nat) (all active : Bool) :
    s.Onward (s.closeCycle cycle all active).1 := by
  have hswept : s.Onward (s.swept all) := by
    refine .of_shrinks (s.swept_shrinks all) ?_ (s.swept_halted all).trans
    exact Nat.le_of_eq (congrArg Instant.nanos (s.swept_before all).2.1.symm)
  exact hswept.trans ((s.closeCycle_followed cycle all active).onward (swept_sound sound all))

theorem expire_timers (s : Scheduler σ) (timers : TimerQueue Wakeup) (wakeup : Wakeup) :
    (s.expire timers wakeup).timers = timers := by
  cases wakeup <;> rfl

theorem expire_onward {id : TimerId} {wakeup : Wakeup} {timers : TimerQueue Wakeup}
    (expires : s.timers.Expires s.now id wakeup timers) : s.Onward (s.expire timers wakeup) := by
  obtain ⟨stats, hframe⟩ := s.expire_frame timers wakeup
  rw [hframe]
  refine .of_shrinks expires.shrinks (Nat.le_refl _) fun hhalted => ?_
  dsimp only
  rw [hhalted, ite_self]

/-- A timer of the state comes due in its turn, or another one does, given what has happened since. -/
structure Fair (start : Scheduler σ) (between : List (Moment σ)) (m : Moment σ) : Prop where
  timely : ∀ slot ∈ start.timers.live, ∀ wakeup, m.mark = .expired slot.2 wakeup →
    slot.1 ≤ m.before.now ∧ start.timers.pending[slot.2]? = some wakeup
  orderly : ∀ slot ∈ start.timers.live, slot.1 ≤ start.now → ∀ id wakeup, m.mark = .expired id wakeup →
    id = slot.2 ∨ id ∈ (start.timers.ahead slot).map (·.2) ∨ slot.2 ∈ expiredTimers between ∨
      slot.2 ∈ cancelledTimers between

theorem Fair.of_unexpired {start : Scheduler σ} {between : List (Moment σ)} {m : Moment σ} (h : m.expiry? = none) :
    start.Fair between m := by
  have hmark : ∀ id wakeup, m.mark ≠ .expired id wakeup := by
    rintro id wakeup hmark
    simp [Moment.expiry?, hmark] at h
  exact ⟨fun _ _ _ hexpired => (hmark _ _ hexpired).elim, fun _ _ _ _ _ hexpired => (hmark _ _ hexpired).elim⟩

/-- What has become of the timers that were pending at the start, given what has happened since. -/
structure Tracked (start : Scheduler σ) (rest : List (Moment σ)) (s : Scheduler σ) : Prop where
  origin : start.timers.Sound
  sound : s.timers.Sound
  onward : start.Onward s
  waits : ∀ id ∈ start.timers.pending,
    id ∈ s.timers.pending ∨ id ∈ expiredTimers rest ∨ id ∈ cancelledTimers rest
  gone : ∀ id, id ∈ expiredTimers rest ∨ id ∈ cancelledTimers rest →
    id ∉ s.timers.pending ∧ id.number < s.timers.nextNumber
  distinct : (expiredTimers rest).Nodup
  apart : ∀ id ∈ expiredTimers rest, id ∉ cancelledTimers rest
  along : Along start.Fair rest

theorem expiry?_of_mem_firingEach {only : Option ActorSet} {ids : List ActorId} {state : Scheduler σ × Sweep}
    {m : Moment σ} (h : m ∈ firingEach only ids state) : m.expiry? = none := by
  obtain ⟨id, -, hmark⟩ := mark_of_mem_firingEach h
  simp [Moment.expiry?, hmark]

theorem cancelledTimers_firingEach (only : Option ActorSet) (ids : List ActorId) (state : Scheduler σ × Sweep) :
    cancelledTimers (firingEach only ids state) = [] := by
  induction ids generalizing state with
  | nil => rfl
  | cons id ids ih =>
    rw [firingEach]
    split
    · obtain ⟨fireErrors, hframe⟩ := state.1.fireOne_frame state.2 id
      rw [cancelledTimers, List.flatMap_cons, ← cancelledTimers, ih, hframe]
      simp [Moment.cancelled, Moment.expiry?]
    · exact ih state

namespace Tracked

variable {start : Scheduler σ} {rest : List (Moment σ)}

theorem now (sound : s.timers.Sound) : Tracked s [] s where
  origin := sound
  sound := sound
  onward := .refl s
  waits _ hid := .inl hid
  gone _ hid := by simp [expiredTimers, cancelledTimers] at hid
  distinct := List.nodup_nil
  apart := nofun
  along := along_nil

theorem fired (h : Tracked start rest s) (only : Option ActorSet) (ids : List ActorId) (state : Scheduler σ × Sweep) :
    Tracked start (rest ++ firingEach only ids state) s := by
  let moments := firingEach only ids state
  have hexpired : expiredTimers (rest ++ moments) = expiredTimers rest := by
    rw [expiredTimers_append, List.append_right_eq_self]
    exact List.filterMap_eq_nil_iff.mpr fun m hm => expiry?_of_mem_firingEach hm
  have hcancelled : cancelledTimers (rest ++ moments) = cancelledTimers rest := by
    rw [cancelledTimers, List.flatMap_append, ← cancelledTimers, ← cancelledTimers, List.append_right_eq_self]
    exact cancelledTimers_firingEach only ids state
  refine { h with waits := ?_, gone := ?_, distinct := ?_, apart := ?_, along := ?_ }
  · rw [hexpired, hcancelled]
    exact h.waits
  · rw [hexpired, hcancelled]
    exact h.gone
  · rw [hexpired]
    exact h.distinct
  · rw [hexpired, hcancelled]
    exact h.apart
  · exact h.along.append fun _ m hm => .of_unexpired (expiry?_of_mem_firingEach hm)

theorem quiet (h : Tracked start rest s) (quiet : s.Quiet s') : Tracked start rest s' where
  origin := h.origin
  sound := quiet.timers.sound h.sound
  onward := h.onward.trans quiet.onward
  waits := by
    rw [quiet.timers.pending]
    exact h.waits
  gone := by
    rw [quiet.timers.pending, quiet.timers.nextNumber]
    exact h.gone
  distinct := h.distinct
  apart := h.apart
  along := h.along

theorem concat (h : Tracked start rest s) {m : Moment σ} (before : m.before = s) (expiry : m.expiry? = none)
    (onward : s.Onward m.after) (sound : m.after.timers.Sound) : Tracked start (rest ++ [m]) m.after where
  origin := h.origin
  sound := sound
  onward := h.onward.trans onward
  waits id hid := by
    rw [expiredTimers_same expiry, cancelledTimers_concat, List.mem_append, Moment.mem_cancelled expiry, before]
    have hwaits := h.waits id hid
    tauto
  gone id hid := by
    rw [expiredTimers_same expiry, cancelledTimers_concat, List.mem_append, ← or_assoc, Moment.mem_cancelled expiry,
      before] at hid
    rcases hid with hold | ⟨hpending, hgone⟩
    · obtain ⟨hgone, hnumber⟩ := h.gone id hold
      exact ⟨mt (onward.timers.pending hnumber) hgone, Nat.lt_of_lt_of_le hnumber onward.timers.nextNumber⟩
    · exact ⟨hgone, Nat.lt_of_lt_of_le (h.sound.number_lt hpending) onward.timers.nextNumber⟩
  distinct := by
    rw [expiredTimers_same expiry]
    exact h.distinct
  apart id hid hcancelled := by
    rw [expiredTimers_same expiry] at hid
    rw [cancelledTimers_concat, List.mem_append, Moment.mem_cancelled expiry, before] at hcancelled
    rcases hcancelled with hold | ⟨hpending, -⟩
    · exact h.apart id hid hold
    · exact (h.gone id (.inl hid)).1 hpending
  along := h.along.concat (.of_unexpired expiry)

theorem expired (h : Tracked start rest s) {id : TimerId} {wakeup : Wakeup} {timers : TimerQueue Wakeup}
    (expires : s.timers.Expires s.now id wakeup timers) :
    Tracked start (rest ++ [⟨s, .expired id wakeup, s.expire timers wakeup⟩]) (s.expire timers wakeup) := by
  let m : Moment σ := ⟨s, .expired id wakeup, s.expire timers wakeup⟩
  have hexpired : expiredTimers (rest ++ [m]) = expiredTimers rest ++ [id] := expiredTimers_concat rest m
  have hcancelled : cancelledTimers (rest ++ [m]) = cancelledTimers rest := by
    simp [cancelledTimers_concat, m, Moment.cancelled, Moment.expiry?]
  have htimers := s.expire_timers timers wakeup
  have hthis : id ∈ s.timers.pending := (Std.ExtTreeMap.getElem?_eq_some_iff.mp expires.payload).1
  have hpending : ∀ {other : TimerId}, other ∈ timers.pending ↔ other ≠ id ∧ other ∈ s.timers.pending := by
    intro other
    rw [expires.pending, Std.ExtTreeMap.mem_erase, Ne, Std.LawfulEqOrd.compare_eq_iff_eq, eq_comm]
  constructor
  case origin => exact h.origin
  case sound =>
    rw [htimers]
    exact expires.sound
  case onward => exact h.onward.trans (expire_onward expires)
  case waits =>
    intro other hother
    rw [htimers, hexpired, hcancelled, hpending, List.mem_append, List.mem_singleton]
    have hwaits := h.waits other hother
    tauto
  case gone =>
    intro other hother
    rw [hexpired, hcancelled, List.mem_append, List.mem_singleton, or_right_comm] at hother
    rw [htimers, expires.nextNumber, hpending]
    rcases hother with hold | rfl
    · exact ⟨fun hstill => (h.gone other hold).1 hstill.2, (h.gone other hold).2⟩
    · exact ⟨fun hstill => hstill.1 rfl, h.sound.number_lt hthis⟩
  case distinct =>
    rw [hexpired, ← List.concat_eq_append]
    exact h.distinct.concat fun hold => (h.gone id (.inl hold)).1 hthis
  case apart =>
    intro other hother hover
    rw [hexpired, List.mem_append, List.mem_singleton] at hother
    rw [hcancelled] at hover
    rcases hother with hold | rfl
    · exact h.apart other hold hover
    · exact (h.gone other (.inr hover)).1 hthis
  case along =>
    refine h.along.concat ⟨?_, ?_⟩
    · rintro slot hslot other ⟨⟩
      have hold := h.origin.number_lt (TimerQueue.mem_live.mp hslot).2
      exact ⟨h.onward.timers.due h.origin h.sound hslot expires, h.onward.timers.payload _ hold _ expires.payload⟩
    · rintro slot hslot hdue other payload ⟨⟩
      rcases h.waits slot.2 (TimerQueue.mem_live.mp hslot).2 with hstill | hover
      · exact (h.onward.timers.turn h.origin h.sound hslot hdue hstill expires).imp_right .inl
      · exact .inr (.inr hover)

theorem kept (start : Scheduler σ) : Kept fun _ rest (s : Scheduler σ) => Tracked start rest s where
  quiet := quiet
  obeyed _ h sound obeyed := h.concat rfl rfl (obeyed.onward sound) (obeyed.sound sound)
  lapsed h sound obeyed := h.concat rfl rfl (obeyed.onward sound) (obeyed.sound sound)
  begun h sound _ _ := h.concat rfl rfl (renewImmediate_onward sound true) (renewImmediate_sound sound true)
  operated _ h := h.concat rfl rfl (.of_eq rfl rfl rfl) h.sound
  expired h _ _ expires := h.expired expires
  entered := id
  opened _ h := h.concat rfl rfl (.of_eq rfl rfl rfl) h.sound
  closed cycle all active h sound := by
    rw [closing, ← List.append_assoc]
    exact (h.fired _ _ _).concat rfl rfl (closeCycle_onward sound cycle all active)
      (closeCycle_sound sound cycle all active)

end Tracked

end Scheduler

end ActorNet
