import ActorNet.Scheduler.Step
import ActorNet.Proofs.Timers

set_option autoImplicit false

/-!
# What the parts of a scheduler do to its state

One fact for each part: what scheduling and cancelling leave pending, what obeying a command comes to, and
which fields a part leaves alone.
-/
namespace ActorNet

theorem Instant.after_zero (t : Instant) : t.after .zero = t := by
  have hsame : (⟨t.nanos + Duration.zero.nanos⟩ : Instant) = t := rfl
  have hlater : t.nanos + Duration.zero.nanos ≤ t.nanos + farFuture.nanos :=
    Nat.add_le_add_left (Nat.zero_le _) _
  by_cases hzero : t.nanos + Duration.zero.nanos < limit
  · simp [Instant.after, Instant.add?, hzero, hsame]
  · have hfar : ¬t.nanos + farFuture.nanos < limit := by omega
    simp [Instant.after, Instant.add?, hzero, hfar]

theorem Instant.le_after (t : Instant) (d : Duration) : t ≤ t.after d := by
  change t.nanos ≤ (t.after d).nanos
  by_cases hnear : t.nanos + d.nanos < limit
  · simp [Instant.after, Instant.add?, hnear]
  · by_cases hfar : t.nanos + farFuture.nanos < limit
    · simp [Instant.after, Instant.add?, hnear, hfar]
    · simp [Instant.after, Instant.add?, hnear, hfar]

namespace Scheduler

variable {σ : Type}

def nextTimer (s : Scheduler σ) : TimerId := ⟨s.timers.nextNumber⟩

theorem schedule_getElem? (s : Scheduler σ) (delay : Duration) (wakeup : Wakeup) (id : TimerId) :
    (s.schedule delay wakeup).2.timers.pending[id]? =
      if s.nextTimer = id then some wakeup else s.timers.pending[id]? := by
  change (s.timers.pending.insert s.nextTimer wakeup)[id]? = _
  simp only [Std.ExtTreeMap.getElem?_insert, Std.LawfulEqOrd.compare_eq_iff_eq]

theorem cancel_getElem? (s : Scheduler σ) (timer : Option TimerId) (id : TimerId) :
    (s.cancel timer).timers.pending[id]? =
      if timer = some id then none else s.timers.pending[id]? := by
  cases timer with
  | none => rfl
  | some other =>
    change (s.timers.pending.erase other)[id]? = _
    simp only [Std.ExtTreeMap.getElem?_erase, Std.LawfulEqOrd.compare_eq_iff_eq, Option.some.injEq]

theorem cancel_eq (s : Scheduler σ) (timer : Option TimerId) :
    s.cancel timer = { s with timers := (s.cancel timer).timers } := by
  cases timer <;> rfl

theorem cancel_nextNumber (s : Scheduler σ) (timer : Option TimerId) :
    (s.cancel timer).timers.nextNumber = s.timers.nextNumber := by
  cases timer <;> rfl

theorem cancel_sound {s : Scheduler σ} (sound : s.timers.Sound) (timer : Option TimerId) :
    (s.cancel timer).timers.Sound := by
  cases timer with
  | none => exact sound
  | some id => exact sound.cancel id

theorem schedule_sound {s : Scheduler σ} (sound : s.timers.Sound) (delay : Duration) (wakeup : Wakeup) :
    (s.schedule delay wakeup).2.timers.Sound := sound.scheduleAt _ _

theorem mem_live_schedule {s : Scheduler σ} (sound : s.timers.Sound) {delay : Duration} {wakeup : Wakeup}
    {slot : Slot} :
    slot ∈ (s.schedule delay wakeup).2.timers.live ↔
      slot = (s.now.after delay, s.nextTimer) ∨ slot ∈ s.timers.live :=
  TimerQueue.mem_live_scheduleAt sound

theorem mem_live_cancel {s : Scheduler σ} {timer : Option TimerId} {slot : Slot} :
    slot ∈ (s.cancel timer).timers.live ↔ timer ≠ some slot.2 ∧ slot ∈ s.timers.live := by
  cases timer with
  | none => simp [cancel]
  | some id => simpa [cancel, eq_comm] using TimerQueue.mem_live_cancel (q := s.timers)

theorem isPending_iff (s : Scheduler σ) (timer : Option TimerId) :
    s.isPending timer = true ↔ ∃ id, timer = some id ∧ id ∈ s.timers.pending := by
  cases timer <;> simp [isPending, TimerQueue.isPending]

theorem hasImmediateCycle_iff (s : Scheduler σ) :
    s.hasImmediateCycle = true ↔ ∃ id, s.immediate = some id ∧ id ∈ s.timers.pending :=
  s.isPending_iff s.immediate

theorem schedule_hasImmediateCycle {s : Scheduler σ} (h : s.hasImmediateCycle = true) (delay : Duration)
    (wakeup : Wakeup) : (s.schedule delay wakeup).2.hasImmediateCycle = true := by
  obtain ⟨id, himmediate, hmem⟩ := s.hasImmediateCycle_iff.mp h
  refine (hasImmediateCycle_iff _).mpr ⟨id, himmediate, ?_⟩
  exact Std.ExtTreeMap.mem_insert.mpr (.inr hmem)

theorem isHeartbeatArmed_iff (s : Scheduler σ) :
    s.isHeartbeatArmed = true ↔ ∃ id, s.heartbeat = some id ∧ id ∈ s.timers.pending :=
  s.isPending_iff s.heartbeat

def dropImmediate (s : Scheduler σ) : Scheduler σ := { s.cancel s.immediate with immediate := none }

def startImmediate (s : Scheduler σ) (all : Bool) : Scheduler σ :=
  { (s.schedule .zero (.cycle all)).2 with immediate := some s.nextTimer, immediateSweep := all }

def renewImmediate (s : Scheduler σ) (all : Bool) : Scheduler σ := s.dropImmediate.startImmediate all

theorem renewImmediate_frame (s : Scheduler σ) (all : Bool) :
    ∃ timers, s.renewImmediate all =
      { s with timers, immediate := some s.nextTimer, immediateSweep := all } := by
  refine ⟨(s.renewImmediate all).timers, ?_⟩
  unfold renewImmediate startImmediate dropImmediate
  rw [cancel_eq]
  simp only [schedule, nextTimer, cancel_nextNumber]

theorem renewImmediate_hasImmediateCycle (s : Scheduler σ) (all : Bool) :
    (s.renewImmediate all).hasImmediateCycle = true := by
  rw [hasImmediateCycle_iff]
  refine ⟨s.dropImmediate.nextTimer, rfl, ?_⟩
  have hpending := s.dropImmediate.schedule_getElem? .zero (.cycle all) s.dropImmediate.nextTimer
  rw [if_pos rfl] at hpending
  exact (Std.ExtTreeMap.getElem?_eq_some_iff.mp hpending).1

theorem scheduleImmediate_eq (s : Scheduler σ) (all : Bool) :
    s.scheduleImmediate all = if !all && s.hasImmediateCycle then s else s.renewImmediate all := rfl

theorem scheduleImmediate_sweep (s : Scheduler σ) : s.scheduleImmediate true = s.renewImmediate true := rfl

theorem scheduleImmediate_frame (s : Scheduler σ) (all : Bool) :
    ∃ timers immediate immediateSweep, s.scheduleImmediate all =
      { s with timers, immediate, immediateSweep } := by
  rw [scheduleImmediate_eq]
  split
  · exact ⟨s.timers, s.immediate, s.immediateSweep, rfl⟩
  · obtain ⟨timers, hrenewed⟩ := s.renewImmediate_frame all
    exact ⟨timers, _, _, hrenewed⟩

theorem scheduleImmediate_hasImmediateCycle (s : Scheduler σ) (all : Bool) :
    (s.scheduleImmediate all).hasImmediateCycle = true := by
  rw [scheduleImmediate_eq]
  split
  case isTrue hkept => exact (Bool.and_eq_true_iff.mp hkept).2
  case isFalse => exact s.renewImmediate_hasImmediateCycle all

theorem cancelHeartbeat_frame (s : Scheduler σ) :
    ∃ timers, s.cancelHeartbeat = { s with timers, heartbeat := none } := by
  refine ⟨s.cancelHeartbeat.timers, ?_⟩
  unfold cancelHeartbeat
  rw [cancel_eq]

def startHeartbeat (s : Scheduler σ) : Scheduler σ :=
  { (s.schedule s.config.heartbeat .heartbeat).2 with
    heartbeat := some s.nextTimer
    stats := { s.stats with heartbeatsArmed := countUp s.stats.heartbeatsArmed } }

theorem armHeartbeat_eq (s : Scheduler σ) : s.armHeartbeat = s.cancelHeartbeat.startHeartbeat := rfl

theorem armHeartbeat_frame (s : Scheduler σ) :
    ∃ timers heartbeat stats, s.armHeartbeat = { s with timers, heartbeat, stats } := by
  obtain ⟨timers, hcancelled⟩ := s.cancelHeartbeat_frame
  rw [armHeartbeat_eq, hcancelled]
  exact ⟨_, _, _, rfl⟩

def join (s : Scheduler σ) (ids : Std.ExtTreeSet (Option ActorId) compare) : Scheduler σ :=
  { s with
    unaddressed := s.unaddressed || ids.contains none
    pending := s.pending.insertMany (ids.toList.filterMap id) }

theorem mem_join {s : Scheduler σ} {ids : Std.ExtTreeSet (Option ActorId) compare} {id : ActorId} :
    id ∈ (s.join ids).pending ↔ id ∈ s.pending ∨ some id ∈ ids := by
  simp [join, Std.ExtTreeSet.mem_insertMany_list]

def isMarkerOnly (s : Scheduler σ) : Bool := s.pending.isEmpty && s.unaddressed

def drop (s : Scheduler σ) : Scheduler σ :=
  { s with stats := { s.stats with triggersDropped := countUp s.stats.triggersDropped } }

inductive Obeyed (s : Scheduler σ) : Command → Scheduler σ → Prop
  | ignored (delay : Duration) (targets : Targets) (stopped : s.done = true) :
    Obeyed s (.trigger delay targets) s
  | delayed (delay : Duration) (targets : Targets) (running : s.done = false)
    (later : delay.isZero = false) :
    Obeyed s (.trigger delay targets) (s.schedule delay (.cycle true)).2
  | sweep (delay : Duration) (running : s.done = false) (now : delay.isZero = true) :
    Obeyed s (.trigger delay .all) (s.renewImmediate true)
  | dropped (delay : Duration) (ids : Std.ExtTreeSet (Option ActorId) compare) (running : s.done = false)
    (now : delay.isZero = true) (nobody : (s.join ids).isMarkerOnly = true) :
    Obeyed s (.trigger delay (.actors ids)) (s.join ids).drop
  | joined (delay : Duration) (ids : Std.ExtTreeSet (Option ActorId) compare) (running : s.done = false)
    (now : delay.isZero = true) (somebody : (s.join ids).isMarkerOnly = false) :
    Obeyed s (.trigger delay (.actors ids)) ((s.join ids).scheduleImmediate false)
  | stopAgain (stopped : s.done = true) : Obeyed s .stop s
  | stop (running : s.done = false) : Obeyed s .stop { (s.schedule .zero .halt).2 with done := true }

/-- A command leaves the registry alone, and nobody who is pending is forgotten. -/
theorem Obeyed.frame {s s' : Scheduler σ} {command : Command} (h : s.Obeyed command s') :
    s'.registry = s.registry ∧ (s'.done = false → s.done = false) ∧ ∀ id ∈ s.pending, id ∈ s'.pending := by
  cases h with
  | ignored | stopAgain | delayed => exact ⟨rfl, id, fun _ => id⟩
  | sweep =>
    obtain ⟨timers, hframe⟩ := s.renewImmediate_frame true
    rw [hframe]
    exact ⟨rfl, id, fun _ => id⟩
  | dropped delay ids => exact ⟨rfl, id, fun _ hid => mem_join.mpr (.inl hid)⟩
  | joined delay ids =>
    obtain ⟨timers, immediate, immediateSweep, hframe⟩ := (s.join ids).scheduleImmediate_frame false
    rw [hframe]
    exact ⟨rfl, id, fun _ hid => mem_join.mpr (.inl hid)⟩
  | stop hrunning => exact ⟨rfl, fun _ => hrunning, fun _ => id⟩

theorem Obeyed.config {s s' : Scheduler σ} {command : Command} (h : s.Obeyed command s') : s'.config = s.config := by
  cases h with
  | ignored | stopAgain | delayed | dropped | stop => rfl
  | sweep =>
    obtain ⟨timers, hframe⟩ := s.renewImmediate_frame true
    rw [hframe]
  | joined delay ids =>
    obtain ⟨timers, immediate, immediateSweep, hframe⟩ := (s.join ids).scheduleImmediate_frame false
    rw [hframe]
    rfl

theorem requestActors_value (s : Scheduler σ) (ids : Std.ExtTreeSet (Option ActorId) compare) :
    (s.requestActors ids).value =
      if (s.join ids).isMarkerOnly then (s.join ids).drop else (s.join ids).scheduleImmediate false := by
  change (if (s.join ids).isMarkerOnly = true then _ else _ : Logged (Scheduler σ)).value = _
  split <;> rfl

theorem trigger_obeyed (s : Scheduler σ) (delay : Duration) (targets : Targets) :
    Obeyed s (.trigger delay targets) (s.trigger delay targets).value := by
  unfold trigger
  rw [Logged.value_bind]
  cases hdone : s.done with
  | true => exact .ignored delay targets hdone
  | false =>
    cases hzero : delay.isZero with
    | false => exact .delayed delay targets hdone hzero
    | true =>
      cases targets with
      | all =>
        have hsweep := Obeyed.sweep delay hdone hzero
        rwa [← s.scheduleImmediate_sweep] at hsweep
      | actors ids =>
        change Obeyed s _ (s.requestActors ids).value
        rw [s.requestActors_value]
        split
        case isTrue hnobody => exact .dropped delay ids hdone hzero hnobody
        case isFalse hsomebody => exact .joined delay ids hdone hzero (eq_false_of_ne_true hsomebody)

theorem obeyed (s : Scheduler σ) (command : Command) : Obeyed s command (s.obey command).value := by
  cases command with
  | trigger delay targets => exact s.trigger_obeyed delay targets
  | stop =>
    change Obeyed s .stop s.stop.value
    unfold stop
    cases hdone : s.done with
    | true => exact .stopAgain hdone
    | false => exact .stop hdone

end Scheduler

end ActorNet
