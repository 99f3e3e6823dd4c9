import ActorNet.Proofs.Turns
import Mathlib.Data.List.TakeWhile

set_option autoImplicit false

/-!
# A scheduler never falls asleep for good

From its first cycle on a scheduler has an immediate cycle before it or stands by for its heartbeat, until it
is stopped. What takes the last timer away puts another in its place: a cycle when it decides what follows, an
expired heartbeat when it asks for a sweep. The run loop starts with a cycle in sight, so it never waits
without a deadline.
-/
namespace ActorNet

variable {σ : Type}

def Cycled (past : List (Moment σ)) : Prop := ∃ m ∈ past, ∃ report, m.mark = .cycled report

theorem cycled_concat {past : List (Moment σ)} {m : Moment σ} :
    Cycled (past ++ [m]) ↔ Cycled past ∨ ∃ report, m.mark = .cycled report := by
  simp [Cycled, or_and_right, exists_or]

namespace Scheduler

variable {s s' : Scheduler σ}

/-- An immediate cycle is outstanding, or a heartbeat is armed. -/
def Covered (s : Scheduler σ) : Prop := s.hasImmediateCycle = true ∨ s.isHeartbeatArmed = true

theorem Covered.mono (h : s.Covered) (immediate : s'.immediate = s.immediate)
    (heartbeat : s'.heartbeat = s.heartbeat) (more : ∀ id ∈ s.timers.pending, id ∈ s'.timers.pending) :
    s'.Covered := by
  refine h.imp (fun himmediate => ?_) fun harmed => ?_
  · obtain ⟨id, hid, hmem⟩ := s.hasImmediateCycle_iff.mp himmediate
    exact s'.hasImmediateCycle_iff.mpr ⟨id, immediate.trans hid, more id hmem⟩
  · obtain ⟨id, hid, hmem⟩ := s.isHeartbeatArmed_iff.mp harmed
    exact s'.isHeartbeatArmed_iff.mpr ⟨id, heartbeat.trans hid, more id hmem⟩

theorem renewImmediate_covered (s : Scheduler σ) (all : Bool) : (s.renewImmediate all).Covered :=
  .inl (s.renewImmediate_hasImmediateCycle all)

theorem schedule_more (s : Scheduler σ) (delay : Duration) (wakeup : Wakeup) :
    ∀ id ∈ s.timers.pending, id ∈ (s.schedule delay wakeup).2.timers.pending :=
  fun _ hmem => Std.ExtTreeMap.mem_insert.mpr (.inr hmem)

/-- The decision of a cycle, given what came before it. -/
structure Decided (past : List (Moment σ)) (m : Moment σ) (report : CycleReport) : Prop where
  stopped : Stopped past → report.next = .stopped ∧ m.after = m.before.swept report.all
  next : ¬Stopped past →
    report.next = if report.result.didFire || report.monitorActivity then .immediate else .heartbeat
  immediate : report.next = .immediate →
    m.after.hasImmediateCycle = true ∧ m.after.isHeartbeatArmed = false ∧
      m.after.timers.payloads.count .heartbeat = 0
  heartbeat : report.next = .heartbeat →
    m.after.isHeartbeatArmed = true ∧ m.after.timers.payloads.count .heartbeat = 1 ∧
      ∃ id deadline, m.after.heartbeat = some id ∧ (deadline, id) ∈ m.after.timers.live ∧
        ∀ t, m.before.now.add? m.before.config.heartbeat = some t → deadline = t

def WellDecided (past : List (Moment σ)) (m : Moment σ) : Prop :=
  ∀ report, m.mark = .cycled report → Decided past m report

theorem Followed.next {result : FiringResult} {active : Bool} {next : NextCycle}
    (h : s.Followed result active next s') :
    next = if s.done then .stopped else if result.didFire || active then .immediate else .heartbeat := by
  cases h with
  | stopped hdone => simp [hdone]
  | fired hrunning hfired => simp [hrunning, hfired]
  | active hrunning hidle hactive => simp [hrunning, hactive]
  | quiet hrunning hidle hactive => simp [hrunning, hidle, hactive]

theorem Followed.stays {result : FiringResult} {active : Bool} {next : NextCycle}
    (h : s.Followed result active next s') (stopped : s.done = true) : s' = s := by
  cases h with
  | stopped => rfl
  | fired hrunning | active hrunning | quiet hrunning =>
    rw [stopped] at hrunning
    cases hrunning

theorem armHeartbeat_pending (s : Scheduler σ) :
    ∃ id, s.armHeartbeat.heartbeat = some id ∧ id ∈ s.armHeartbeat.timers.pending :=
  ⟨s.cancelHeartbeat.nextTimer, rfl, Std.ExtTreeMap.mem_insert_self⟩

theorem Followed.covered {result : FiringResult} {active : Bool} {next : NextCycle}
    (h : s.Followed result active next s') (running : s.done = false) : s'.Covered := by
  cases h with
  | stopped hdone =>
    rw [hdone] at running
    cases running
  | fired => exact .inl (scheduleImmediate_hasImmediateCycle _ false)
  | active => exact renewImmediate_covered _ true
  | quiet => exact .inr (s.armHeartbeat.isHeartbeatArmed_iff.mpr s.armHeartbeat_pending)

theorem Followed.disarmed {result : FiringResult} {active : Bool} {next : NextCycle}
    (h : s.Followed result active next s') (immediate : next = .immediate) :
    s'.hasImmediateCycle = true ∧ s'.isHeartbeatArmed = false := by
  obtain ⟨timers, hcancelled⟩ := s.cancelHeartbeat_frame
  cases h with
  | stopped | quiet => cases immediate
  | fired =>
    obtain ⟨timers, immediate, immediateSweep, hframe⟩ :=
      (s.cancelHeartbeat.gather result.affected).scheduleImmediate_frame false
    refine ⟨scheduleImmediate_hasImmediateCycle _ false, ?_⟩
    rw [hframe, gather, hcancelled]
    rfl
  | active =>
    obtain ⟨timers, hframe⟩ := s.cancelHeartbeat.renewImmediate_frame true
    refine ⟨renewImmediate_hasImmediateCycle _ true, ?_⟩
    rw [hframe, hcancelled]
    rfl

theorem Followed.armed {result : FiringResult} {active : Bool} {next : NextCycle}
    (h : s.Followed result active next s') (sound : s.timers.Sound) (heartbeat : next = .heartbeat) :
    s'.isHeartbeatArmed = true ∧
      ∃ id, s'.heartbeat = some id ∧ (s.now.after s.config.heartbeat, id) ∈ s'.timers.live := by
  obtain ⟨timers, hcancelled⟩ := s.cancelHeartbeat_frame
  cases h with
  | stopped | fired | active => cases heartbeat
  | quiet =>
    have hlive : (s.cancelHeartbeat.now.after s.cancelHeartbeat.config.heartbeat, s.cancelHeartbeat.nextTimer) ∈
        s.armHeartbeat.timers.live := (mem_live_schedule (cancelHeartbeat_sound sound)).mpr (.inl rfl)
    refine ⟨s.armHeartbeat.isHeartbeatArmed_iff.mpr s.armHeartbeat_pending, _, rfl, ?_⟩
    rwa [hcancelled] at hlive ⊢

theorem swept_before (s : Scheduler σ) (all : Bool) :
    (s.swept all).done = s.done ∧ (s.swept all).now = s.now ∧ (s.swept all).config = s.config := by
  obtain ⟨registry, stats, hswept⟩ := s.swept_frame all
  rw [hswept, s.takePending_taken.frame]
  exact ⟨rfl, rfl, rfl⟩

namespace Booked

variable {past : List (Moment σ)}

theorem heartbeat_count (h : s.Booked past) :
    s.timers.payloads.count .heartbeat = if s.isHeartbeatArmed then 1 else 0 := by
  have harmed := s.isHeartbeatArmed_iff
  have hone : s.timers.payloads.count .heartbeat = s.heartbeat.toList.length := by
    apply TimerQueue.countP_payloads
    · cases s.heartbeat <;> simp
    · intro id
      simp [h.heartbeat]
  rw [hone]
  cases hheartbeat : s.heartbeat with
  | none => simp [isHeartbeatArmed, isPending, hheartbeat]
  | some id =>
    have hpending := (h.heartbeat id).mpr hheartbeat
    rw [if_pos (harmed.mpr ⟨id, hheartbeat, (Std.ExtTreeMap.getElem?_eq_some_iff.mp hpending).1⟩)]
    rfl

theorem closed_decided (h : s.Booked past) (sound : s.timers.Sound) (cycle : Nat) (all active : Bool) :
    WellDecided (past ++ firingEach (s.scope all) s.registry.enabled (s.takePending.2, {}))
      ⟨s, .cycled (s.closeCycle cycle all active).2, (s.closeCycle cycle all active).1⟩ := by
  have hfollowed := s.closeCycle_followed cycle all active
  have hcount : (s.closeCycle cycle all active).1.timers.payloads.count .heartbeat =
      if (s.closeCycle cycle all active).1.isHeartbeatArmed then 1 else 0 :=
    (kept.closed cycle all active h sound).heartbeat_count
  obtain ⟨hdone, hnow, hconfig⟩ := s.swept_before all
  have hstopped := (h.fired (s.scope all) s.registry.enabled (s.takePending.2, {})).stopped
  rintro report hmark
  cases hmark
  constructor
  · intro hstop
    have hstays := hdone.trans (hstopped.mpr hstop)
    exact ⟨hfollowed.next.trans (if_pos hstays), hfollowed.stays hstays⟩
  · intro hrunning
    have hgoes : ¬(s.swept all).done = true := fun hdone' => hrunning (hstopped.mp (hdone.symm.trans hdone'))
    exact hfollowed.next.trans (if_neg hgoes)
  · intro himmediate
    obtain ⟨houtstanding, hdisarmed⟩ := hfollowed.disarmed himmediate
    rw [hdisarmed] at hcount
    exact ⟨houtstanding, hdisarmed, hcount⟩
  · intro hheartbeat
    obtain ⟨harmed, id, hid, hlive⟩ := hfollowed.armed (swept_sound sound all) hheartbeat
    rw [harmed] at hcount
    refine ⟨harmed, hcount, id, _, hid, hlive, fun t ht => ?_⟩
    rw [hnow, hconfig, Instant.after, ht]
    rfl

end Booked

/-- A property that a scheduler has when it is covered, and keeps while no timer is taken away. -/
structure Lasting (P : Scheduler σ → Prop) : Prop where
  covered {s : Scheduler σ} : s.Covered → P s
  mono {s s' : Scheduler σ} : P s → s'.immediate = s.immediate → s'.heartbeat = s.heartbeat →
    (∀ id ∈ s.timers.pending, id ∈ s'.timers.pending) → P s'

theorem lasting_covered : Lasting (Covered (σ := σ)) where
  covered := id
  mono := Covered.mono

/-- Between steps the property holds, from the point on that `since` tells and until a stop. -/
structure Vigilant (P : Scheduler σ → Prop) (since : List (Moment σ) → Prop) (stage : Stage)
    (past : List (Moment σ)) (s : Scheduler σ) : Prop where
  booked : s.Booked past
  decided : Along WellDecided past
  lasts : stage = .rest → since past → s.done = false → P s

theorem Obeyed.lasts {P : Scheduler σ → Prop} (lasting : Lasting P) {command : Command} (h : s.Obeyed command s')
    (before : P s) : P s' := by
  cases h with
  | ignored | stopAgain => exact before
  | delayed delay => exact lasting.mono before rfl rfl (s.schedule_more delay (.cycle true))
  | sweep => exact lasting.covered (s.renewImmediate_covered true)
  | dropped => exact lasting.mono before rfl rfl fun _ => id
  | joined delay ids => exact lasting.covered (.inl ((s.join ids).scheduleImmediate_hasImmediateCycle false))
  | stop => exact lasting.mono before rfl rfl (s.schedule_more .zero .halt)

theorem wellDecided_of_mark {past : List (Moment σ)} {m : Moment σ} (h : ∀ report, m.mark ≠ .cycled report) :
    WellDecided past m := fun report hmark => absurd hmark (h report)

theorem Vigilant.kept {P : Scheduler σ → Prop} (lasting : Lasting P) {since : List (Moment σ) → Prop}
    (begins : ∀ past m, since (past ++ [m]) → since past ∨ ∃ report, m.mark = .cycled report) :
    Kept (Vigilant P since) where
  quiet {stage past s s'} h quiet := by
    refine ⟨h.booked.quiet quiet, h.decided, fun hstage hsince hrunning => ?_⟩
    have hpending : s'.timers.pending = s.timers.pending := quiet.timers.pending
    rw [quiet.eq] at hrunning ⊢
    refine lasting.mono (h.lasts hstage hsince hrunning) rfl rfl ?_
    rw [hpending]
    exact fun _ => id
  obeyed {stage past s s' command} _ h sound obeyed := by
    refine ⟨h.booked.obeyed sound obeyed, h.decided.concat (wellDecided_of_mark nofun), ?_⟩
    intro hstage hsince hrunning
    have hbefore := (begins _ _ hsince).resolve_right nofun
    exact obeyed.lasts lasting (h.lasts hstage hbefore (obeyed.frame.2.1 hrunning))
  lapsed {past s s'} h sound obeyed := by
    refine ⟨h.booked.obeyed sound obeyed, h.decided.concat (wellDecided_of_mark nofun), ?_⟩
    intro _ _ hrunning
    cases obeyed with
    | ignored _ _ hstopped =>
      rw [hstopped] at hrunning
      cases hrunning
    | delayed _ _ _ hlater => cases hlater
    | sweep => exact lasting.covered (s.renewImmediate_covered true)
  begun {past s} h sound _ _ := by
    refine ⟨Booked.kept.begun h.booked sound ‹_› ‹_›, h.decided.concat (wellDecided_of_mark nofun), ?_⟩
    exact fun _ _ _ => lasting.covered (s.renewImmediate_covered true)
  operated {past s} operation h := by
    refine ⟨Booked.kept.operated operation h.booked, h.decided.concat (wellDecided_of_mark nofun), ?_⟩
    intro hstage hsince hrunning
    have hbefore := (begins _ _ hsince).resolve_right nofun
    exact lasting.mono (h.lasts hstage hbefore hrunning) rfl rfl fun _ => id
  expired {past s timers id wakeup} h sound _ expires := by
    refine ⟨h.booked.expire sound expires, h.decided.concat (wellDecided_of_mark nofun), ?_⟩
    intro hstage _ hrunning
    -- A cycle or a heartbeat goes on to do something; a halt comes after a stop.
    cases wakeup with
    | cycle | heartbeat => cases hstage
    | halt =>
      obtain ⟨halt, hhalt⟩ := h.booked.halt
      have hdone := ((hhalt id).mp expires.payload).1
      rw [show s.done = false from hrunning] at hdone
      cases hdone
  entered h := ⟨h.booked, h.decided, nofun⟩
  opened all h := ⟨Booked.kept.opened all h.booked, h.decided.concat (wellDecided_of_mark nofun), nofun⟩
  closed {past s} cycle all active h sound := by
    refine ⟨Booked.kept.closed cycle all active h.booked sound, ?_, fun _ _ hrunning => ?_⟩
    · rw [closing, ← List.append_assoc]
      refine (h.decided.append fun before m hm => ?_).concat (h.booked.closed_decided sound cycle all active)
      obtain ⟨id, -, hmark⟩ := mark_of_mem_firingEach hm
      exact wellDecided_of_mark (by simp [hmark])
    · have hfollowed := s.closeCycle_followed cycle all active
      exact lasting.covered (hfollowed.covered (hfollowed.done.symm.trans hrunning))

end Scheduler

theorem Run.vigilant (run : Run σ) :
    Kept.Holds (Scheduler.Vigilant Scheduler.Covered Cycled) .rest run.history run.state := by
  refine run.invariant (Scheduler.Vigilant.kept Scheduler.lasting_covered fun _ _ => cycled_concat.mp) ?_
  refine ⟨.start run, along_nil, fun _ hcycled => ?_⟩
  obtain ⟨m, hm, -⟩ := hcycled
  cases hm

end ActorNet
