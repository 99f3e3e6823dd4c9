import ActorNet.Proofs.Activity
import ActorNet.Proofs.Counters
import ActorNet.Proofs.Interleaving

set_option autoImplicit false

/-!
# The balance of heartbeats

A heartbeat that has been armed has come due, or a later cycle has taken it away, or it is still armed. With as many
events as a counter can hold, the counters of a scheduler are the numbers of what has happened.
-/
namespace ActorNet

variable {σ : Type}

def Moment.arms (m : Moment σ) : Bool := m.report?.any (·.next = .heartbeat)

/-- A cycle closes, and a heartbeat that was armed before is pending no longer. -/
def Moment.cancels (m : Moment σ) : Bool :=
  m.report?.isSome && m.before.isHeartbeatArmed && !m.after.isPending m.before.heartbeat

theorem Moment.Aside.arms {m : Moment σ} (h : m.Aside) : m.arms = false := by
  rw [Moment.arms, h.report]
  rfl

theorem Moment.Aside.cancels {m : Moment σ} (h : m.Aside) : m.cancels = false := by
  rw [Moment.cancels, h.report]
  rfl

namespace Scheduler

variable {s s' : Scheduler σ} {past past' : List (Moment σ)}

theorem Booked.armed (h : s.Booked past) : s.isHeartbeatArmed = s.heartbeat.isSome := by
  rw [Bool.eq_iff_iff, isHeartbeatArmed_iff, Option.isSome_iff_exists]
  refine exists_congr fun id => and_iff_left_of_imp fun hid => ?_
  exact (Std.ExtTreeMap.getElem?_eq_some_iff.mp ((h.heartbeat id).mpr hid)).1

theorem Booked.outlasts (h : s.Booked past) (h' : s'.Booked past') (onward : s.Onward s') (sound : s.timers.Sound) :
    s'.isPending s.heartbeat = (s.heartbeat.isSome && decide (s'.heartbeat = s.heartbeat)) := by
  rw [Bool.eq_iff_iff, isPending_iff, Bool.and_eq_true, decide_eq_true_iff]
  constructor
  · rintro ⟨id, hid, hmem⟩
    have hbefore := (h.heartbeat id).mpr hid
    have hold := sound.number_lt (Std.ExtTreeMap.getElem?_eq_some_iff.mp hbefore).1
    -- No number is given out twice, so that what is pending under an old one is what was pending under it.
    have hpending := Std.ExtTreeMap.getElem?_eq_some_getElem hmem
    have hafter : s'.timers.pending[id]? = some .heartbeat :=
      hpending.trans ((onward.timers.payload id hold _ hpending).symm.trans hbefore)
    rw [hid]
    exact ⟨rfl, (h'.heartbeat id).mp hafter⟩
  · rintro ⟨hsome, hsame⟩
    obtain ⟨id, hid⟩ := Option.isSome_iff_exists.mp hsome
    exact ⟨id, hid, (Std.ExtTreeMap.getElem?_eq_some_iff.mp ((h'.heartbeat id).mpr (hsame.trans hid))).1⟩

theorem swept_heartbeat (s : Scheduler σ) (all : Bool) : (s.swept all).heartbeat = s.heartbeat := by
  obtain ⟨registry, stats, hframe⟩ := s.swept_frame all
  rw [hframe, s.takePending_taken.frame]
  rfl

def heartbeatUpon (s : Scheduler σ) : NextCycle → Option TimerId
  | .stopped => s.heartbeat
  | .immediate => none
  | .heartbeat => some s.nextTimer

theorem Followed.heartbeat {result : FiringResult} {active : Bool} {next : NextCycle}
    (h : s.Followed result active next s') : s'.heartbeat = s.heartbeatUpon next := by
  obtain ⟨heartbeats, hcancelled⟩ := s.cancelHeartbeat_frame
  cases h with
  | stopped => rfl
  | fired =>
    obtain ⟨timers, immediate, immediateSweep, hframe⟩ :=
      (s.cancelHeartbeat.gather result.affected).scheduleImmediate_frame false
    rw [hframe, gather, hcancelled]
    rfl
  | active =>
    obtain ⟨timers, hframe⟩ := s.cancelHeartbeat.renewImmediate_frame true
    rw [hframe, hcancelled]
    rfl
  | quiet =>
    have hnumber : s.cancelHeartbeat.nextTimer = s.nextTimer := congrArg TimerId.mk (s.cancel_nextNumber s.heartbeat)
    rw [armHeartbeat_eq, heartbeatUpon, ← hnumber]
    rfl

theorem Booked.fresh_heartbeat (h : s.Booked past) (sound : s.timers.Sound) : s.heartbeat ≠ some s.nextTimer := by
  intro hheartbeat
  have hpending := (h.heartbeat s.nextTimer).mpr hheartbeat
  rw [nextTimer_pending sound] at hpending
  cases hpending

/-- What a cycle takes away and what it leaves are what it has found and what it has armed. -/
theorem closeCycle_exchange (h : s.Booked past) (sound : s.timers.Sound) (cycle : Nat) (all active : Bool) :
    s.heartbeat.isSome.toNat + (decide ((s.closeCycle cycle all active).2.next = .heartbeat)).toNat =
      (s.isHeartbeatArmed && !(s.closeCycle cycle all active).1.isPending s.heartbeat).toNat +
        (s.closeCycle cycle all active).1.heartbeat.isSome.toNat := by
  have hclosed := Booked.kept.closed cycle all active h sound
  have houtlasts := h.outlasts hclosed (closeCycle_onward sound cycle all active) sound
  have hfollowed := (s.closeCycle_followed cycle all active).heartbeat
  have hfresh := (h.swept all).fresh_heartbeat (swept_sound sound all)
  rw [s.swept_heartbeat all] at hfresh
  rw [h.armed, houtlasts, hfollowed]
  cases (s.closeCycle cycle all active).2.next with
  | stopped =>
    rw [heartbeatUpon, s.swept_heartbeat all]
    simp
  | immediate => cases s.heartbeat <;> rfl
  -- The one that is armed is another timer, so that the old one counts as taken away although there is one again.
  | heartbeat =>
    rw [heartbeatUpon, decide_eq_false (Ne.symm hfresh)]
    simp

end Scheduler

/-- The heartbeats that have been armed are those that have come due, those taken away, and the one that stands. -/
structure Balanced (past : List (Moment σ)) (s : Scheduler σ) : Prop where
  booked : s.Booked past
  balance : past.countP Moment.arms =
    past.countP Moment.beats + past.countP Moment.cancels + s.heartbeat.isSome.toNat

namespace Balanced

variable {past : List (Moment σ)} {s s' : Scheduler σ}

theorem concat (h : Balanced past s) {m : Moment σ} (booked : s'.Booked (past ++ [m]))
    (even : s.heartbeat.isSome.toNat + m.arms.toNat =
      m.beats.toNat + m.cancels.toNat + s'.heartbeat.isSome.toNat) : Balanced (past ++ [m]) s' where
  booked := booked
  balance := by
    have hone : ∀ p : Moment σ → Bool, (past ++ [m]).countP p = past.countP p + (p m).toNat := by
      intro p
      cases hm : p m <;> simp [hm]
    have hbalance := h.balance
    rw [hone, hone, hone]
    omega

theorem aside (h : Balanced past s) {m : Moment σ} (booked : s'.Booked (past ++ [m])) (aside : m.Aside)
    (same : s'.heartbeat = s.heartbeat) : Balanced (past ++ [m]) s' := by
  refine h.concat booked ?_
  rw [aside.arms, aside.beats, aside.cancels, same]
  exact Nat.add_comm _ _

theorem obeyed (h : Balanced past s) (sound : s.timers.Sound) {command : Command} (obeyed : s.Obeyed command s') :
    Balanced (past ++ [⟨s, .obeyed command, s'⟩]) s' := by
  obtain ⟨timers, pending, unaddressed, immediate, immediateSweep, done, stats, hframe⟩ := obeyed.eq
  exact h.aside (h.booked.obeyed sound obeyed) ⟨rfl, rfl⟩ (by rw [hframe])

theorem fired (h : Balanced past s) (only : Option ActorSet) (ids : List ActorId) (state : Scheduler σ × Sweep) :
    Balanced (past ++ Scheduler.firingEach only ids state) s where
  booked := h.booked.fired only ids state
  balance := by
    have hnone : ∀ p : Moment σ → Bool, (∀ m : Moment σ, m.Aside → p m = false) →
        (past ++ Scheduler.firingEach only ids state).countP p = past.countP p := by
      intro p hp
      rw [List.countP_append, Nat.add_eq_left, List.countP_eq_zero]
      exact fun m hm => Bool.eq_false_iff.mp (hp m (Scheduler.firingEach_aside m hm))
    rw [hnone _ fun _ => Moment.Aside.arms, hnone _ fun _ => Moment.Aside.beats, hnone _ fun _ => Moment.Aside.cancels]
    exact h.balance

theorem kept : Kept fun _ (past : List (Moment σ)) (s : Scheduler σ) => Balanced past s where
  quiet h quiet := by
    refine ⟨h.booked.quiet quiet, ?_⟩
    rw [quiet.eq]
    exact h.balance
  obeyed _ h sound := h.obeyed sound
  lapsed h sound := h.obeyed sound
  begun {past s} h sound running none := by
    obtain ⟨timers, hframe⟩ := s.renewImmediate_frame true
    exact h.aside (Scheduler.Booked.kept.begun h.booked sound running none) ⟨rfl, rfl⟩ (by rw [hframe])
  operated operation h := h.aside (Scheduler.Booked.kept.operated operation h.booked) ⟨rfl, rfl⟩ rfl
  expired {past s timers id wakeup} h sound running expires := by
    have hbooked := Scheduler.Booked.kept.expired h.booked sound running expires
    cases wakeup with
    | cycle | halt => exact h.aside hbooked ⟨rfl, rfl⟩ rfl
    | heartbeat =>
      have hrecorded : s.heartbeat = some id := (h.booked.heartbeat id).mp expires.payload
      exact h.concat hbooked (by rw [hrecorded]; rfl)
  entered := id
  opened all h := h.aside (Scheduler.Booked.kept.opened all h.booked) ⟨rfl, rfl⟩ rfl
  closed {past s} cycle all active h sound := by
    have hbooked := Scheduler.Booked.kept.closed cycle all active h.booked sound
    have hexchange := Scheduler.closeCycle_exchange h.booked sound cycle all active
    rw [Scheduler.closing, ← List.append_assoc] at hbooked ⊢
    refine (h.fired _ _ _).concat hbooked (hexchange.trans ?_)
    exact congrArg (· + _) (Nat.zero_add _).symm

theorem start (run : Run σ) : Balanced [] run.start where
  booked := .start run
  balance := rfl

end Balanced

theorem countUp_iterate {n a : Nat} (h : a + n ≤ wordMax) : countUp^[n] a = a + n := by
  induction n with
  | zero => rfl
  | succ n ih =>
    rw [Function.iterate_succ_apply', ih (Nat.le_of_succ_le h)]
    exact countUp_of_lt h

theorem iterate_countUp {n : Nat} (h : n ≤ wordMax) : List.iterate countUp 1 n = List.range' 1 n := by
  rw [← List.range_map_iterate, List.range'_eq_map_range]
  refine List.map_congr_left fun k hk => countUp_iterate ?_
  have hlt := List.mem_range.mp hk
  omega

namespace Run

variable (run : Run σ)

def reports : List CycleReport := reportsOf run.outcomes

/-- The counters of a scheduler are the numbers of what has happened, and what has happened is what callers are told. -/
structure Reckoned : Prop where
  answers : ∃ shares : List (List Step), shares.flatten = run.outcomes ∧
    List.Forall₂ (·.value.2.Tells ·) (run.start.conversation run.calls) shares
  numbers : run.reports.map (·.cycle) = List.range' 1 run.reports.length
  cycles : run.state.stats.cycles = run.reports.length
  fullSweeps : run.state.stats.fullSweeps = run.reports.countP (·.all)
  firingCycles : run.state.stats.firingCycles = run.reports.countP (·.result.didFire)
  fireErrors : run.state.stats.fireErrors = (run.reports.map (·.failed.length)).sum
  calls : run.state.stats.fireErrors = (run.journal.filterMap Entry.fireError?).length
  heartbeatsArmed : run.state.stats.heartbeatsArmed = run.reports.countP (·.next = .heartbeat)
  heartbeatsExpired : run.state.stats.heartbeatsExpired = run.outcomes.count .heartbeat
  balance : run.state.stats.heartbeatsArmed =
    run.state.stats.heartbeatsExpired + run.history.countP Moment.cancels + if run.state.isHeartbeatArmed then 1 else 0

theorem heartbeats_balanced :
    run.reports.countP (·.next = .heartbeat) =
      run.outcomes.count .heartbeat + run.history.countP Moment.cancels +
        if run.state.isHeartbeatArmed then 1 else 0 := by
  obtain ⟨booked, balance⟩ := (run.invariant Balanced.kept (.start run)).1
  have harms : ∀ m : Moment σ, (m.report?.map (decide <| ·.next = .heartbeat)).getD false = m.arms := by
    intro m
    rw [Moment.arms]
    cases m.report? <;> rfl
  rw [booked.armed, reports, ← run.stretch.reports, ← run.stretch.beats, List.countP_filterMap]
  simp only [harms]
  refine balance.trans (congrArg (Nat.add _) ?_)
  cases run.state.heartbeat <;> rfl

/-- In every run with fewer than 2^64 cycles and fewer than 2^64 failures the counters agree with what has happened. -/
theorem counters_reckoned (cycles : run.reports.length < 2 ^ 64)
    (failures : (run.reports.map (·.failed.length)).sum < 2 ^ 64) : run.Reckoned := by
  have hcounted := run.stretch.counted
  have hbalance := run.heartbeats_balanced
  have hcycles : run.reports.length ≤ wordMax := Nat.le_of_lt_succ cycles
  have hreading : ∀ {n : Nat}, n ≤ wordMax → countUp^[n] 0 = n := fun h =>
    (countUp_iterate ((Nat.zero_add _).trans_le h)).trans (Nat.zero_add _)
  have hsome : ∀ p : CycleReport → Bool, countUp^[run.reports.countP p] 0 = run.reports.countP p :=
    fun p => hreading (List.countP_le_length.trans hcycles)
  have harmed := hcounted.heartbeatsArmed.trans (hsome _)
  have hexpired : run.state.stats.heartbeatsExpired = run.outcomes.count .heartbeat := by
    -- No more heartbeats come due than are armed, and no more are armed than there are cycles.
    refine hcounted.heartbeatsExpired.trans (hreading ?_)
    have hle : run.reports.countP (·.next = .heartbeat) ≤ run.reports.length := List.countP_le_length
    omega
  have herrors := hcounted.fireErrors.trans (hreading (Nat.le_of_lt_succ failures))
  exact
    { answers := run.start.conversation_tells run.calls
      numbers := hcounted.numbers.trans (iterate_countUp hcycles)
      cycles := hcounted.cycles.trans (hreading hcycles)
      fullSweeps := hcounted.fullSweeps.trans (hsome _)
      firingCycles := hcounted.firingCycles.trans (hsome _)
      fireErrors := herrors
      calls := herrors.trans run.stretch.calls.symm
      heartbeatsArmed := harmed
      heartbeatsExpired := hexpired
      balance := by
        rw [harmed, hexpired]
        exact hbalance }

end Run

def stumbler : ActorType Nat where
  name := "stumbler"
  inputs := []
  outputs := []
  actions := [{ pulse with name := "stumble", body := fun left _ => (left - 1, .error (.failed "stumbled")) }]
  handler := none
  hooks := .none
  valid := by
    refine ⟨nofun, List.nodup_nil, List.nodup_singleton _, ?_⟩
    simp [Declaration.Accepts, pulse]

/-- A firing fails; of three heartbeats one comes due, a cycle takes away another, and the last one stands. -/
def stumbling : Run Nat := { pulsing with
  setup := [.edit (.add (.new ⟨"a"⟩ stumbler 1)) (Actor.fits_new _ _ _)]
  calls := [.loopOnce true, .tick (Instant.origin.after (.ofMillis 1000)), .step, .step, .loopOnce true] }

theorem Run.counters_reckoned_stumbling :
    stumbling.reports.length < 2 ^ 64 ∧ (stumbling.reports.map (·.failed.length)).sum < 2 ^ 64 ∧ stumbling.Reckoned ∧
      stumbling.state.stats =
        { cycles := 3, fullSweeps := 3, fireErrors := 1, heartbeatsArmed := 3, heartbeatsExpired := 1 } ∧
      stumbling.history.countP Moment.cancels = 1 ∧ stumbling.state.isHeartbeatArmed = true := by
  have hcycles : stumbling.reports.length < 2 ^ 64 := by decide +kernel
  have hfailures : (stumbling.reports.map (·.failed.length)).sum < 2 ^ 64 := by decide +kernel
  exact ⟨hcycles, hfailures, Run.counters_reckoned stumbling hcycles hfailures, by decide +kernel, by decide +kernel,
    by decide +kernel⟩

end ActorNet
