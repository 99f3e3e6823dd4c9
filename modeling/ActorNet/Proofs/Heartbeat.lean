import ActorNet.Proofs.Activity
import ActorNet.Proofs.Rest
import ActorNet.Proofs.Vigilance

set_option autoImplicit false

/-!
# The heartbeat of a quiet system

When nobody has anything to do and nobody asks for anything, all that is left is the heartbeat. It stands by until its
deadline, asks for a full sweep then, and the sweep finds nothing to do and arms it anew. So sweeps come at regular
intervals for ever, and nothing else goes on but the clock, the timers and the counts.
-/
namespace ActorNet

variable {σ : Type}

namespace Scheduler

variable {s : Scheduler σ}

/-- The heartbeat is armed for the deadline, and no other timer is pending. -/
structure Standing (s : Scheduler σ) (deadline : Instant) : Prop where
  armed : s.isHeartbeatArmed = true
  payloads : s.timers.payloads = [.heartbeat]
  deadline : s.timers.nextDeadline.1 = some deadline

/-- The next step runs a full sweep in which nothing happens, and arms the heartbeat for one interval later. -/
def Sweeps (s : Scheduler σ) : Prop :=
  ∃ report deadline, s.step.value.2 = .cycle report ∧ report.Uneventful s.registry.enabled ∧
    s.Undisturbed s.step.value.1 ∧ s.step.value.1.Standing deadline ∧
      ∀ t, s.now.add? s.config.heartbeat = some t → deadline = t

theorem Armed.standing {deadline : Instant} (h : s.Armed deadline) : s.Standing deadline := by
  obtain ⟨id, honly, hid⟩ := h
  refine ⟨?_, honly.payloads, honly.nextDeadline⟩
  rw [isHeartbeatArmed, hid]
  exact honly.isPending

/-- A scheduler at rest in which the heartbeat goes on. -/
structure Beating (s : Scheduler σ) : Prop where
  resting : s.Resting
  phase : (∃ deadline, s.Armed deadline) ∨ s.Asked

namespace Beating

variable (h : s.Beating) {deadline : Instant}

include h

theorem armed (standing : s.Standing deadline) : s.Armed deadline := by
  obtain ⟨other, harmed⟩ | ⟨due, id, honly, -⟩ := h.phase
  · have hsame := standing.deadline.symm.trans harmed.standing.deadline
    rwa [Option.some.inj hsame]
  · have hpayloads := standing.payloads.symm.trans honly.payloads
    cases hpayloads

theorem step_early (standing : s.Standing deadline) (early : s.now < deadline) :
    s.step.value.2 = .nothing ∧ s.step.value.1.Armed deadline ∧ s.Undisturbed s.step.value.1 := by
  have harmed := h.armed standing
  obtain ⟨timers, hstep, hsame⟩ := h.resting.step_early harmed early
  obtain ⟨id, honly, hid⟩ := harmed
  rw [hstep]
  exact ⟨rfl, ⟨id, honly.same hsame, hid⟩, rfl, Nat.le_refl _⟩

theorem step_due (standing : s.Standing deadline) (due : deadline ≤ s.now) :
    s.step.value.2 = .heartbeat ∧ s.step.value.1.Asked ∧ s.Undisturbed s.step.value.1 ∧ s.step.value.1.now = s.now := by
  obtain ⟨timers, hstep, hvacant⟩ := h.resting.step_due (h.armed standing) due
  obtain ⟨renewed, hframe⟩ := (s.expire timers .heartbeat).renewImmediate_frame true
  have hasked : ((s.expire timers .heartbeat).renewImmediate true).Asked := renewImmediate_asked hvacant
  rw [hstep]
  refine ⟨rfl, hasked, ?_⟩
  rw [hframe]
  exact ⟨⟨rfl, Nat.le_refl _⟩, rfl⟩

theorem step_asked (asked : s.Asked) :
    s.Sweeps ∧ s.step.value.1.Armed (s.now.after s.config.heartbeat) ∧ s.Undisturbed s.step.value.1 ∧
      s.step.value.1.now = s.now := by
  obtain ⟨timers, hafter, hreport, hvacant⟩ := h.resting.step_asked asked
  have hsame : s.Undisturbed { s with timers } := ⟨rfl, Nat.le_refl _⟩
  obtain ⟨hlater, hnow, harmed, huneventful⟩ := (h.resting.undisturbed hsame).loopOnce_idle hvacant
  rw [← hafter] at hlater hnow harmed
  refine ⟨⟨_, _, hreport, huneventful, hsame.trans hlater, harmed.standing, fun t ht => ?_⟩, harmed,
    hsame.trans hlater, hnow⟩
  rw [Instant.after, ht]
  rfl

theorem step : s.step.value.1.Beating ∧ s.Undisturbed s.step.value.1 := by
  obtain ⟨deadline, harmed⟩ | hasked := h.phase
  · by_cases hearly : s.now < deadline
    · obtain ⟨-, hafter, hsame⟩ := h.step_early harmed.standing hearly
      exact ⟨⟨h.resting.undisturbed hsame, .inl ⟨_, hafter⟩⟩, hsame⟩
    · obtain ⟨-, hafter, hsame, -⟩ := h.step_due harmed.standing (Nat.le_of_not_lt hearly)
      exact ⟨⟨h.resting.undisturbed hsame, .inr hafter⟩, hsame⟩
  · obtain ⟨-, hafter, hsame, -⟩ := h.step_asked hasked
    exact ⟨⟨h.resting.undisturbed hsame, .inl ⟨_, hafter⟩⟩, hsame⟩

theorem later {now : Instant} (later : s.now ≤ now) :
    ({ s with now } : Scheduler σ).Beating ∧ s.Undisturbed { s with now } := by
  have hsame : s.Undisturbed { s with now } := ⟨rfl, Nat.le_refl _⟩
  refine ⟨⟨h.resting.undisturbed hsame, h.phase.imp id ?_⟩, hsame⟩
  rintro ⟨deadline, id, honly, hdue⟩
  exact ⟨deadline, id, honly, Nat.le_trans hdue later⟩

end Beating

end Scheduler

def Call.Passive : Call σ → Prop
  | .tick _ | .step => True
  | _ => False

namespace Scheduler

variable {s : Scheduler σ}

theorem Beating.perform (h : s.Beating) {call : Call σ} (passive : call.Passive) :
    (s.perform call).Beating ∧ s.Undisturbed (s.perform call) := by
  cases call with
  | step => exact h.step
  | tick time =>
    unfold Scheduler.perform
    dsimp only
    split
    case isTrue hlater => exact h.later hlater
    case isFalse => exact ⟨h, .refl s⟩
  | _ => cases passive

theorem Beating.performAll (h : s.Beating) {calls : List (Call σ)} (passive : ∀ call ∈ calls, call.Passive) :
    (s.performAll calls).Beating ∧ s.Undisturbed (s.performAll calls) := by
  induction calls generalizing s with
  | nil => exact ⟨h, .refl s⟩
  | cons call calls ih =>
    obtain ⟨hfirst, hrest⟩ := List.forall_mem_cons.mp passive
    obtain ⟨hbeating, hsame⟩ := h.perform hfirst
    exact (ih hbeating hrest).imp_right hsame.trans

theorem Asked.performAll_tick (h : s.Asked) (times : List Instant) : (s.performAll (times.map .tick)).Asked := by
  induction times generalizing s with
  | nil => exact h
  | cons time times ih =>
    refine ih ?_
    unfold Scheduler.perform
    dsimp only
    split
    case isTrue hlater =>
      obtain ⟨deadline, id, honly, hdue⟩ := h
      exact ⟨deadline, id, honly, Nat.le_trans hdue hlater⟩
    case isFalse => exact h

def awaitDeadline (s : Scheduler σ) : Scheduler σ :=
  match s.timers.nextDeadline with
  | (some deadline, timers) => ({ s with timers } : Scheduler σ).perform (.tick deadline)
  | (none, timers) => { s with timers }

def round (s : Scheduler σ) : Scheduler σ := s.awaitDeadline.step.value.1.step.value.1

/-- A round at the given time: the heartbeat expires, and a full sweep follows at once. -/
structure Rounds (s : Scheduler σ) (time : Instant) : Prop where
  standing : s.Standing time
  heartbeat : s.awaitDeadline.now = time ∧ s.awaitDeadline.step.value.2 = .heartbeat
  sweep : s.awaitDeadline.step.value.1.now = time ∧ s.awaitDeadline.step.value.1.Sweeps

theorem Beating.awaitDeadline (h : s.Beating) {deadline : Instant} (armed : s.Armed deadline)
    (early : s.now ≤ deadline) :
    s.awaitDeadline.Beating ∧ s.awaitDeadline.Armed deadline ∧ s.Undisturbed s.awaitDeadline ∧
      s.awaitDeadline.now = deadline := by
  obtain ⟨id, honly, hid⟩ := armed
  have hwaiting : s.awaitDeadline = { s with timers := s.timers.nextDeadline.2, now := deadline } := by
    unfold Scheduler.awaitDeadline
    rw [show s.timers.nextDeadline = (some deadline, s.timers.nextDeadline.2) from Prod.ext honly.nextDeadline rfl]
    exact if_pos early
  have honly' := honly.same s.timers.same_nextDeadline
  have hsame : s.Undisturbed { s with timers := s.timers.nextDeadline.2, now := deadline } := ⟨rfl, Nat.le_refl _⟩
  rw [hwaiting]
  exact ⟨⟨h.resting.undisturbed hsame, .inl ⟨deadline, id, honly', hid⟩⟩, ⟨id, honly', hid⟩, hsame, rfl⟩

theorem Beating.goes_round (h : s.Beating) {deadline : Instant} (armed : s.Armed deadline) (early : s.now ≤ deadline) :
    s.Rounds deadline ∧ s.round.Beating ∧ s.round.Armed (deadline.after s.config.heartbeat) ∧ s.Undisturbed s.round ∧
      s.round.now = deadline := by
  obtain ⟨hwaiting, harmed, hsame, hnow⟩ := h.awaitDeadline armed early
  have hdue : deadline ≤ s.awaitDeadline.now := by
    rw [hnow]
    exact Nat.le_refl _
  obtain ⟨hheartbeat, hasked, hlapsed, hstill⟩ := hwaiting.step_due harmed.standing hdue
  have hstill := hstill.trans hnow
  have hlapses := hwaiting.step.1
  obtain ⟨hsweeps, hafter, hswept, hend⟩ := hlapses.step_asked hasked
  have hconfig : s.awaitDeadline.step.value.1.config = s.config := by
    rw [(hsame.trans hlapsed).eq]
  rw [hstill, hconfig] at hafter
  exact ⟨⟨armed.standing, ⟨hnow, hheartbeat⟩, ⟨hstill, hsweeps⟩⟩, hlapses.step.1, hafter,
    (hsame.trans hlapsed).trans hswept, hend.trans hstill⟩

theorem Beating.iterate_round (h : s.Beating) {deadline : Instant} (armed : s.Armed deadline) (early : s.now ≤ deadline)
    (n : Nat) (fits : deadline.nanos + n * s.config.heartbeat.nanos < Instant.limit) :
    (round^[n] s).Beating ∧ (round^[n] s).Armed ⟨deadline.nanos + n * s.config.heartbeat.nanos⟩ ∧
      s.Undisturbed (round^[n] s) ∧ (round^[n] s).now ≤ ⟨deadline.nanos + n * s.config.heartbeat.nanos⟩ := by
  induction n with
  | zero =>
    rw [Nat.zero_mul, Nat.add_zero]
    exact ⟨h, armed, .refl s, early⟩
  | succ n ih =>
    rw [Nat.succ_mul, ← Nat.add_assoc] at fits ⊢
    obtain ⟨hbeating, harmed, hsame, hearly⟩ := ih (by omega)
    obtain ⟨-, hnext, hafter, hround, hnow⟩ := hbeating.goes_round harmed hearly
    have hconfig : (round^[n] s).config = s.config := by
      rw [hsame.eq]
    have hlater : (⟨deadline.nanos + n * s.config.heartbeat.nanos⟩ : Instant).after s.config.heartbeat =
        ⟨deadline.nanos + n * s.config.heartbeat.nanos + s.config.heartbeat.nanos⟩ := by
      simp [Instant.after, Instant.add?, fits]
    rw [hconfig, hlater] at hafter
    rw [Function.iterate_succ_apply']
    refine ⟨hnext, hafter, hsame.trans hround, ?_⟩
    rw [hnow]
    exact Nat.le_add_right _ _

/-- How a quiet system goes on while nothing happens but time and steps. -/
structure Quiescent (start s : Scheduler σ) : Prop where
  undisturbed : start.Undisturbed s
  phase : (∃ deadline, s.Standing deadline) ∨ s.Sweeps
  early : ∀ deadline, s.Standing deadline → s.now < deadline →
    s.step.value.2 = .nothing ∧ s.step.value.1.Standing deadline
  due : ∀ deadline, s.Standing deadline → deadline ≤ s.now →
    s.step.value.2 = .heartbeat ∧ ∀ times : List Instant, (s.step.value.1.performAll (times.map .tick)).Sweeps
  rounds : ∀ deadline, s.Standing deadline → s.now ≤ deadline → ∀ n : Nat,
    deadline.nanos + n * s.config.heartbeat.nanos < Instant.limit →
      s.Undisturbed (round^[n] s) ∧ (round^[n] s).Rounds ⟨deadline.nanos + n * s.config.heartbeat.nanos⟩

theorem Beating.quiescent {start : Scheduler σ} (h : s.Beating) (undisturbed : start.Undisturbed s) :
    Quiescent start s where
  undisturbed := undisturbed
  phase := h.phase.imp (fun ⟨deadline, harmed⟩ => ⟨deadline, harmed.standing⟩) fun hasked => (h.step_asked hasked).1
  early deadline standing hearly := by
    obtain ⟨hnothing, harmed, -⟩ := h.step_early standing hearly
    exact ⟨hnothing, harmed.standing⟩
  due deadline standing hdue := by
    obtain ⟨hheartbeat, hasked, -⟩ := h.step_due standing hdue
    refine ⟨hheartbeat, fun times => ?_⟩
    have hpassive : ∀ call ∈ times.map (Call.tick (σ := σ)), call.Passive := by
      intro call hcall
      obtain ⟨time, -, rfl⟩ := List.mem_map.mp hcall
      trivial
    exact ((h.step.1.performAll hpassive).1.step_asked (hasked.performAll_tick times)).1
  rounds deadline standing hearly n fits := by
    obtain ⟨hbeating, harmed, hsame, hbefore⟩ := h.iterate_round (h.armed standing) hearly n fits
    exact ⟨hsame, (hbeating.goes_round harmed hbefore).1⟩

theorem kept_registry {P : Registry σ → Prop} (operated : ∀ r operation, P r → P (r.operate operation)) :
    Kept fun _ _ (s : Scheduler σ) => P s.registry where
  quiet h quiet := by rwa [quiet.eq]
  obeyed _ h _ obeyed := by rwa [obeyed.frame.1]
  lapsed h _ obeyed := by rwa [obeyed.frame.1]
  begun {past s} h _ _ _ := by
    obtain ⟨timers, hframe⟩ := s.renewImmediate_frame true
    rwa [hframe]
  operated operation h := operated _ operation h
  expired {past s timers id wakeup} h _ _ _ := by
    obtain ⟨stats, hframe⟩ := s.expire_frame timers wakeup
    rwa [hframe]
  entered := id
  opened _ h := h
  closed {past s} cycle all active h _ := by
    rw [s.closeCycle_registry, (s.sweepActors_volley all).1]
    exact List.foldlRecOn _ _ h fun r hr operation _ => operated r operation hr

theorem quiet_last {past : List (Moment σ)} {last m : Moment σ} (h : (past ++ [last]).getLast? = some m) :
    m.after.Quiet last.after := by
  rw [List.getLast?_concat] at h
  cases h
  exact .inbox _ _

/-- Nothing has taken effect since the last moment. -/
def Current (past : List (Moment σ)) (s : Scheduler σ) : Prop := ∀ m, past.getLast? = some m → m.after.Quiet s

theorem kept_current : Kept fun _ past (s : Scheduler σ) => Current past s where
  quiet h quiet m hm := (h m hm).trans quiet
  obeyed _ _ _ _ _ hm := quiet_last hm
  lapsed _ _ _ _ hm := quiet_last hm
  begun _ _ _ _ _ hm := quiet_last hm
  operated _ _ _ hm := quiet_last hm
  expired _ _ _ _ _ hm := quiet_last hm
  entered := id
  opened _ _ _ hm := quiet_last hm
  closed cycle all active _ _ m hm := by
    rw [closing, ← List.append_assoc] at hm
    exact quiet_last hm

end Scheduler

/-- A run that has come to rest: it ends with a cycle that has touched all enabled actors, to each of which nothing was
left to do when it was fired, and nobody is going to ask for anything. -/
structure Run.Settled (run : Run σ) (past : List (Moment σ)) (m : Moment σ) (report : CycleReport) : Prop where
  history : run.history = past ++ [m]
  cycled : m.mark = .cycled report
  full : ∀ id ∈ m.before.registry.enabled, id ∈ report.touched
  idle : ∀ f ∈ m.before.registry.volley report.touched, f.before.eligible f.id = false
  running : run.state.done = false
  scheduled : run.state.scheduledCycles = 0
  inbox : run.state.inbox = []
  silent : ∀ polls, run.state.polls ≤ polls → run.state.monitor polls = {}

namespace Run.Settled

variable {run : Run σ} {past : List (Moment σ)} {m : Moment σ} {report : CycleReport} (h : run.Settled past m report)

include h

theorem quiet : m.after.Quiet run.state := by
  have hstart : Scheduler.Current [] run.start := by
    rintro last ⟨⟩
  apply (run.invariant Scheduler.kept_current hstart).1
  rw [h.history, List.getLast?_concat]

theorem no_cycles : run.state.hasImmediateCycle = false ∧ delayedSweeps run.history = [] := by
  have hcycles := run.vigilant.1.booked.scheduledCycles_eq
  rw [h.scheduled] at hcycles
  obtain ⟨hnone, himmediate⟩ := Nat.add_eq_zero_iff.mp hcycles.symm
  refine ⟨eq_false_of_ne_true fun hhas => ?_, List.length_eq_zero_iff.mp hnone⟩
  rw [if_pos hhas] at himmediate
  cases himmediate

theorem decided : report.next = .heartbeat ∧ Scheduler.Decided past m report := by
  have hdecided := run.vigilant.1.decided _ _ _ h.history report h.cycled
  have hrunning : ¬Stopped past := fun hstopped => by
    have hdone := run.vigilant.1.booked.stopped.mpr (h.history ▸ stopped_concat.mpr (.inl hstopped))
    rw [h.running] at hdone
    cases hdone
  have hnext := hdecided.next hrunning
  refine ⟨?_, hdecided⟩
  split at hnext
  case isTrue =>
    have himmediate := (hdecided.immediate hnext).1
    obtain ⟨id, hid, hmem⟩ := m.after.hasImmediateCycle_iff.mp himmediate
    have hstill : run.state.hasImmediateCycle = true := by
      rw [Scheduler.hasImmediateCycle_iff, h.quiet.timers.pending, h.quiet.eq]
      exact ⟨id, hid, hmem⟩
    rw [h.no_cycles.1] at hstill
    cases hstill
  case isFalse => exact hnext

theorem armed : ∃ deadline, run.state.Armed deadline ∧
    ∀ t, m.before.now.add? m.before.config.heartbeat = some t → deadline = t := by
  have hbooked := run.vigilant.1.booked
  obtain ⟨-, -, id, due, hid, hlive, hdue⟩ := h.decided.2.heartbeat h.decided.1
  have hheartbeat : run.state.heartbeat = some id := by
    rw [h.quiet.eq]
    exact hid
  obtain ⟨himmediate, hdelayed⟩ := h.no_cycles
  -- Every pending timer is in the books, and they have neither a cycle nor a halt.
  have hpending : ∀ other kept, run.state.timers.pending[other]? = some kept ↔ other = id ∧ kept = .heartbeat := by
    intro other kept
    refine ⟨fun hother => ?_, ?_⟩
    · cases kept with
      | cycle all =>
        have hcycle := (hbooked.cycle_iff other all).mp hother
        rw [hdelayed, himmediate] at hcycle
        simp at hcycle
      | heartbeat =>
        have hsame := ((hbooked.heartbeat other).mp hother).symm.trans hheartbeat
        exact ⟨Option.some.inj hsame, rfl⟩
      | halt =>
        obtain ⟨halt, hhalt⟩ := hbooked.halt
        have hdone := ((hhalt other).mp hother).1
        rw [h.running] at hdone
        cases hdone
    · rintro ⟨rfl, rfl⟩
      exact (hbooked.heartbeat other).mpr hheartbeat
  obtain ⟨deadline, honly⟩ := TimerQueue.Sound.only run.vigilant.2 hpending
  refine ⟨deadline, ⟨id, honly, hheartbeat⟩, ?_⟩
  rw [← h.quiet.timers.live, honly.live, List.mem_singleton] at hlive
  rwa [← (Prod.mk.inj hlive).1]

theorem registry_idle : run.state.registry.ids.Nodup ∧
    ∀ id ∈ run.state.registry.enabled, run.state.registry.eligible id = false := by
  have kept : Kept fun _ _ (s : Scheduler σ) => s.registry.ids.Nodup :=
    Scheduler.kept_registry (P := (·.ids.Nodup)) fun _ operation distinct =>
      Registry.after_distinct distinct [operation]
  have hstart := Registry.after_distinct (r := Registry.empty (σ := σ)) List.nodup_nil run.setup
  obtain ⟨-, -, hdistinct⟩ := run.recalled kept hstart h.history (by simp [h.cycled])
  have hclosed := (run.genuine _ _ _ h.history).cycled report h.cycled
  have hdue := (m.before.closeCycle_volley report.cycle report.all report.monitorActivity).1
  have hafter := m.before.closeCycle_registry report.cycle report.all report.monitorActivity
  rw [hclosed] at hdue hafter
  obtain ⟨hsame, hidle⟩ := Registry.fireAll_idle hdistinct h.idle
  rw [(m.before.sweepActors_volley report.all).1, ← hdue, hsame] at hafter
  have hstate : run.state.registry = m.before.registry := by
    rw [h.quiet.eq]
    exact hafter
  rw [hstate]
  exact ⟨hdistinct, fun id hid => hidle id (h.full id hid)⟩

theorem resting : run.state.Resting := by
  have hfollowed := (run.genuine _ _ _ h.history).followed h.cycled
  obtain ⟨hdistinct, hidle⟩ := h.registry_idle
  have hpending : m.after.pending = ∅ ∧ m.after.unaddressed = false := by
    refine ⟨?_, hfollowed.unaddressed.trans (m.before.swept_unaddressed report.all)⟩
    rw [h.decided.1] at hfollowed
    generalize m.after = after at hfollowed
    cases hfollowed with
    | quiet =>
      obtain ⟨timers, heartbeat, stats, hframe⟩ := (m.before.swept report.all).armHeartbeat_frame
      rw [hframe]
      exact m.before.swept_pending report.all
  refine ⟨h.running, eq_false_of_ne_true fun hhalted => ?_, h.inbox, ?_, ?_, h.silent, hdistinct, hidle⟩
  · have hdone := run.vigilant.1.booked.order hhalted
    rw [h.running] at hdone
    cases hdone
  · rw [h.quiet.eq]
    exact hpending.1
  · rw [h.quiet.eq]
    exact hpending.2

end Run.Settled

/-- From a run that has come to rest, time and steps lead to nothing but full sweeps at regular intervals. -/
theorem Run.heartbeats_regular (run : Run σ) {past : List (Moment σ)} {m : Moment σ} {report : CycleReport}
    (settled : run.Settled past m report) :
    (∃ deadline, run.state.Standing deadline ∧
        ∀ t, m.before.now.add? m.before.config.heartbeat = some t → deadline = t) ∧
      ∀ calls : List (Call σ), (∀ call ∈ calls, call.Passive) →
        Scheduler.Quiescent run.state (run.state.performAll calls) := by
  obtain ⟨deadline, harmed, hdeadline⟩ := settled.armed
  have hbeating : run.state.Beating := ⟨settled.resting, .inl ⟨deadline, harmed⟩⟩
  refine ⟨⟨deadline, harmed.standing, hdeadline⟩, fun calls passive => ?_⟩
  obtain ⟨hlater, hsame⟩ := hbeating.performAll passive
  exact hlater.quiescent hsame

def idling : Run Nat :=
  { overhearing 0 with monitor := .silent, calls := [.loopOnce true] }

theorem Run.heartbeats_regular_idling :
    ∃ past m report, idling.Settled past m report ∧
      (∃ deadline, idling.state.Standing deadline ∧
        ∀ t, m.before.now.add? m.before.config.heartbeat = some t → deadline = t) ∧
      ∀ calls : List (Call Nat), (∀ call ∈ calls, call.Passive) →
        Scheduler.Quiescent idling.state (idling.state.performAll calls) := by
  let cycle := idling.history.get ⟨3, by decide⟩
  have hfull : ∀ id ∈ cycle.before.registry.enabled, id ∈ (idling.start.loopOnce true).value.2.touched := by
    decide +kernel
  have hidle : ∀ f ∈ cycle.before.registry.volley (idling.start.loopOnce true).value.2.touched,
      f.before.eligible f.id = false := by
    decide +kernel
  have hsettled : idling.Settled (idling.history.take 3) cycle (idling.start.loopOnce true).value.2 :=
    ⟨rfl, rfl, hfull, hidle, rfl, rfl, rfl, fun _ _ => rfl⟩
  exact ⟨_, cycle, _, hsettled, Run.heartbeats_regular idling hsettled⟩

end ActorNet
