import ActorNet.Proofs.Reports
import ActorNet.Proofs.Stretches
import ActorNet.Proofs.Volleys
import Mathlib.Algebra.Ring.Nat
import Mathlib.Data.List.Iterate

set_option autoImplicit false

/-!
# Counters

Each counter of a scheduler goes on with the outcomes of its steps, by what a cycle reports and by heartbeats that come
due, and stops at the largest number of 64 bits. The hook for firing errors is called as often as there are failures in
the reports, and the history has the same cycles and the same heartbeats.
-/
namespace ActorNet

variable {σ : Type}

def Step.report? : Step → Option CycleReport
  | .cycle report => some report
  | _ => none

def reportsOf (outcomes : List Step) : List CycleReport := outcomes.filterMap Step.report?

theorem reportsOf_append (outcomes outcomes' : List Step) :
    reportsOf (outcomes ++ outcomes') = reportsOf outcomes ++ reportsOf outcomes' := List.filterMap_append

def Stats.reported (stats : Stats) (report : CycleReport) : Stats := { stats with
  cycles := countUp stats.cycles
  fullSweeps := countUp^[if report.all then 1 else 0] stats.fullSweeps
  firingCycles := countUp^[if report.result.didFire then 1 else 0] stats.firingCycles
  fireErrors := countUp^[report.failed.length] stats.fireErrors
  heartbeatsArmed := countUp^[if report.next = .heartbeat then 1 else 0] stats.heartbeatsArmed }

/-- The outcomes of the steps that a call takes, as its answer tells them. A run answers only how it has ended. -/
inductive Answer.Tells : Answer σ → List Step → Prop
  | done : Tells .done []
  | stepped (step : Step) : Tells (.stepped step) [step]
  | reported (outcomes : List Step) : Tells (.reported (reportsOf outcomes)) outcomes
  | cycled (report : CycleReport) : Tells (.cycled report) [.cycle report]
  | ended (outside : Outside) (ending : Ending) (outcomes : List Step) : Tells (.ended outside ending) outcomes
  | replied (answer : Except ActorError (Reply σ)) : Tells (.replied answer) []
  | fired (outcome : Outcome FiringError FiringResult) : Tells (.fired outcome) []

namespace Scheduler

theorem runSteps_snd (steps : Nat) (s : Scheduler σ) :
    (runSteps steps s).value.2 = reportsOf ((departures steps s).map (·.step.value.2)) := by
  induction steps generalizing s with
  | zero => rfl
  | succ steps ih =>
    rw [runSteps, departures, Logged.value_bind, List.map_cons]
    rcases s.step.value with ⟨s', step⟩
    cases step with
    | nothing | halted => rfl
    | heartbeat => exact ih s'
    | cycle report => exact congrArg (report :: ·) (ih s')

theorem respond_tells (s : Scheduler σ) (call : Call σ) : (s.respond call).value.2.Tells (s.outcomes call) := by
  cases call with
  | trigger | stop | send | tick => exact .done
  | step => exact .stepped _
  | runDue =>
    have hanswer : (s.respond .runDue).value.2 = .reported (reportsOf (s.outcomes .runDue)) :=
      congrArg Answer.reported (s.runSteps_snd s.config.maxCyclesPerTurn)
    rw [hanswer]
    exact .reported _
  | loopOnce all => exact .cycled _
  | run fuel outside => exact .ended _ _ _
  | edit change => exact .replied _
  | operate operation =>
    cases operation with
    | edit change => exact .replied _
    | fire id => exact .fired _

theorem conversation_tells (s : Scheduler σ) (calls : List (Call σ)) :
    ∃ shares : List (List Step), shares.flatten = s.allOutcomes calls ∧
      List.Forall₂ (·.value.2.Tells ·) (s.conversation calls) shares := by
  induction calls generalizing s with
  | nil => exact ⟨[], rfl, .nil⟩
  | cons call calls ih =>
    obtain ⟨shares, hall, htells⟩ := ih (s.perform call)
    exact ⟨s.outcomes call :: shares, congrArg (s.outcomes call ++ ·) hall, .cons (s.respond_tells call) htells⟩

theorem Obeyed.counters {s s' : Scheduler σ} {command : Command} (h : s.Obeyed command s') :
    s'.cycle = s.cycle ∧ ∃ triggersDropped, s'.stats = { s.stats with triggersDropped } := by
  cases h with
  | ignored | stopAgain | delayed | stop => exact ⟨rfl, _, rfl⟩
  | dropped => exact ⟨rfl, _, rfl⟩
  | sweep =>
    obtain ⟨timers, hframe⟩ := s.renewImmediate_frame true
    rw [hframe]
    exact ⟨rfl, _, rfl⟩
  | joined delay ids =>
    obtain ⟨timers, immediate, immediateSweep, hframe⟩ := (s.join ids).scheduleImmediate_frame false
    rw [hframe]
    exact ⟨rfl, _, rfl⟩

theorem drain_counters (s : Scheduler σ) :
    s.drain.value.cycle = s.cycle ∧ ∃ triggersDropped, s.drain.value.stats = { s.stats with triggersDropped } := by
  refine drain_kept (P := fun s' => s'.cycle = s.cycle ∧ ∃ triggersDropped, s'.stats = { s.stats with triggersDropped })
    ?_ ⟨rfl, _, rfl⟩
  rintro s' s'' command ⟨hcycle, dropped, hstats⟩ obeyed
  obtain ⟨hcycle', dropped', hstats'⟩ := obeyed.counters
  exact ⟨hcycle'.trans hcycle, dropped', hstats'.trans (by rw [hstats])⟩

theorem Followed.counters {s s' : Scheduler σ} {result : FiringResult} {active : Bool} {next : NextCycle}
    (h : s.Followed result active next s') :
    s'.cycle = s.cycle ∧ s'.stats = { s.stats with
      heartbeatsArmed := countUp^[if next = .heartbeat then 1 else 0] s.stats.heartbeatsArmed } := by
  obtain ⟨timers, hcancelled⟩ := s.cancelHeartbeat_frame
  cases h with
  | stopped => exact ⟨rfl, rfl⟩
  | fired =>
    obtain ⟨timers, immediate, immediateSweep, hframe⟩ :=
      (s.cancelHeartbeat.gather result.affected).scheduleImmediate_frame false
    rw [hframe, gather, hcancelled]
    exact ⟨rfl, rfl⟩
  | active =>
    obtain ⟨timers, hframe⟩ := s.cancelHeartbeat.renewImmediate_frame true
    rw [hframe, hcancelled]
    exact ⟨rfl, rfl⟩
  | quiet =>
    rw [armHeartbeat_eq, hcancelled]
    exact ⟨rfl, rfl⟩

theorem swept_counters (s : Scheduler σ) (all : Bool) :
    (s.swept all).cycle = s.cycle ∧ (s.swept all).stats = { s.stats with
      firingCycles := countUp^[if (s.sweepActors all).2.total.didFire then 1 else 0] s.stats.firingCycles
      fireErrors := countUp^[(s.sweepActors all).2.failed.length] s.stats.fireErrors } := by
  have hfailed : (s.sweepActors all).2.failed = s.registry.failing (s.due all) :=
    congrArg Sweep.failed (s.sweepActors_volley all).2
  have hcycle : s.takePending.2.cycle = s.cycle := by
    rw [s.takePending_taken.frame]
    rfl
  have hstats := s.takePending_stats
  -- The failures are counted in the sweep itself, the firing once it is over.
  unfold swept
  rw [hfailed, sweepActors_state]
  cases (s.sweepActors all).2.total.didFire with
  | false => exact ⟨hcycle, by rw [← hstats]; rfl⟩
  | true => exact ⟨hcycle, by rw [← hstats]; rfl⟩

theorem closeCycle_counters (s : Scheduler σ) (cycle : Nat) (all active : Bool) :
    (s.closeCycle cycle all active).1.cycle = s.cycle ∧ (s.closeCycle cycle all active).1.stats = { s.stats with
      firingCycles := countUp^[if (s.closeCycle cycle all active).2.result.didFire then 1 else 0] s.stats.firingCycles
      fireErrors := countUp^[(s.closeCycle cycle all active).2.failed.length] s.stats.fireErrors
      heartbeatsArmed :=
        countUp^[if (s.closeCycle cycle all active).2.next = .heartbeat then 1 else 0] s.stats.heartbeatsArmed } := by
  obtain ⟨hcycle, hstats⟩ := (s.closeCycle_followed cycle all active).counters
  obtain ⟨hswept, hcounted⟩ := s.swept_counters all
  rw [hcounted] at hstats
  exact ⟨hcycle.trans hswept, hstats⟩

theorem loopOnce_counters (s : Scheduler σ) (all : Bool) :
    (s.loopOnce all).value.2.cycle = countUp s.cycle ∧ (s.loopOnce all).value.1.cycle = countUp s.cycle ∧
      ∃ triggersDropped,
        (s.loopOnce all).value.1.stats = { s.stats.reported (s.loopOnce all).value.2 with triggersDropped } := by
  obtain ⟨hdrained, triggersDropped, hstats⟩ := (s.openCycle all).drain_counters
  obtain ⟨hcycle, hclosed⟩ := (s.openCycle all).drain.value.closeCycle_counters (s.beginCycle all).cycle all
    (s.beginCycle all).pollMonitor.1
  rw [hstats] at hclosed
  rw [loopOnce_value]
  refine ⟨rfl, hcycle.trans hdrained, triggersDropped, hclosed.trans ?_⟩
  cases all <;> rfl

end Scheduler

theorem countUp_add (m n a : Nat) : countUp^[m + n] a = countUp^[n] (countUp^[m] a) := by
  rw [Nat.add_comm, Function.iterate_add_apply]

/-- How the counters go on while a scheduler comes to some outcomes. -/
structure Counted (s : Scheduler σ) (outcomes : List Step) (s' : Scheduler σ) : Prop where
  cycle : s'.cycle = countUp^[(reportsOf outcomes).length] s.cycle
  numbers : (reportsOf outcomes).map (·.cycle) = List.iterate countUp (countUp s.cycle) (reportsOf outcomes).length
  cycles : s'.stats.cycles = countUp^[(reportsOf outcomes).length] s.stats.cycles
  fullSweeps : s'.stats.fullSweeps = countUp^[(reportsOf outcomes).countP (·.all)] s.stats.fullSweeps
  firingCycles : s'.stats.firingCycles = countUp^[(reportsOf outcomes).countP (·.result.didFire)] s.stats.firingCycles
  fireErrors : s'.stats.fireErrors = countUp^[((reportsOf outcomes).map (·.failed.length)).sum] s.stats.fireErrors
  heartbeatsArmed :
    s'.stats.heartbeatsArmed = countUp^[(reportsOf outcomes).countP (·.next = .heartbeat)] s.stats.heartbeatsArmed
  heartbeatsExpired : s'.stats.heartbeatsExpired = countUp^[outcomes.count .heartbeat] s.stats.heartbeatsExpired

namespace Counted

variable {s s' s'' : Scheduler σ} {outcomes outcomes' : List Step}

theorem still (cycle : s'.cycle = s.cycle) {triggersDropped : Nat} (stats : s'.stats = { s.stats with triggersDropped })
    (none : reportsOf outcomes = []) (unexpired : outcomes.count .heartbeat = 0) : Counted s outcomes s' := by
  constructor <;> simp [none, unexpired, cycle, stats]

theorem append (h : Counted s outcomes s') (h' : Counted s' outcomes' s'') : Counted s (outcomes ++ outcomes') s'' where
  cycle := by rw [h'.cycle, h.cycle, reportsOf_append, List.length_append, countUp_add]
  numbers := by
    rw [reportsOf_append, List.map_append, List.length_append, List.iterate_add, h.numbers, h'.numbers, h.cycle,
      ← Function.iterate_succ_apply, Function.iterate_succ_apply']
  cycles := by rw [h'.cycles, h.cycles, reportsOf_append, List.length_append, countUp_add]
  fullSweeps := by rw [h'.fullSweeps, h.fullSweeps, reportsOf_append, List.countP_append, countUp_add]
  firingCycles := by rw [h'.firingCycles, h.firingCycles, reportsOf_append, List.countP_append, countUp_add]
  fireErrors := by
    rw [h'.fireErrors, h.fireErrors, reportsOf_append, List.map_append, List.sum_append, countUp_add]
  heartbeatsArmed := by rw [h'.heartbeatsArmed, h.heartbeatsArmed, reportsOf_append, List.countP_append, countUp_add]
  heartbeatsExpired := by rw [h'.heartbeatsExpired, h.heartbeatsExpired, List.count_append, countUp_add]

theorem cycled (s : Scheduler σ) (all : Bool) :
    Counted s [.cycle (s.loopOnce all).value.2] (s.loopOnce all).value.1 := by
  obtain ⟨hnumber, hcycle, triggersDropped, hstats⟩ := s.loopOnce_counters all
  generalize (s.loopOnce all).value = closed at *
  have hreports : reportsOf [.cycle closed.2] = [closed.2] := rfl
  constructor <;>
    simp [hreports, hnumber, hcycle, hstats, Stats.reported, List.countP_singleton, List.iterate]

end Counted

theorem Stretch.counted {s s' : Scheduler σ} {moments : List (Moment σ)} {outcomes : List Step} {journal : List Entry}
    (h : Stretch s moments outcomes journal s') : Counted s outcomes s' := by
  induction h with
  | still quiet =>
    rw [quiet.eq]
    exact .still rfl rfl rfl rfl
  | noted => exact .still rfl rfl rfl rfl
  | passed s h => rcases h with rfl | rfl <;> exact .still rfl rfl rfl rfl
  | obeyed s command =>
    obtain ⟨hcycle, triggersDropped, hstats⟩ := (s.obeyed command).counters
    exact .still hcycle hstats rfl rfl
  | begun s =>
    obtain ⟨timers, immediate, immediateSweep, hframe⟩ := s.scheduleImmediate_frame true
    rw [hframe]
    exact .still rfl rfl rfl rfl
  | operated => exact .still rfl rfl rfl rfl
  | @expired s id wakeup timers due =>
    cases wakeup with
    | cycle | halt => exact .still rfl rfl rfl rfl
    | heartbeat => constructor <;> rfl
  | cycled s all => exact .cycled s all
  | append _ _ hfirst hsecond => exact hfirst.append hsecond

theorem Registry.respond_fireErrors (r : Registry σ) (operation : Operation σ) :
    (r.respond operation).fireErrors = [] := by
  cases operation with
  | edit change =>
    change (r.edit change).fireErrors = []
    unfold edit
    dsimp only
    split
    · rw [Logged.fireErrors_bind, Logged.fireErrors_notes]
      rfl
    · rfl
  | fire id => exact r.fireActor_fireErrors id

namespace Scheduler

theorem fireOne_calls (s : Scheduler σ) (sweep : Sweep) (id : ActorId) :
    (s.fireOne sweep id).fireErrors.length = if (s.registry.fireActor id).value.2.isFault then 1 else 0 := by
  rw [fireOne_fireErrors]
  cases (s.registry.fireActor id).value.2 <;> rfl

theorem fireEach_calls (only : Option ActorSet) (ids : List ActorId) (s : Scheduler σ) (sweep : Sweep) :
    (fireEach only ids (s, sweep)).fireErrors.length =
      (s.registry.failing (ids.filter fun id => only.all (·.contains id))).length := by
  induction ids generalizing s sweep with
  | nil => rfl
  | cons id ids ih =>
    rw [fireEach]
    split
    case isTrue hdue =>
      have hrest := ih (s.fireOne sweep id).value.1 (s.fireOne sweep id).value.2
      rw [fireOne_registry] at hrest
      rw [Logged.fireErrors_bind, List.length_append, List.filter_cons, if_pos hdue, hrest, fireOne_calls,
        Registry.failing_cons, List.length_append]
      split <;> rfl
    case isFalse hpassed =>
      rw [Logged.fireErrors_bind, Logged.fireErrors_note, List.nil_append, List.filter_cons, if_neg hpassed]
      exact ih s sweep

theorem loopOnce_calls (s : Scheduler σ) (all : Bool) :
    (s.loopOnce all).fireErrors.length = (s.loopOnce all).value.2.failed.length := by
  have hregistry : (s.openCycle all).drain.value.registry = s.registry := (s.openCycle all).drain_registry
  rw [loopOnce_value, (closeCycle_volley _ _ _ _).2.1, loopOnce_fireErrors, fireEach_calls, takePending_registry, due,
    hregistry]

end Scheduler

theorem Stretch.calls {s s' : Scheduler σ} {moments : List (Moment σ)} {outcomes : List Step} {journal : List Entry}
    (h : Stretch s moments outcomes journal s') :
    (journal.filterMap Entry.fireError?).length = ((reportsOf outcomes).map (·.failed.length)).sum := by
  induction h with
  | still | noted | begun => rfl
  | passed s h => rcases h with rfl | rfl <;> rfl
  | obeyed s command => exact congrArg List.length (s.obey_fireErrors command)
  | operated s operation => exact congrArg List.length (s.registry.respond_fireErrors operation)
  | @expired s id wakeup => cases wakeup <;> rfl
  | cycled s all => exact s.loopOnce_calls all
  | append _ _ hfirst hsecond =>
    rw [List.filterMap_append, List.length_append, hfirst, hsecond, reportsOf_append, List.map_append, List.sum_append]

def Moment.report? (m : Moment σ) : Option CycleReport :=
  match m.mark with
  | .cycled report => some report
  | _ => none

def Moment.beats (m : Moment σ) : Bool :=
  match m.mark with
  | .expired _ .heartbeat => true
  | _ => false

/-- No cycle closes, and the heartbeat does not come due. -/
structure Moment.Aside (m : Moment σ) : Prop where
  report : m.report? = none
  beats : m.beats = false

theorem Scheduler.firingEach_aside {only : Option ActorSet} {ids : List ActorId} {state : Scheduler σ × Sweep} :
    ∀ m ∈ firingEach only ids state, m.Aside := by
  intro m hm
  obtain ⟨id, -, hmark⟩ := mark_of_mem_firingEach hm
  constructor
  · rw [Moment.report?, hmark]
  · rw [Moment.beats, hmark]

theorem Scheduler.obeyingEach_aside {commands : List Command} {s : Scheduler σ} :
    ∀ m ∈ obeyingEach commands s, m.Aside := by
  intro m hm
  obtain ⟨command, hmark⟩ := mark_of_mem_obeyingEach hm
  constructor
  · rw [Moment.report?, hmark]
  · rw [Moment.beats, hmark]

theorem Scheduler.cycling_eq (s : Scheduler σ) (all : Bool) :
    ∃ before, s.cycling all = before ++ [⟨(s.openCycle all).drain.value, .cycled (s.loopOnce all).value.2,
      (s.loopOnce all).value.1⟩] ∧ ∀ m ∈ before, m.Aside := by
  let drained := (s.openCycle all).drain.value
  let firings := firingEach (drained.scope all) drained.registry.enabled (drained.takePending.2, {})
  refine ⟨s.opening all :: (s.openCycle all).draining ++ firings, ?_, fun m hm => ?_⟩
  · rw [cycling, closing, loopOnce_value, List.append_assoc]
  · rcases List.mem_append.mp hm with hm | hm
    · rcases List.mem_cons.mp hm with rfl | hm
      · exact ⟨rfl, rfl⟩
      · exact obeyingEach_aside m hm
    · exact firingEach_aside m hm

theorem Stretch.reports {s s' : Scheduler σ} {moments : List (Moment σ)} {outcomes : List Step} {journal : List Entry}
    (h : Stretch s moments outcomes journal s') : moments.filterMap Moment.report? = reportsOf outcomes := by
  induction h with
  | still | noted | obeyed | begun | operated => rfl
  | passed s h => rcases h with rfl | rfl <;> rfl
  | @expired s id wakeup => cases wakeup <;> rfl
  | cycled s all =>
    obtain ⟨before, hcycling, haside⟩ := s.cycling_eq all
    have hnone : before.filterMap Moment.report? = [] :=
      List.filterMap_eq_nil_iff.mpr fun m hm => (haside m hm).report
    rw [hcycling, List.filterMap_append, hnone]
    rfl
  | append _ _ hfirst hsecond => rw [List.filterMap_append, hfirst, hsecond, reportsOf_append]

theorem Stretch.beats {s s' : Scheduler σ} {moments : List (Moment σ)} {outcomes : List Step} {journal : List Entry}
    (h : Stretch s moments outcomes journal s') : moments.countP Moment.beats = outcomes.count .heartbeat := by
  induction h with
  | still | noted | obeyed | begun | operated => rfl
  | passed s h => rcases h with rfl | rfl <;> rfl
  | @expired s id wakeup => cases wakeup <;> rfl
  | cycled s all =>
    obtain ⟨before, hcycling, haside⟩ := s.cycling_eq all
    have hnone : before.countP Moment.beats = 0 :=
      List.countP_eq_zero.mpr fun m hm => Bool.eq_false_iff.mp (haside m hm).beats
    rw [hcycling, List.countP_append, hnone]
    rfl
  | append _ _ hfirst hsecond => rw [List.countP_append, hfirst, hsecond, List.count_append]

end ActorNet
