import ActorNet.Proofs.Restriction
import ActorNet.Proofs.Sweeps

set_option autoImplicit false

/-!
# What follows when the monitor has seen activity

When nothing has fired in the cycle, a full sweep follows. When something has fired, the cycle that follows is
for those that it has affected, and the activity is forgotten. With restricted firing the others then wait,
unless a full sweep was outstanding already.
-/
namespace ActorNet

variable {σ : Type}

namespace Scheduler

variable {s s' : Scheduler σ} {past : List (Moment σ)}

theorem Booked.swept (booked : s.Booked past) (all : Bool) : (s.swept all).Booked past := by
  obtain ⟨registry, stats, hframe⟩ := s.swept_frame all
  have htaken := booked.taken s.takePending_taken
  rw [hframe]
  exact { htaken with }

theorem swept_sweepAhead (booked : s.Booked past) (all : Bool) (h : (s.swept all).hasImmediateCycle = true) :
    (s.swept all).SweepAhead := by
  obtain ⟨registry, stats, hframe⟩ := s.swept_frame all
  rw [hframe] at h ⊢
  change s.takePending.2.hasImmediateCycle = true at h
  change s.takePending.2.SweepAhead
  have htaken := s.takePending_taken
  generalize s.takePending.2 = taken at h htaken ⊢
  cases htaken with
  | gone | narrow => cases h
  | sweep hhas hsweep =>
    obtain ⟨id, himmediate, -⟩ := s.hasImmediateCycle_iff.mp hhas
    exact ⟨id, himmediate, hsweep ▸ booked.pending_immediate himmediate hhas⟩

theorem renewImmediate_scoped (s : Scheduler σ) : ¬(s.renewImmediate false).SweepAhead := by
  rintro ⟨id, himmediate, hpending⟩
  cases himmediate
  have hscoped := s.dropImmediate.schedule_getElem? .zero (.cycle false) s.dropImmediate.nextTimer
  rw [if_pos rfl] at hscoped
  exact Bool.noConfusion (Wakeup.cycle.inj (Option.some.inj (hscoped.symm.trans hpending)))

theorem cancelHeartbeat_hasImmediateCycle (h : s.cancelHeartbeat.hasImmediateCycle = true) :
    s.hasImmediateCycle = true := by
  have himmediate : s.cancelHeartbeat.immediate = s.immediate := by
    obtain ⟨timers, hframe⟩ := s.cancelHeartbeat_frame
    rw [hframe]
  obtain ⟨id, hid, hmem⟩ := (hasImmediateCycle_iff _).mp h
  refine s.hasImmediateCycle_iff.mpr ⟨id, himmediate.symm.trans hid, ?_⟩
  have hpending := cancel_pending.mp (Std.ExtTreeMap.getElem?_eq_some_getElem hmem)
  exact (Std.ExtTreeMap.getElem?_eq_some_iff.mp hpending.2).1

theorem Followed.hasImmediateCycle {result : FiringResult} {next : NextCycle}
    (followed : s.Followed result true next s') (running : s.done = false) : s'.hasImmediateCycle = true := by
  cases followed with
  | stopped stopped =>
    rw [stopped] at running
    cases running
  | fired => exact scheduleImmediate_hasImmediateCycle _ false
  | active => exact renewImmediate_hasImmediateCycle _ true
  | quiet _ _ hinactive => cases hinactive

theorem Followed.sweepAhead_iff {result : FiringResult} {next : NextCycle} (followed : s.Followed result true next s')
    (running : s.done = false) (booked : s.Booked past) (sweep : s.hasImmediateCycle = true → s.SweepAhead) :
    s'.SweepAhead ↔ result.didFire = false ∨ s.SweepAhead := by
  cases followed with
  | stopped stopped =>
    rw [stopped] at running
    cases running
  | fired _ hfired =>
    have hnot : result.didFire ≠ false := by simp [hfired]
    rw [or_iff_right hnot]
    constructor
    · intro h
      by_contra hnone
      have hhas : (s.cancelHeartbeat.gather result.affected).hasImmediateCycle = false :=
        eq_false_of_ne_true fun hhas => hnone (sweep (cancelHeartbeat_hasImmediateCycle hhas))
      rw [scheduleImmediate_eq, hhas] at h
      exact renewImmediate_scoped _ h
    · exact fun h =>
        SweepAhead.scheduleImmediate (s := s.cancelHeartbeat.gather result.affected) (h.cancelHeartbeat booked) false
  | active _ hidle => exact iff_of_true s.cancelHeartbeat.renewImmediate_sweepAhead (.inl hidle)
  | quiet _ _ hinactive => cases hinactive

end Scheduler

def Moment.Starts (m : Moment σ) : Prop := ∃ id all, m.mark = .expired id (.cycle all)

theorem Moment.Genuine.followed {m : Moment σ} (genuine : m.Genuine) {report : CycleReport}
    (cycled : m.mark = .cycled report) :
    (m.before.swept report.all).Followed report.result report.monitorActivity report.next m.after := by
  have hfollowed := m.before.closeCycle_followed report.cycle report.all report.monitorActivity
  have hresult : (m.before.closeCycle report.cycle report.all report.monitorActivity).2.result =
      (m.before.sweepActors report.all).2.total := rfl
  rwa [← hresult, genuine.cycled report cycled] at hfollowed

/-- The next cycle that a step starts touches every actor that is enabled then. -/
def Thorough (rest : List (Moment σ)) : Prop :=
  ∀ between start later id all, rest = between ++ start :: later → (∀ other ∈ between, ¬other.Starts) →
    start.mark = .expired id (.cycle all) →
      start.after.cycling all <+: later ∧ (start.after.loopOnce all).value.2.touched = start.after.registry.enabled

/-- What follows a cycle in which the monitor has seen activity. -/
structure Heeded (config : Config) (m : Moment σ) (report : CycleReport) (rest : List (Moment σ)) : Prop where
  outstanding : m.after.hasImmediateCycle = true
  sweep : m.after.SweepAhead ↔ report.result.didFire = false ∨ m.before.SweepAhead
  thorough : config.restrictToTriggered = false ∨ m.after.SweepAhead → Thorough rest

namespace Run

theorem starts_sweep (run : Run σ) {past between rest : List (Moment σ)} {m start : Moment σ} {id : TimerId}
    {all : Bool} (history : run.history = past ++ m :: (between ++ start :: rest)) (ahead : m.after.SweepAhead)
    (idle : ∀ other ∈ between, ¬other.Starts) (mark : start.mark = .expired id (.cycle all)) : all = true := by
  have hstart : run.history = (past ++ m :: between) ++ start :: rest := by
    rw [history, List.append_assoc, List.cons_append]
  have hawaited : Awaited (past ++ m :: between) :=
    ⟨past, m, between, rfl, ahead, fun other hother ⟨timer, hmark, _⟩ => idle other hother ⟨timer, true, hmark⟩⟩
  have hsweeping := (run.invariant Scheduler.Sweeping.kept (.start run)).1
  obtain ⟨timer, himmediate, hpending⟩ := (hsweeping.along _ _ _ hstart).ahead hawaited
  obtain ⟨-, before, hbefore⟩ := run.recalled Scheduler.Sweeping.kept (.start run) hstart (by simp [mark])
  obtain ⟨timers, hexpires, -⟩ := (run.genuine _ _ _ hstart).expired id _ mark
  obtain ⟨-, hall⟩ | himmediate' := hbefore.booked.cycle id all hexpires.payload
  · exact hall
  · rw [himmediate] at himmediate'
    cases himmediate'
    exact (Wakeup.cycle.inj (Option.some.inj (hpending.symm.trans hexpires.payload))).symm

/-- In every run activity leads to another cycle, and to a full look unless a firing comes between. -/
theorem activity_heeded (run : Run σ) {past rest : List (Moment σ)} {m : Moment σ} {report : CycleReport}
    (history : run.history = past ++ m :: rest) (cycled : m.mark = .cycled report)
    (active : report.monitorActivity = true) (running : m.after.done = false) : Heeded run.config m report rest := by
  obtain ⟨-, before, hsweeping⟩ := run.recalled Scheduler.Sweeping.kept (.start run) history (by simp [cycled])
  have hswept := hsweeping.booked.swept report.all
  have hfollowed := (run.genuine _ _ _ history).followed cycled
  rw [active] at hfollowed
  have hrunning := hfollowed.done.symm.trans running
  constructor
  case outstanding => exact hfollowed.hasImmediateCycle hrunning
  case sweep =>
    rw [← Scheduler.swept_sweepAhead_iff hsweeping.booked report.all]
    exact hfollowed.sweepAhead_iff hrunning hswept (Scheduler.swept_sweepAhead hsweeping.booked report.all)
  case thorough =>
    intro hwhole between start later id all hrest hidle hmark
    rw [hrest] at history
    have hstart : run.history = (past ++ m :: between) ++ start :: later := by
      rw [history, List.append_assoc, List.cons_append]
    refine ⟨run.start.history_prompt run.calls _ _ _ hstart id all hmark, start.after.loopOnce_touched_enabled ?_⟩
    obtain hconfig | hahead := hwhole
    · right
      obtain ⟨timers, -, hafter⟩ := (run.genuine _ _ _ hstart).expired id _ hmark
      obtain ⟨-, -, hbefore⟩ := run.recalled (Scheduler.kept_config run.config) rfl hstart (by simp [hmark])
      obtain ⟨stats, hframe⟩ := start.before.expire_frame timers (.cycle all)
      rw [hafter, hframe, ← hconfig]
      exact congrArg Config.restrictToTriggered hbefore
    · exact .inl (run.starts_sweep history hahead hidle hmark)

end Run

def Monitor.early : Monitor := fun polls => { active := polls == 0 }

def overhearing (pulses : Nat) : Run Nat where
  setup := [.edit (.add (.new ⟨"a"⟩ pulser pulses)) (Actor.fits_new _ _ _),
    .edit (.add (.new ⟨"b"⟩ pulser 0)) (Actor.fits_new _ _ _)]
  config := { restrictToTriggered := true }
  valid := pulsing.valid
  monitor := .early
  clock := .origin
  calls := [.loopOnce true, .step]

theorem Run.activity_heeded_idle :
    ∃ past m rest report, (overhearing 0).history = past ++ m :: rest ∧ m.mark = .cycled report ∧
      report.monitorActivity = true ∧ m.after.done = false ∧ Heeded (overhearing 0).config m report rest ∧
        Thorough rest := by
  let m := (overhearing 0).history.get ⟨3, by decide⟩
  have hsplit : (overhearing 0).history = (overhearing 0).history.take 3 ++ m :: (overhearing 0).history.drop 4 := rfl
  have hheeded := Run.activity_heeded (overhearing 0) hsplit rfl rfl rfl
  have hahead : m.after.SweepAhead := hheeded.sweep.mpr (.inl rfl)
  exact ⟨_, m, _, _, hsplit, rfl, rfl, rfl, hheeded, hheeded.thorough (.inr hahead)⟩

/-- When the one fires, the other is passed over although the monitor has seen activity. -/
theorem Run.activity_overlooked :
    ∃ past m rest report, (overhearing 1).history = past ++ m :: rest ∧ m.mark = .cycled report ∧
      report.monitorActivity = true ∧ m.after.done = false ∧ ¬Thorough rest := by
  have hoverlooked : ¬Thorough ((overhearing 1).history.drop 4) := by
    intro thorough
    have hnext := thorough [] ((overhearing 1).history.get ⟨4, by decide⟩) ((overhearing 1).history.drop 5) ⟨0⟩ false
      rfl (fun _ h => absurd h List.not_mem_nil) rfl
    have htouched : ([⟨"a"⟩] : List ActorId) = [⟨"a"⟩, ⟨"b"⟩] := hnext.2
    exact absurd htouched (by decide)
  exact ⟨(overhearing 1).history.take 3, (overhearing 1).history.get ⟨3, by decide⟩, (overhearing 1).history.drop 4, _,
    rfl, rfl, rfl, rfl, hoverlooked⟩

end ActorNet
