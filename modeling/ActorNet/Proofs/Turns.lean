import ActorNet.Proofs.Bookkeeping

set_option autoImplicit false

/-!
# Steps, turns and waits of the run loop

`Answered` lists what a step can come to once the commands have been obeyed. The loop waits after a turn in
which the first step found nothing due; `waits` lists the states in which it does, and an invariant that holds
where the loop begins holds in each of them.
-/
namespace ActorNet

variable {σ : Type}

namespace Scheduler

inductive Answered (s : Scheduler σ) : Scheduler σ × Step → Prop
  | ended (halted : s.halted = true) : Answered s (s, .halted)
  | nothing (timers : TimerQueue Wakeup) (going : s.halted = false)
    (due : s.timers.popDue s.now = (none, timers)) : Answered s ({ s with timers }, .nothing)
  | cycle (timers : TimerQueue Wakeup) (id : TimerId) (all : Bool) (going : s.halted = false)
    (due : s.timers.popDue s.now = (some (id, .cycle all), timers)) :
    Answered s ((({ s with timers } : Scheduler σ).loopOnce all).value.1,
      .cycle (({ s with timers } : Scheduler σ).loopOnce all).value.2)
  | heartbeat (timers : TimerQueue Wakeup) (id : TimerId) (going : s.halted = false)
    (due : s.timers.popDue s.now = (some (id, .heartbeat), timers)) :
    Answered s (((s.expire timers .heartbeat).trigger .zero .all).value, .heartbeat)
  | halt (timers : TimerQueue Wakeup) (id : TimerId) (going : s.halted = false)
    (due : s.timers.popDue s.now = (some (id, .halt), timers)) : Answered s (s.expire timers .halt, .halted)

theorem serve_answered (s : Scheduler σ) : s.Answered s.serve := by
  unfold serve
  by_cases hhalted : s.halted = true
  · rw [if_pos hhalted]
    exact .ended hhalted
  · have hgoing := eq_false_of_ne_true hhalted
    rw [if_neg hhalted]
    rcases hpop : s.timers.popDue s.now with ⟨_ | ⟨id, wakeup⟩, timers⟩
    · exact .nothing timers hgoing hpop
    · cases wakeup with
      | cycle all => exact .cycle timers id all hgoing hpop
      | heartbeat => exact .heartbeat timers id hgoing hpop
      | halt => exact .halt timers id hgoing hpop

theorem step_answered (s : Scheduler σ) : s.drain.value.Answered s.step.value := by
  rw [step_value]
  exact s.drain.value.serve_answered

theorem halted_of_nothing {s : Scheduler σ} (h : s.step.value.2 = .nothing) : s.step.value.1.halted = false := by
  have hanswered := s.step_answered
  rcases hvalue : s.step.value with ⟨s', step⟩
  rw [hvalue] at h hanswered
  cases hanswered with
  | nothing timers going => exact going
  | ended | cycle | heartbeat | halt => cases h

theorem turnFrom_succ (turn : Turn) (steps : Nat) (s : Scheduler σ) :
    (turnFrom turn (steps + 1) s).value =
      match s.step.value with
      | (s', .nothing) => (s', turn)
      | (s', .halted) => (s', .halted)
      | (s', .cycle _) | (s', .heartbeat) => (turnFrom .busy steps s').value := by
  rw [turnFrom, Logged.value_bind]
  rcases s.step.value with ⟨s', step⟩
  cases step <;> rfl

theorem turnFrom_busy (steps : Nat) (s : Scheduler σ) : (turnFrom .busy steps s).value.2 ≠ .quiet := by
  induction steps generalizing s with
  | zero => nofun
  | succ steps ih =>
    rw [turnFrom_succ]
    rcases s.step.value with ⟨s', step⟩
    cases step with
    | nothing | halted => nofun
    | cycle | heartbeat => exact ih s'

theorem turn_quiet {steps : Nat} (some : steps ≠ 0) {s : Scheduler σ} (h : (turn steps s).value.2 = .quiet) :
    s.step.value.2 = .nothing ∧ (turn steps s).value.1 = s.step.value.1 := by
  obtain ⟨steps, rfl⟩ := Nat.exists_eq_succ_of_ne_zero some
  rw [turn, turnFrom_succ] at h ⊢
  revert h
  rcases s.step.value with ⟨s', step⟩
  cases step with
  | nothing => exact fun _ => ⟨rfl, rfl⟩
  | halted => exact nofun
  | cycle | heartbeat => exact fun hquiet => absurd hquiet (turnFrom_busy steps s')

/-- The states in which the run loop waits, for its deadline and for commands. -/
def waits : Nat → Outside → Scheduler σ → List (Scheduler σ)
  | 0, _, _ => []
  | fuel + 1, outside, s =>
    let (after, turn) := (turn s.config.maxCyclesPerTurn s).value
    (if turn = .quiet then [after] else []) ++
      match pause outside after turn with
      | .over _ => []
      | .on next outside => waits fuel outside next
      | .order next outside command => waits fuel outside (next.obey command).value

section Turn

variable {s after : Scheduler σ}

theorem runLoop_halted (fuel : Nat) (outside : Outside)
    (h : (turn s.config.maxCyclesPerTurn s).value = (after, .halted)) :
    (runLoop (fuel + 1) outside s).value = (after, outside, .halted) ∧ waits (fuel + 1) outside s = [] := by
  rw [runLoop, waits, Logged.value_bind, h]
  exact ⟨rfl, rfl⟩

theorem runLoop_busy (fuel : Nat) {outside : Outside} (h : (turn s.config.maxCyclesPerTurn s).value = (after, .busy))
    (time : outside.isOver = false) :
    (runLoop (fuel + 1) outside s).value = (runLoop fuel (after.collect outside).2 (after.collect outside).1).value ∧
      waits (fuel + 1) outside s = waits fuel (after.collect outside).2 (after.collect outside).1 := by
  rw [runLoop, waits, Logged.value_bind, h]
  dsimp only [pause]
  rw [if_neg (ne_true_of_eq_false time), if_neg (ne_true_of_eq_false time)]
  exact ⟨rfl, rfl⟩

end Turn

def entering (s : Scheduler σ) : Scheduler σ :=
  if !s.drain.value.done && s.drain.value.scheduledCycles = 0 then s.drain.value.scheduleImmediate true
  else s.drain.value

theorem run_value (fuel : Nat) (outside : Outside) (s : Scheduler σ) :
    (run fuel outside s).value = (runLoop fuel outside s.entering).value := rfl

section Config

variable {s s' : Scheduler σ}

theorem Followed.config {result : FiringResult} {active : Bool} {next : NextCycle}
    (h : s.Followed result active next s') : s'.config = s.config := by
  obtain ⟨timers, immediate, immediateSweep, heartbeat, stats, heq⟩ := h.eq
  rw [heq]

theorem swept_config (s : Scheduler σ) (all : Bool) : (s.swept all).config = s.config := by
  obtain ⟨registry, stats, hswept⟩ := s.swept_frame all
  rw [hswept]
  exact s.takePending_config

theorem kept_config (config : Config) : Kept fun _ _ (s : Scheduler σ) => s.config = config where
  quiet h quiet := by rwa [quiet.eq]
  obeyed _ h _ obeyed := obeyed.config.trans h
  lapsed h _ obeyed := obeyed.config.trans h
  begun {past s} h _ _ _ := by
    obtain ⟨timers, hframe⟩ := s.renewImmediate_frame true
    rwa [hframe]
  operated _ h := h
  expired {past s timers id wakeup} h _ _ _ := by
    obtain ⟨stats, hframe⟩ := s.expire_frame timers wakeup
    rwa [hframe]
  entered := id
  opened _ h := h
  closed {past s} cycle all active h _ :=
    ((s.closeCycle_followed cycle all active).config.trans (s.swept_config all)).trans h

end Config

end Scheduler

theorem Run.state_config (run : Run σ) : run.state.config = run.config :=
  (run.invariant (Scheduler.kept_config run.config) rfl).1

theorem Config.maxCyclesPerTurn_ne {config : Config} (valid : config.fault? = none) :
    config.maxCyclesPerTurn ≠ 0 := by
  intro hzero
  unfold fault? at valid
  simp only [hzero, if_true] at valid
  split at valid <;> cases valid

namespace Kept

variable {Inv : Stage → List (Moment σ) → Scheduler σ → Prop} {past : List (Moment σ)} {s : Scheduler σ}

/-- Each wait of the loop comes after a step, which leaves the invariant holding. -/
theorem waits (kept : Kept Inv) (fuel : Nat) (outside : Outside) (h : Holds Inv .rest past s)
    (some : s.config.maxCyclesPerTurn ≠ 0) :
    ∀ w ∈ s.waits fuel outside, w.halted = false ∧ ∃ past, Holds Inv .rest past w := by
  induction fuel generalizing past outside s with
  | zero => nofun
  | succ fuel ih =>
    have hturn := kept.turn s.config.maxCyclesPerTurn h
    have hstart : Holds (fun _ _ s' => s'.config = s.config) .rest past s := ⟨rfl, h.2⟩
    have hconfig := ((Scheduler.kept_config s.config).turn s.config.maxCyclesPerTurn hstart).1
    have hquiet := fun hquiet => Scheduler.turn_quiet some (s := s) hquiet
    have hpause := Scheduler.pause_quiet outside (Scheduler.turn s.config.maxCyclesPerTurn s).value.1
      (Scheduler.turn s.config.maxCyclesPerTurn s).value.2
    intro w hw
    rw [Scheduler.waits] at hw
    rcases hvalue : (Scheduler.turn s.config.maxCyclesPerTurn s).value with ⟨after, turn⟩
    rw [hvalue] at hw hturn hconfig hpause hquiet
    rcases List.mem_append.mp hw with hhere | hlater
    · by_cases hthis : turn = .quiet
      · rw [if_pos hthis] at hhere
        obtain ⟨hnothing, hstep⟩ := hquiet hthis
        rw [List.mem_singleton.mp hhere]
        refine ⟨?_, _, hturn⟩
        rw [show after = s.step.value.1 from hstep]
        exact Scheduler.halted_of_nothing hnothing
      · rw [if_neg hthis] at hhere
        cases hhere
    · rcases hnext : Scheduler.pause outside after turn with next | ⟨next, outside⟩ | ⟨next, outside, command⟩ <;>
        rw [hnext] at hlater hpause
      · cases hlater
      · refine ih outside (kept.still hturn hpause) ?_ w hlater
        rw [hpause.eq]
        exact hconfig ▸ some
      · refine ih outside (kept.obey (by decide) (kept.still hturn hpause) command) ?_ w hlater
        rw [(next.obeyed command).config, hpause.eq]
        exact hconfig ▸ some

end Kept

end ActorNet
