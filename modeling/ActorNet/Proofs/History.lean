import ActorNet.Proofs.Cycles
import ActorNet.Proofs.Operations
import ActorNet.Scheduler.Run

set_option autoImplicit false

/-!
# Histories

A run is a list of calls on a scheduler. Its history lists the moments of the run at which something takes
effect, in order, each with the state before and after it: commands as they are obeyed, timers as they
expire, and within a cycle its firings. What happens in between changes no more than the inbox, the clock
and dead places on the agenda. Nothing in the history is part of a state: it is read off the calls.
-/
namespace ActorNet

/-- What callers do: with the scheduler, with its registry, and with the clock. -/
inductive Call (σ : Type) where
  | trigger (delay : Duration) (targets : Targets)
  | stop
  | send (command : Command)
  | step
  | runDue
  | loopOnce (all : Bool)
  | run (fuel : Nat) (outside : Outside)
  | edit (change : Edit σ) (fits : change.Fits)
  /-- A change or a firing on the registry itself, of which the scheduler is not told. -/
  | operate (operation : Registry.Operation σ)
  /-- The clock goes on; one that stands behind is ignored. -/
  | tick (time : Instant)

/-- What takes effect at a moment. -/
inductive Mark (σ : Type) where
  | obeyed (command : Command)
  /-- A run loop that finds no cycle in sight begins with a sweep. -/
  | begun
  | operated (operation : Registry.Operation σ)
  | expired (timer : TimerId) (wakeup : Wakeup)
  | opened (all : Bool)
  | fired (id : ActorId)
  | cycled (report : CycleReport)

structure Moment (σ : Type) where
  before : Scheduler σ
  mark : Mark σ
  after : Scheduler σ

namespace Scheduler

variable {σ : Type}

def obeying (s : Scheduler σ) (command : Command) : Moment σ := ⟨s, .obeyed command, (s.obey command).value⟩

def obeyingEach : List Command → Scheduler σ → List (Moment σ)
  | [], _ => []
  | command :: commands, s => s.obeying command :: obeyingEach commands (s.obey command).value

def draining (s : Scheduler σ) : List (Moment σ) := obeyingEach s.inbox { s with inbox := [] }

def beginning (s : Scheduler σ) : Moment σ := ⟨s, .begun, s.scheduleImmediate true⟩

def operating (s : Scheduler σ) (operation : Registry.Operation σ) : Moment σ :=
  ⟨s, .operated operation, { s with registry := s.registry.operate operation }⟩

def opening (s : Scheduler σ) (all : Bool) : Moment σ := ⟨s, .opened all, s.openCycle all⟩

def firingEach (only : Option ActorSet) : List ActorId → Scheduler σ × Sweep → List (Moment σ)
  | [], _ => []
  | id :: ids, (s, sweep) =>
    if only.all (·.contains id) then
      ⟨s, .fired id, (s.fireOne sweep id).value.1⟩ :: firingEach only ids (s.fireOne sweep id).value
    else firingEach only ids (s, sweep)

def closing (s : Scheduler σ) (cycle : Nat) (all active : Bool) : List (Moment σ) :=
  firingEach (s.scope all) s.registry.enabled (s.takePending.2, {}) ++
    [⟨s, .cycled (s.closeCycle cycle all active).2, (s.closeCycle cycle all active).1⟩]

def cycling (s : Scheduler σ) (all : Bool) : List (Moment σ) :=
  s.opening all :: (s.openCycle all).draining ++
    (s.openCycle all).drain.value.closing (s.beginCycle all).cycle all (s.beginCycle all).pollMonitor.1

def expire (s : Scheduler σ) (timers : TimerQueue Wakeup) : Wakeup → Scheduler σ
  | .cycle _ => { s with timers }
  | .heartbeat => { s with
      timers
      heartbeat := none
      stats := { s.stats with heartbeatsExpired := countUp s.stats.heartbeatsExpired } }
  | .halt => { s with timers, halted := true }

def waking (s : Scheduler σ) : Wakeup → List (Moment σ)
  | .cycle all => s.cycling all
  | .heartbeat => [s.obeying (.trigger .zero .all)]
  | .halt => []

def serving (s : Scheduler σ) : List (Moment σ) :=
  if s.halted then []
  else
    match s.timers.popDue s.now with
    | (none, _) => []
    | (some (id, wakeup), timers) =>
      ⟨s, .expired id wakeup, s.expire timers wakeup⟩ :: (s.expire timers wakeup).waking wakeup

def stepping (s : Scheduler σ) : List (Moment σ) := s.draining ++ s.drain.value.serving

theorem mark_of_mem_obeyingEach {commands : List Command} {s : Scheduler σ} {m : Moment σ}
    (h : m ∈ obeyingEach commands s) : ∃ command, m.mark = .obeyed command := by
  induction commands generalizing s with
  | nil => cases h
  | cons command commands ih =>
    rcases List.mem_cons.mp h with rfl | hrest
    · exact ⟨command, rfl⟩
    · exact ih hrest

theorem mark_of_mem_firingEach {only : Option ActorSet} {ids : List ActorId} {state : Scheduler σ × Sweep}
    {m : Moment σ} (h : m ∈ firingEach only ids state) : ∃ id ∈ ids, m.mark = .fired id := by
  induction ids generalizing state with
  | nil => cases h
  | cons id ids ih =>
    have hlater : ∀ {state : Scheduler σ × Sweep}, m ∈ firingEach only ids state →
        ∃ other ∈ id :: ids, m.mark = .fired other := by
      intro state hm
      obtain ⟨other, hother, hmark⟩ := ih hm
      exact ⟨other, List.mem_cons_of_mem _ hother, hmark⟩
    rw [firingEach] at h
    split at h
    · rcases List.mem_cons.mp h with rfl | hrest
      · exact ⟨id, List.mem_cons_self, rfl⟩
      · exact hlater hrest
    · exact hlater h

def serve (s : Scheduler σ) : Scheduler σ × Step :=
  if s.halted then (s, .halted)
  else
    match s.timers.popDue s.now with
    | (none, timers) => ({ s with timers }, .nothing)
    | (some (_, wakeup), timers) => (({ s with timers } : Scheduler σ).wake wakeup).value

theorem step_value (s : Scheduler σ) : s.step.value = s.drain.value.serve := by
  unfold step serve
  rw [Logged.value_bind]
  split
  · rfl
  · rcases s.drain.value.timers.popDue s.drain.value.now with ⟨_ | due, timers⟩ <;> rfl

def goesOn : Step → Bool
  | .nothing | .halted => false
  | .heartbeat | .cycle _ => true

def steppingEach : Nat → Scheduler σ → List (Moment σ)
  | 0, _ => []
  | steps + 1, s =>
    s.stepping ++ if goesOn s.step.value.2 then steppingEach steps s.step.value.1 else []

theorem runSteps_fst (steps : Nat) (s : Scheduler σ) :
    (runSteps (steps + 1) s).value.1 =
      if goesOn s.step.value.2 then (runSteps steps s.step.value.1).value.1 else s.step.value.1 := by
  rw [runSteps, Logged.value_bind]
  rcases s.step.value with ⟨s', step⟩
  cases step <;> rfl

theorem turn_fst (steps : Nat) (s : Scheduler σ) : (turn steps s).value.1 = (runSteps steps s).value.1 := by
  suffices h : ∀ state, (turnFrom state steps s).value.1 = (runSteps steps s).value.1 from h .quiet
  induction steps generalizing s with
  | zero => exact fun _ => rfl
  | succ steps ih =>
    intro state
    rw [runSteps_fst, turnFrom, Logged.value_bind]
    rcases s.step.value with ⟨s', step⟩
    cases step with
    | nothing | halted => rfl
    | cycle | heartbeat => exact ih s' .busy

inductive Pause (σ : Type) where
  | over (s : Scheduler σ)
  | on (s : Scheduler σ) (outside : Outside)
  | order (s : Scheduler σ) (outside : Outside) (command : Command)

def pause (outside : Outside) (s : Scheduler σ) : Turn → Pause σ
  | .halted => .over s
  | .busy =>
    if outside.isOver then .over s else .on (s.collect outside).1 (s.collect outside).2
  | .quiet =>
    let looked := { s with timers := s.timers.nextDeadline.2 }
    match outside.awakening (s.timers.nextDeadline.1.map looked.waitFor) with
    | .command arrival arrivals =>
      let (woken, outside) := looked.sleepUntil arrival.time { outside with arrivals }
      .order (woken.collect outside).1 (woken.collect outside).2 arrival.command
    | .deadline t => .on (looked.sleepUntil t outside).1 (looked.sleepUntil t outside).2
    | .limit t => .over (looked.sleepUntil t outside).1
    | .never => .over looked

def pausing (outside : Outside) (s : Scheduler σ) : Pause σ :=
  let (after, turn) := (turn s.config.maxCyclesPerTurn s).value
  pause outside after turn

def looping : Nat → Outside → Scheduler σ → List (Moment σ)
  | 0, _, _ => []
  | fuel + 1, outside, s =>
    steppingEach s.config.maxCyclesPerTurn s ++
      match pausing outside s with
      | .over _ => []
      | .on after outside => looping fuel outside after
      | .order after outside command =>
        after.obeying command :: looping fuel outside (after.obey command).value

theorem runLoop_fst (fuel : Nat) (outside : Outside) (s : Scheduler σ) :
    (runLoop (fuel + 1) outside s).value.1 =
      match pausing outside s with
      | .over after => after
      | .on after outside => (runLoop fuel outside after).value.1
      | .order after outside command => (runLoop fuel outside (after.obey command).value).value.1 := by
  rw [runLoop, Logged.value_bind, pausing]
  rcases (turn s.config.maxCyclesPerTurn s).value with ⟨after, turn⟩
  cases turn with
  | halted => rfl
  | busy =>
    unfold pause
    dsimp only
    cases outside.isOver <;> rfl
  | quiet =>
    unfold pause
    dsimp only
    generalize outside.awakening _ = awakening
    cases awakening <;> rfl

def running (fuel : Nat) (outside : Outside) (s : Scheduler σ) : List (Moment σ) :=
  s.draining ++
    let s := s.drain.value
    if !s.done && s.scheduledCycles = 0 then
      s.beginning :: looping fuel outside (s.scheduleImmediate true)
    else looping fuel outside s

def arrival (change : Edit σ) (answer : Except ActorError (Reply σ)) : Option ActorId :=
  match change, answer with
  | .completeMigration id, .ok _ => some id
  | _, _ => none

def editing (s : Scheduler σ) (change : Edit σ) (fits : change.Fits) : List (Moment σ) :=
  let edited := s.operating (.edit change fits)
  edited ::
    match arrival change (s.registry.edit change).value.2 with
    | some id => [edited.after.obeying (.trigger .zero (.one id))]
    | none => []

theorem edit_fst (s : Scheduler σ) (change : Edit σ) :
    (s.edit change).value.1 =
      let edited : Scheduler σ := { s with registry := (s.registry.edit change).value.1 }
      match arrival change (s.registry.edit change).value.2 with
      | some id => (edited.obey (.trigger .zero (.one id))).value
      | none => edited := by
  unfold edit arrival
  rw [Logged.value_bind]
  rcases (s.registry.edit change).value with ⟨registry, answer⟩
  cases change with
  | completeMigration id => cases answer <;> rfl
  | _ => rfl

def perform (s : Scheduler σ) : Call σ → Scheduler σ
  | .trigger delay targets => (s.trigger delay targets).value
  | .stop => s.stop.value
  | .send command => s.send command
  | .step => s.step.value.1
  | .runDue => s.runDue.value.1
  | .loopOnce all => (s.loopOnce all).value.1
  | .run fuel outside => (run fuel outside s).value.1
  | .edit change _ => (s.edit change).value.1
  | .operate operation => { s with registry := s.registry.operate operation }
  | .tick time => if s.now ≤ time then { s with now := time } else s

def moments (s : Scheduler σ) : Call σ → List (Moment σ)
  | .trigger delay targets => [s.obeying (.trigger delay targets)]
  | .stop => [s.obeying .stop]
  | .send _ | .tick _ => []
  | .step => s.stepping
  | .runDue => steppingEach s.config.maxCyclesPerTurn s
  | .loopOnce all => s.cycling all
  | .run fuel outside => running fuel outside s
  | .edit change fits => s.editing change fits
  | .operate operation => [s.operating operation]

def performAll (s : Scheduler σ) (calls : List (Call σ)) : Scheduler σ := calls.foldl perform s

def history : Scheduler σ → List (Call σ) → List (Moment σ)
  | _, [] => []
  | s, call :: calls => s.moments call ++ history (s.perform call) calls

end Scheduler

/-- A run of a scheduler: a registry comes about, a scheduler is made for it, and calls follow. -/
structure Run (σ : Type) where
  setup : List (Registry.Operation σ)
  config : Config
  valid : config.fault? = none
  monitor : Monitor
  clock : Instant
  calls : List (Call σ)

namespace Run

variable {σ : Type}

def registry (run : Run σ) : Registry σ := Registry.empty.after run.setup

def start (run : Run σ) : Scheduler σ where
  config := run.config
  registry := run.registry
  monitor := run.monitor
  now := run.clock

def state (run : Run σ) : Scheduler σ := run.start.performAll run.calls

def history (run : Run σ) : List (Moment σ) := run.start.history run.calls

theorem new_start (run : Run σ) :
    (Scheduler.new run.registry run.config).map ({ · with monitor := run.monitor, now := run.clock }) =
      .ok run.start := by
  unfold Scheduler.new Config.validate
  rw [run.valid]
  rfl

end Run

end ActorNet
