import ActorNet.Proofs.Answers
import ActorNet.Proofs.Reports
import ActorNet.Proofs.Revision

set_option autoImplicit false

/-!
# Tracing is only told

Two schedulers that differ in nothing but whether triggers are traced go side by side. Whatever is done with both, they
differ in nothing else afterwards and give the same answers. Their journals have the same entries in the same order,
except that tracing adds two events to each trigger and tells the cause of a failed firing with it.
-/
namespace ActorNet

variable {σ : Type} {α β α' β' : Type}

def Entry.isPlain : Entry → Bool
  | .hook _ (.trigger ..) | .event (.triggerRequested ..) | .event .triggerProvenance
  | .event (.firingFailed ..) => false
  | _ => true

/-- What is written with tracing where an entry is written without. -/
inductive Entry.Retold : Entry → List Entry → Prop
  | same {entry : Entry} (plain : entry.isPlain = true) : Retold entry [entry]
  | trigger (time : Instant) (delay : Duration) (targets : Targets) :
    Retold (.hook time (.trigger delay targets)) [.hook time (.trigger delay targets),
      .event (.triggerRequested delay targets), .event .triggerProvenance]
  | failure (id : ActorId) (e : FiringError) :
    Retold (.event (.firingFailed id e.message)) [.event (.firingFailed id e.chain)]

inductive Retold : List Entry → List Entry → Prop
  | nil : Retold [] []
  | cons {entry : Entry} {entries journal journal' : List Entry} (first : entry.Retold entries)
    (rest : Retold journal journal') : Retold (entry :: journal) (entries ++ journal')

theorem Retold.append {first first' second second' : List Entry} (h : Retold first first')
    (h' : Retold second second') : Retold (first ++ second) (first' ++ second') := by
  induction h with
  | nil => exact h'
  | cons hentry _ ih =>
    rw [List.append_assoc]
    exact .cons hentry ih

theorem Retold.single {entry : Entry} {entries : List Entry} (h : entry.Retold entries) : Retold [entry] entries := by
  rw [← entries.append_nil]
  exact .cons h .nil

theorem Retold.same {journal : List Entry} (plain : ∀ entry ∈ journal, entry.isPlain = true) :
    Retold journal journal := by
  induction journal with
  | nil => exact .nil
  | cons entry journal ih =>
    obtain ⟨hentry, hjournal⟩ := List.forall_mem_cons.mp plain
    exact .cons (.same hentry) (ih hjournal)

namespace Logged

def Plain (x : Logged α) : Prop := ∀ entry ∈ x.journal, entry.isPlain = true

theorem plain_pure (a : α) : Plain (pure a) := nofun

theorem Plain.bind {x : Logged α} {f : α → Logged β} (h : x.Plain) (hrest : (f x.value).Plain) : (x >>= f).Plain := by
  intro entry hentry
  rcases List.mem_append.mp hentry with hentry | hentry
  · exact h entry hentry
  · exact hrest entry hentry

theorem plain_notes {events : List Event} (h : ∀ event ∈ events, (Entry.event event).isPlain = true) :
    Plain (notes events) := by
  intro entry hentry
  obtain ⟨event, hevent, rfl⟩ := List.mem_map.mp hentry
  exact h event hevent

theorem plain_write {entry : Entry} (h : entry.isPlain = true) : Plain (write entry) := by
  intro other hother
  rwa [List.mem_singleton.mp hother]

/-- Values in a relation, written down without tracing and with it. -/
structure Twins (R : α → β → Prop) (x : Logged α) (y : Logged β) : Prop where
  value : R x.value y.value
  journal : Retold x.journal y.journal

namespace Twins

variable {R : α → β → Prop} {R' : α' → β' → Prop} {x : Logged α} {y : Logged β}

theorem pure {a : α} {b : β} (h : R a b) : Twins R (Pure.pure a) (Pure.pure b) := ⟨h, .nil⟩

theorem bind {f : α → Logged α'} {g : β → Logged β'} (h : Twins R x y) (hrest : ∀ a b, R a b → Twins R' (f a) (g b)) :
    Twins R' (x >>= f) (y >>= g) where
  value := (hrest _ _ h.value).value
  journal := h.journal.append (hrest _ _ h.value).journal

theorem map {f : α → α'} {g : β → β'} (h : Twins R x y) (hvalue : ∀ a b, R a b → R' (f a) (g b)) :
    Twins R' (f <$> x) (g <$> y) := ⟨hvalue _ _ h.value, h.journal⟩

theorem same (plain : x.Plain) : Twins Eq x x := ⟨rfl, .same plain⟩

theorem write {entry : Entry} (plain : entry.isPlain = true) : Twins Eq (Logged.write entry) (Logged.write entry) :=
  .same (plain_write plain)

end Twins

end Logged

theorem Actor.fire_plain (actor : Actor σ) : actor.fire.Plain := by
  unfold fire
  refine .bind (Logged.plain_notes fun event hevent => ?_) ?_
  · obtain ⟨⟨action, obstacle⟩, -, rfl⟩ := List.mem_map.mp hevent
    cases obstacle <;> rfl
  · rcases (Action.select actor.ports actor.state actor.kind.actions).2 with _ | ⟨action, control⟩
    · exact Logged.plain_pure _
    · dsimp only
      rcases actor.run action control with ⟨actor', (_ | production) | e | payload⟩
      · exact (Logged.plain_write rfl).bind (Logged.plain_pure _)
      · exact (Logged.plain_write rfl).bind (Logged.plain_pure _)
      · exact Logged.plain_pure _
      · exact Logged.plain_pure _

theorem Registry.fireActor_plain (r : Registry σ) (id : ActorId) : (r.fireActor id).Plain := by
  unfold fireActor
  rcases r.actor? id with _ | actor
  · exact Logged.plain_pure _
  · refine actor.fire_plain.bind ?_
    rcases actor.fire.value with ⟨actor', result | e | payload⟩
    · dsimp only
      split <;> exact Logged.plain_pure _
    · exact Logged.plain_pure _
    · exact Logged.plain_pure _

theorem Registry.edit_plain (r : Registry σ) (change : Edit σ) : (r.edit change).Plain := by
  unfold edit
  dsimp only
  split
  · refine (Logged.plain_notes ?_).bind (Logged.plain_pure _)
    cases change <;> simp [changeEvents, Entry.isPlain]
  · exact Logged.plain_pure _

theorem Registry.respond_plain (r : Registry σ) (operation : Operation σ) : (r.respond operation).Plain := by
  cases operation with
  | edit change fits => exact r.edit_plain change
  | fire id => exact r.fireActor_plain id

namespace Scheduler

abbrev traced (s : Scheduler σ) (on : Bool) : Scheduler σ := s.revised { traceTriggers := fun _ => on }

/-- Two schedulers that differ in nothing but whether triggers are traced. -/
inductive Twin : Scheduler σ → Scheduler σ → Prop
  | of (s : Scheduler σ) : Twin (s.traced false) (s.traced true)

inductive TwinWith : Scheduler σ × α → Scheduler σ × α → Prop
  | of (s : Scheduler σ) (a : α) : TwinWith (s.traced false, a) (s.traced true, a)

variable (s : Scheduler σ)

theorem scheduleImmediate_twin (all : Bool) :
    Twin ((s.traced false).scheduleImmediate all) ((s.traced true).scheduleImmediate all) := by
  rw [scheduleImmediate_revised, scheduleImmediate_revised]
  exact .of _

theorem requestActors_twins (ids : Std.ExtTreeSet (Option ActorId) compare) :
    Logged.Twins Twin ((s.traced false).requestActors ids) ((s.traced true).requestActors ids) := by
  let joined := s.join ids
  change Logged.Twins Twin (if joined.isMarkerOnly = true then _ else _) (if joined.isMarkerOnly = true then _ else _)
  split
  · exact (Logged.Twins.write rfl).bind fun _ _ _ => .pure (.of joined.drop)
  · exact .pure (joined.scheduleImmediate_twin false)

theorem announce_twins (delay : Duration) (targets : Targets) :
    Logged.Twins (fun _ _ => True) ((s.traced false).announce delay targets) ((s.traced true).announce delay targets) :=
  ⟨trivial, .single (.trigger s.now delay targets)⟩

theorem trigger_twins (delay : Duration) (targets : Targets) :
    Logged.Twins Twin ((s.traced false).trigger delay targets) ((s.traced true).trigger delay targets) := by
  refine (s.announce_twins delay targets).bind fun _ _ _ => ?_
  change Logged.Twins Twin (if s.done = true then _ else _) (if s.done = true then _ else _)
  split
  · exact (Logged.Twins.write rfl).bind fun _ _ _ => .pure (.of s)
  · split
    · exact (Logged.Twins.write rfl).bind fun _ _ _ => .pure (.of (s.schedule delay (.cycle true)).2)
    · cases targets with
      | all => exact .pure (s.scheduleImmediate_twin true)
      | actors ids => exact s.requestActors_twins ids

theorem stop_twins : Logged.Twins Twin (s.traced false).stop (s.traced true).stop := by
  change Logged.Twins Twin (if s.done = true then _ else _) (if s.done = true then _ else _)
  split
  · exact .pure (.of s)
  · exact (Logged.Twins.write rfl).bind fun _ _ _ => .pure (.of { (s.schedule .zero .halt).2 with done := true })

theorem obey_twins (command : Command) :
    Logged.Twins Twin ((s.traced false).obey command) ((s.traced true).obey command) := by
  cases command with
  | trigger delay targets => exact s.trigger_twins delay targets
  | stop => exact s.stop_twins

theorem drain_twins : Logged.Twins Twin (s.traced false).drain (s.traced true).drain := by
  have hfold : ∀ (commands : List Command) (s : Scheduler σ),
      Logged.Twins Twin (commands.foldlM obey (s.traced false)) (commands.foldlM obey (s.traced true)) := by
    intro commands
    induction commands with
    | nil => exact fun s => .pure (.of s)
    | cons command commands ih =>
      intro s
      rw [List.foldlM_cons, List.foldlM_cons]
      refine (s.obey_twins command).bind ?_
      rintro _ _ ⟨s⟩
      exact ih s
  exact hfold s.inbox { s with inbox := [] }

theorem fireOne_twins (sweep : Sweep) (id : ActorId) :
    Logged.Twins TwinWith ((s.traced false).fireOne sweep id) ((s.traced true).fireOne sweep id) := by
  refine (Logged.Twins.same (s.registry.fireActor_plain id)).bind ?_
  rintro ⟨registry, outcome⟩ _ rfl
  dsimp only
  rcases outcomeOf id outcome with e | result
  -- The log has the error in two wordings; the hook is given the error itself.
  · have herror : Logged.Twins (fun _ _ => True) (Logged.note (.firingFailed id e.message))
        (Logged.note (.firingFailed id e.chain)) := ⟨trivial, .single (.failure id e)⟩
    refine herror.bind fun _ _ _ => (Logged.Twins.write rfl).bind fun _ _ _ => .pure ?_
    exact .of { s with registry, stats := { s.stats with fireErrors := countUp s.stats.fireErrors } } _
  · exact (Logged.Twins.write rfl).bind fun _ _ _ => .pure (.of { s with registry } _)

theorem fireEach_twins (only : Option ActorSet) (ids : List ActorId) (sweep : Sweep) :
    Logged.Twins TwinWith (fireEach only ids (s.traced false, sweep)) (fireEach only ids (s.traced true, sweep)) := by
  induction ids generalizing s sweep with
  | nil => exact .pure (.of s sweep)
  | cons id ids ih =>
    rw [fireEach, fireEach]
    split
    · refine (s.fireOne_twins sweep id).bind ?_
      rintro _ _ ⟨s, sweep⟩
      exact ih s sweep
    · exact (Logged.Twins.write rfl).bind fun _ _ _ => ih s sweep

theorem loopOnce_twins (all : Bool) :
    Logged.Twins TwinWith ((s.traced false).loopOnce all) ((s.traced true).loopOnce all) := by
  refine (Logged.Twins.write rfl).bind fun _ _ _ => (s.openCycle all).drain_twins.bind ?_
  rintro _ _ ⟨s⟩
  rw [takePending_revised, takePending_revised]
  refine (s.takePending.2.fireEach_twins _ _ {}).bind ?_
  rintro _ _ ⟨s, sweep⟩
  dsimp only
  rw [countFiring_revised, countFiring_revised, follow_revised, follow_revised]
  exact (Logged.Twins.write rfl).bind fun _ _ _ => .pure (.of _ _)

theorem expireHeartbeat_twins : Logged.Twins Twin (s.traced false).expireHeartbeat (s.traced true).expireHeartbeat :=
  (Logged.Twins.write rfl).bind fun _ _ _ => trigger_twins
    { s with
      heartbeat := none
      stats := { s.stats with heartbeatsExpired := countUp s.stats.heartbeatsExpired } } .zero .all

theorem wake_twins (wakeup : Wakeup) :
    Logged.Twins TwinWith ((s.traced false).wake wakeup) ((s.traced true).wake wakeup) := by
  cases wakeup with
  | cycle all =>
    refine (s.loopOnce_twins all).bind ?_
    rintro _ _ ⟨s, report⟩
    exact .pure (.of s _)
  | heartbeat =>
    refine s.expireHeartbeat_twins.bind ?_
    rintro _ _ ⟨s⟩
    exact .pure (.of s _)
  | halt => exact (Logged.Twins.write rfl).bind fun _ _ _ => .pure (.of { s with halted := true } _)

theorem step_twins : Logged.Twins TwinWith (s.traced false).step (s.traced true).step := by
  refine s.drain_twins.bind ?_
  rintro _ _ ⟨s⟩
  change Logged.Twins TwinWith (if s.halted = true then _ else _) (if s.halted = true then _ else _)
  split
  · exact .pure (.of s _)
  · have hpop (on : Bool) : (s.traced on).timers.popDue (s.traced on).now = s.timers.popDue s.now := rfl
    rw [hpop, hpop]
    rcases s.timers.popDue s.now with ⟨_ | ⟨id, wakeup⟩, timers⟩
    · exact .pure (.of { s with timers } Step.nothing)
    · exact wake_twins { s with timers } wakeup

theorem runSteps_twins (steps : Nat) :
    Logged.Twins TwinWith (runSteps steps (s.traced false)) (runSteps steps (s.traced true)) := by
  induction steps generalizing s with
  | zero => exact .pure (.of s _)
  | succ steps ih =>
    refine s.step_twins.bind ?_
    rintro _ _ ⟨s, step⟩
    cases step with
    | nothing | halted => exact .pure (.of s _)
    | heartbeat => exact ih s
    | cycle report =>
      refine (ih s).map ?_
      rintro _ _ ⟨s, reports⟩
      exact .of s _

theorem turn_twins (steps : Nat) :
    Logged.Twins TwinWith (turn steps (s.traced false)) (turn steps (s.traced true)) := by
  suffices h : ∀ state, Logged.Twins TwinWith (turnFrom state steps (s.traced false))
      (turnFrom state steps (s.traced true)) from h .quiet
  induction steps generalizing s with
  | zero => exact fun state => .pure (.of s state)
  | succ steps ih =>
    intro state
    refine s.step_twins.bind ?_
    rintro _ _ ⟨s, step⟩
    cases step with
    | nothing | halted => exact .pure (.of s _)
    | cycle | heartbeat => exact ih s .busy

theorem sleepUntil_traced (t : Instant) (outside : Outside) (on : Bool) :
    (s.traced on).sleepUntil t outside = ((s.sleepUntil t outside).1.traced on, (s.sleepUntil t outside).2) := by
  unfold sleepUntil
  cases outside.clockStands <;> rfl

theorem runLoop_twins (fuel : Nat) (outside : Outside) :
    Logged.Twins TwinWith (runLoop fuel outside (s.traced false)) (runLoop fuel outside (s.traced true)) := by
  induction fuel generalizing s outside with
  | zero => exact .pure (.of s _)
  | succ fuel ih =>
    refine (s.turn_twins s.config.maxCyclesPerTurn).bind ?_
    rintro _ _ ⟨s, turn⟩
    cases turn with
    | halted => exact .pure (.of s _)
    | busy =>
      dsimp only
      split
      · exact .pure (.of s _)
      · exact ih (s.collect outside).1 (s.collect outside).2
    | quiet =>
      have hlook (on : Bool) : (s.traced on).timers.nextDeadline = s.timers.nextDeadline := rfl
      dsimp only
      rw [hlook, hlook]
      rcases s.timers.nextDeadline with ⟨deadline, timers⟩
      let looked := { s with timers }
      have hlooked (on : Bool) : { s.traced on with timers } = looked.traced on := rfl
      have hwait (on : Bool) : (looked.traced on).waitFor = looked.waitFor := rfl
      dsimp only
      rw [hlooked, hlooked, hwait, hwait]
      rcases outside.awakening (deadline.map looked.waitFor) with ⟨arrival, arrivals⟩ | t | t | _
      · dsimp only
        rw [sleepUntil_traced, sleepUntil_traced]
        let woken := looked.sleepUntil arrival.time { outside with arrivals }
        refine ((woken.1.collect woken.2).1.obey_twins arrival.command).bind ?_
        rintro _ _ ⟨s⟩
        exact ih s _
      · dsimp only
        rw [sleepUntil_traced, sleepUntil_traced]
        exact ih _ _
      · dsimp only
        rw [sleepUntil_traced, sleepUntil_traced]
        exact .pure (.of _ _)
      · exact .pure (.of looked (outside, Ending.unfinished))

theorem run_twins (fuel : Nat) (outside : Outside) :
    Logged.Twins TwinWith (run fuel outside (s.traced false)) (run fuel outside (s.traced true)) := by
  refine (Logged.Twins.write rfl).bind fun _ _ _ => s.drain_twins.bind ?_
  rintro _ _ ⟨s⟩
  have hbegins (on : Bool) : (!(s.traced on).done && decide ((s.traced on).scheduledCycles = 0)) =
      (!s.done && decide (s.scheduledCycles = 0)) := rfl
  rw [hbegins, hbegins]
  split
  · dsimp only
    rw [scheduleImmediate_revised, scheduleImmediate_revised]
    exact runLoop_twins _ fuel outside
  · exact s.runLoop_twins fuel outside

theorem Twin.answered {x y : Logged (Scheduler σ)} (h : Logged.Twins Twin x y) (answer : Answer σ) :
    Logged.Twins TwinWith ((·, answer) <$> x) ((·, answer) <$> y) := by
  refine h.map ?_
  rintro _ _ ⟨s⟩
  exact .of s answer

theorem TwinWith.answered {x y : Logged (Scheduler σ × α)} (h : Logged.Twins TwinWith x y) (answer : α → Answer σ) :
    Logged.Twins TwinWith (Prod.map id answer <$> x) (Prod.map id answer <$> y) := by
  refine h.map ?_
  rintro _ _ ⟨s, a⟩
  exact .of s (answer a)

theorem edit_twins (change : Edit σ) :
    Logged.Twins TwinWith ((s.traced false).edit change) ((s.traced true).edit change) := by
  refine (Logged.Twins.same (s.registry.edit_plain change)).bind ?_
  rintro ⟨registry, answer⟩ _ rfl
  let edited := { s with registry }
  have harrived (id : ActorId) : Logged.Twins TwinWith
      (do return (← (edited.traced false).trigger .zero (.one id), answer))
      (do return (← (edited.traced true).trigger .zero (.one id), answer)) := by
    refine (edited.trigger_twins .zero (.one id)).bind ?_
    rintro _ _ ⟨s⟩
    exact .pure (.of s answer)
  cases change with
  | completeMigration id =>
    cases answer with
    | ok reply => exact harrived id
    | error e => exact .pure (.of edited _)
  | _ => exact .pure (.of edited answer)

theorem respond_twins (call : Call σ) :
    Logged.Twins TwinWith ((s.traced false).respond call) ((s.traced true).respond call) := by
  cases call with
  | trigger delay targets => exact Twin.answered (s.trigger_twins delay targets) .done
  | stop => exact Twin.answered s.stop_twins .done
  | send command => exact .pure (.of (s.send command) Answer.done)
  | step => exact TwinWith.answered s.step_twins .stepped
  | runDue => exact TwinWith.answered (s.runSteps_twins s.config.maxCyclesPerTurn) .reported
  | loopOnce all => exact TwinWith.answered (s.loopOnce_twins all) .cycled
  | run fuel outside => exact TwinWith.answered (s.run_twins fuel outside) _
  | edit change fits => exact TwinWith.answered (s.edit_twins change) .replied
  | operate operation =>
    refine (Logged.Twins.same (s.registry.respond_plain operation)).map ?_
    rintro ⟨registry, answer⟩ _ rfl
    exact .of { s with registry } answer
  | tick time =>
    have hnow (on : Bool) : (s.traced on).now = s.now := rfl
    refine .pure ?_
    rw [hnow, hnow]
    split
    · exact .of { s with now := time } Answer.done
    · exact .of s Answer.done

/-- After each of any calls, two schedulers that differ in nothing but whether triggers are traced differ in nothing
else, they have given the same answer, and what they have written tells the same. -/
theorem tracing_only_told (calls : List (Call σ)) :
    List.Forall₂ (Logged.Twins TwinWith) ((s.traced false).conversation calls) ((s.traced true).conversation calls) := by
  induction calls generalizing s with
  | nil => exact .nil
  | cons call calls ih =>
    have hfirst := s.respond_twins call
    rw [conversation, conversation, ← respond_fst, ← respond_fst]
    refine .cons hfirst ?_
    have hnext := hfirst.value
    generalize ((s.traced false).respond call).value = plain at hnext
    generalize ((s.traced true).respond call).value = traced at hnext
    obtain ⟨s, answer⟩ := hnext
    exact ih s

end Scheduler

end ActorNet
