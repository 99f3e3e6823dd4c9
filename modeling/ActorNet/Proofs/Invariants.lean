import ActorNet.Proofs.History

set_option autoImplicit false

/-!
# Invariants of runs

An invariant may depend on the history so far, and on the stage that the scheduler is in. `Kept` lists what
each part of the scheduler has to do for it; `Run.invariant` is the induction over all calls, once for all
invariants. That the timers stay sound comes with it.
-/
namespace ActorNet

variable {σ : Type}

/-- Between steps; after a heartbeat has expired and before it asks for a sweep; on the way to the end of a
cycle, whose timer may have gone. -/
inductive Stage where
  | rest
  | lapse
  | cycle
deriving DecidableEq

def Stage.upon : Wakeup → Stage
  | .cycle _ => cycle
  | .heartbeat => lapse
  | .halt => rest

namespace Scheduler

/-- Nothing has taken effect: only the inbox, the clock and dead places on the agenda have changed. -/
structure Quiet (s s' : Scheduler σ) : Prop where
  eq : s' = { s with inbox := s'.inbox, now := s'.now, timers := s'.timers }
  later : s.now ≤ s'.now
  timers : s.timers.Same s'.timers

theorem Quiet.inbox (s : Scheduler σ) (inbox : List Command) : s.Quiet { s with inbox } :=
  ⟨rfl, Nat.le_refl _, .refl _⟩

theorem Quiet.now (s : Scheduler σ) {now : Instant} (later : s.now ≤ now) : s.Quiet { s with now } :=
  ⟨rfl, later, .refl _⟩

theorem Quiet.ofSame (s : Scheduler σ) {timers : TimerQueue Wakeup} (same : s.timers.Same timers) :
    s.Quiet { s with timers } :=
  ⟨rfl, Nat.le_refl _, same⟩

def Pause.After (s : Scheduler σ) : Pause σ → Prop
  | .over after | .on after _ | .order after _ _ => s.Quiet after

theorem Quiet.trans {s s' s'' : Scheduler σ} (h : s.Quiet s') (h' : s'.Quiet s'') : s.Quiet s'' where
  eq := by
    rw [h'.eq, h.eq]
  later := Nat.le_trans h.later h'.later
  timers :=
    { live := h'.timers.live.trans h.timers.live
      pending := h'.timers.pending.trans h.timers.pending
      nextNumber := h'.timers.nextNumber.trans h.timers.nextNumber
      sound := fun sound => h'.timers.sound (h.timers.sound sound) }

theorem sleepUntil_quiet (s : Scheduler σ) (t : Instant) (outside : Outside) :
    s.Quiet (s.sleepUntil t outside).1 := by
  unfold sleepUntil
  by_cases hstands : outside.clockStands = true
  · rw [if_pos hstands]
    exact .inbox s s.inbox
  · rw [if_neg hstands]
    exact .now s (Instant.le_after _ _)

theorem pause_quiet (outside : Outside) (s : Scheduler σ) (turn : Turn) :
    (pause outside s turn).After s := by
  cases turn with
  | halted => exact Quiet.inbox s s.inbox
  | busy =>
    unfold pause
    dsimp only
    by_cases hover : outside.isOver = true
    · rw [if_pos hover]
      exact Quiet.inbox s s.inbox
    · rw [if_neg hover]
      exact Quiet.inbox s _
  | quiet =>
    have hlooked := Quiet.ofSame s s.timers.same_nextDeadline
    unfold pause
    dsimp only
    generalize outside.awakening _ = awakening
    cases awakening with
    | command arrival arrivals =>
      exact (hlooked.trans (sleepUntil_quiet _ _ _)).trans (Quiet.inbox _ _)
    | deadline t | limit t => exact hlooked.trans (sleepUntil_quiet _ _ _)
    | never => exact hlooked

section Sound

variable {s s' : Scheduler σ}

theorem dropImmediate_sound (sound : s.timers.Sound) : s.dropImmediate.timers.Sound :=
  cancel_sound sound s.immediate

theorem renewImmediate_sound (sound : s.timers.Sound) (all : Bool) : (s.renewImmediate all).timers.Sound :=
  schedule_sound (dropImmediate_sound sound) .zero (.cycle all)

theorem scheduleImmediate_sound (sound : s.timers.Sound) (all : Bool) :
    (s.scheduleImmediate all).timers.Sound := by
  rw [scheduleImmediate_eq]
  split
  · exact sound
  · exact renewImmediate_sound sound all

theorem cancelHeartbeat_sound (sound : s.timers.Sound) : s.cancelHeartbeat.timers.Sound :=
  cancel_sound sound s.heartbeat

theorem armHeartbeat_sound (sound : s.timers.Sound) : s.armHeartbeat.timers.Sound :=
  schedule_sound (cancelHeartbeat_sound sound) s.cancelHeartbeat.config.heartbeat .heartbeat

theorem Obeyed.sound {command : Command} (h : s.Obeyed command s') (sound : s.timers.Sound) :
    s'.timers.Sound := by
  cases h with
  | ignored | stopAgain | dropped => exact sound
  | delayed delay => exact schedule_sound sound delay (.cycle true)
  | sweep => exact renewImmediate_sound sound true
  | joined delay ids => exact scheduleImmediate_sound (s := s.join ids) sound false
  | stop => exact schedule_sound sound .zero .halt

theorem Taken.sound (h : s.Taken s') (sound : s.timers.Sound) : s'.timers.Sound := by
  cases h with
  | gone | sweep => exact sound
  | narrow => exact dropImmediate_sound (s := s.clear) sound

theorem Followed.sound {result : FiringResult} {active : Bool} {next : NextCycle}
    (h : s.Followed result active next s') (sound : s.timers.Sound) : s'.timers.Sound := by
  cases h with
  | stopped => exact sound
  | fired => exact scheduleImmediate_sound (s := s.cancelHeartbeat.gather _) (cancelHeartbeat_sound sound) false
  | active => exact renewImmediate_sound (cancelHeartbeat_sound sound) true
  | quiet => exact armHeartbeat_sound sound

theorem swept_sound (sound : s.timers.Sound) (all : Bool) : (s.swept all).timers.Sound := by
  obtain ⟨registry, stats, hswept⟩ := s.swept_frame all
  rw [hswept]
  exact s.takePending_taken.sound sound

theorem closeCycle_sound (sound : s.timers.Sound) (cycle : Nat) (all active : Bool) :
    (s.closeCycle cycle all active).1.timers.Sound :=
  (s.closeCycle_followed cycle all active).sound (swept_sound sound all)

end Sound

end Scheduler

def Along (P : List (Moment σ) → Moment σ → Prop) (past : List (Moment σ)) : Prop :=
  ∀ before m rest, past = before ++ m :: rest → P before m

section Along

variable {P : List (Moment σ) → Moment σ → Prop} {past : List (Moment σ)}

theorem along_iff : Along P past ↔ ∀ i (h : i < past.length), P (past.take i) past[i] := by
  constructor
  · intro h i hi
    apply h (past.take i) past[i] (past.drop (i + 1))
    rw [← List.drop_eq_getElem_cons hi, List.take_append_drop]
  · rintro h before m rest rfl
    have hm := h before.length (by simp)
    simpa using hm

instance [∀ before m, Decidable (P before m)] : Decidable (Along P past) := decidable_of_iff _ along_iff.symm

theorem along_nil : Along P [] := by
  intro before m rest h
  simp at h

theorem Along.concat (h : Along P past) {m : Moment σ} (hm : P past m) : Along P (past ++ [m]) := by
  intro before m' rest heq
  rcases List.eq_nil_or_concat rest with rfl | ⟨rest, last, rfl⟩
  · obtain ⟨rfl, hlast⟩ := List.append_inj' heq rfl
    rw [← List.singleton_inj.mp hlast]
    exact hm
  · rw [List.concat_eq_append, ← List.cons_append, ← List.append_assoc] at heq
    obtain ⟨hpast, -⟩ := List.append_inj' heq rfl
    exact h before m' rest hpast

theorem Along.init {rest : List (Moment σ)} (h : Along P (past ++ rest)) : Along P past := by
  intro before m rest' heq
  apply h before m (rest' ++ rest)
  rw [heq, List.append_assoc, List.cons_append]

theorem Along.last {m : Moment σ} (h : Along P (past ++ [m])) : P past m := h past m [] rfl

theorem Along.append (h : Along P past) {moments : List (Moment σ)}
    (hnew : ∀ before, ∀ m ∈ moments, P before m) : Along P (past ++ moments) := by
  induction moments generalizing past with
  | nil =>
    rw [List.append_nil]
    exact h
  | cons m moments ih =>
    rw [List.append_cons]
    refine ih (h.concat (hnew past m List.mem_cons_self)) fun before m' hm' => ?_
    exact hnew before m' (List.mem_cons_of_mem _ hm')

end Along

/-- What each part has to do for an invariant. -/
structure Kept (Inv : Stage → List (Moment σ) → Scheduler σ → Prop) : Prop where
  quiet {stage : Stage} {past : List (Moment σ)} {s s' : Scheduler σ} :
    Inv stage past s → s.Quiet s' → Inv stage past s'
  obeyed {stage : Stage} {past : List (Moment σ)} {s s' : Scheduler σ} {command : Command} :
    stage ≠ .lapse → Inv stage past s → s.timers.Sound → s.Obeyed command s' →
      Inv stage (past ++ [⟨s, .obeyed command, s'⟩]) s'
  lapsed {past : List (Moment σ)} {s s' : Scheduler σ} :
    Inv .lapse past s → s.timers.Sound → s.Obeyed (.trigger .zero .all) s' →
      Inv .rest (past ++ [⟨s, .obeyed (.trigger .zero .all), s'⟩]) s'
  begun {past : List (Moment σ)} {s : Scheduler σ} :
    Inv .rest past s → s.timers.Sound → s.done = false → s.scheduledCycles = 0 →
      Inv .rest (past ++ [s.beginning]) (s.renewImmediate true)
  operated {past : List (Moment σ)} {s : Scheduler σ} (operation : Registry.Operation σ) :
    Inv .rest past s → Inv .rest (past ++ [s.operating operation]) (s.operating operation).after
  expired {past : List (Moment σ)} {s : Scheduler σ} {timers : TimerQueue Wakeup} {id : TimerId}
    {wakeup : Wakeup} :
    Inv .rest past s → s.timers.Sound → s.halted = false → s.timers.Expires s.now id wakeup timers →
      Inv (.upon wakeup) (past ++ [⟨s, .expired id wakeup, s.expire timers wakeup⟩]) (s.expire timers wakeup)
  entered {past : List (Moment σ)} {s : Scheduler σ} : Inv .rest past s → Inv .cycle past s
  opened {past : List (Moment σ)} {s : Scheduler σ} (all : Bool) :
    Inv .cycle past s → Inv .cycle (past ++ [s.opening all]) (s.openCycle all)
  closed {past : List (Moment σ)} {s : Scheduler σ} (cycle : Nat) (all active : Bool) :
    Inv .cycle past s → s.timers.Sound →
      Inv .rest (past ++ s.closing cycle all active) (s.closeCycle cycle all active).1

namespace Kept

variable {Inv : Stage → List (Moment σ) → Scheduler σ → Prop}

def Holds (Inv : Stage → List (Moment σ) → Scheduler σ → Prop) (stage : Stage) (past : List (Moment σ))
    (s : Scheduler σ) : Prop := Inv stage past s ∧ s.timers.Sound

variable {stage : Stage} {past : List (Moment σ)} {s : Scheduler σ}

theorem still (kept : Kept Inv) {s' : Scheduler σ} (h : Holds Inv stage past s) (quiet : s.Quiet s') :
    Holds Inv stage past s' :=
  ⟨kept.quiet h.1 quiet, quiet.timers.sound h.2⟩

theorem obey (kept : Kept Inv) (hstage : stage ≠ .lapse) (h : Holds Inv stage past s) (command : Command) :
    Holds Inv stage (past ++ [s.obeying command]) (s.obey command).value :=
  ⟨kept.obeyed hstage h.1 h.2 (s.obeyed command), (s.obeyed command).sound h.2⟩

theorem obeyEach (kept : Kept Inv) (hstage : stage ≠ .lapse) (commands : List Command)
    (h : Holds Inv stage past s) :
    Holds Inv stage (past ++ Scheduler.obeyingEach commands s) (commands.foldlM Scheduler.obey s).value := by
  induction commands generalizing past s with
  | nil => simpa [Scheduler.obeyingEach] using h
  | cons command commands ih =>
    rw [Scheduler.obeyingEach, List.append_cons, List.foldlM_cons, Logged.value_bind]
    exact ih (kept.obey hstage h command)

theorem drain (kept : Kept Inv) (hstage : stage ≠ .lapse) (h : Holds Inv stage past s) :
    Holds Inv stage (past ++ s.draining) s.drain.value :=
  kept.obeyEach hstage s.inbox (kept.still h (.inbox s []))

theorem cycle (kept : Kept Inv) (h : Holds Inv .cycle past s) (all : Bool) :
    Holds Inv .rest (past ++ s.cycling all) (s.loopOnce all).value.1 := by
  have hopened : Holds Inv .cycle (past ++ [s.opening all]) (s.openCycle all) :=
    ⟨kept.opened all h.1, h.2⟩
  have hdrained := kept.drain (by decide) hopened
  have hclosed := kept.closed (s.beginCycle all).cycle all (s.beginCycle all).pollMonitor.1 hdrained.1 hdrained.2
  rw [s.loopOnce_value]
  refine ⟨?_, Scheduler.closeCycle_sound hdrained.2 _ _ _⟩
  rwa [List.append_assoc, List.append_assoc, List.singleton_append] at hclosed

theorem wake (kept : Kept Inv) {timers : TimerQueue Wakeup} {wakeup : Wakeup}
    (h : Holds Inv (.upon wakeup) past (s.expire timers wakeup)) :
    Holds Inv .rest (past ++ (s.expire timers wakeup).waking wakeup)
      (({ s with timers } : Scheduler σ).wake wakeup).value.1 := by
  cases wakeup with
  | cycle all => exact kept.cycle h all
  | heartbeat =>
    have hsweep := (s.expire timers .heartbeat).trigger_obeyed .zero .all
    exact ⟨kept.lapsed h.1 h.2 hsweep, hsweep.sound h.2⟩
  | halt =>
    rw [Scheduler.waking, List.append_nil]
    exact h

theorem serve (kept : Kept Inv) (h : Holds Inv .rest past s) :
    Holds Inv .rest (past ++ s.serving) s.serve.1 := by
  unfold Scheduler.serving Scheduler.serve
  by_cases hhalted : s.halted = true
  · rw [if_pos hhalted, if_pos hhalted, List.append_nil]
    exact h
  · rw [if_neg hhalted, if_neg hhalted]
    rcases hpop : s.timers.popDue s.now with ⟨_ | ⟨id, wakeup⟩, timers⟩
    · rw [List.append_nil]
      exact kept.still h (.ofSame s (TimerQueue.same_popDue_none hpop))
    · have hexpires := h.2.popDue_some hpop
      have hexpired := kept.expired h.1 h.2 (eq_false_of_ne_true hhalted) hexpires
      have hsound : (s.expire timers wakeup).timers.Sound := by
        cases wakeup <;> exact hexpires.sound
      have hwoken := kept.wake ⟨hexpired, hsound⟩
      rwa [List.append_assoc, List.singleton_append] at hwoken

theorem step (kept : Kept Inv) (h : Holds Inv .rest past s) :
    Holds Inv .rest (past ++ s.stepping) s.step.value.1 := by
  rw [Scheduler.stepping, ← List.append_assoc, s.step_value]
  exact kept.serve (kept.drain (by decide) h)

theorem runSteps (kept : Kept Inv) (steps : Nat) (h : Holds Inv .rest past s) :
    Holds Inv .rest (past ++ Scheduler.steppingEach steps s) (Scheduler.runSteps steps s).value.1 := by
  induction steps generalizing past s with
  | zero =>
    rw [Scheduler.steppingEach, List.append_nil]
    exact h
  | succ steps ih =>
    have hstep := kept.step h
    rw [Scheduler.steppingEach, Scheduler.runSteps_fst, ← List.append_assoc]
    split
    · exact ih hstep
    · rwa [List.append_nil]

theorem turn (kept : Kept Inv) (steps : Nat) (h : Holds Inv .rest past s) :
    Holds Inv .rest (past ++ Scheduler.steppingEach steps s) (Scheduler.turn steps s).value.1 := by
  rw [Scheduler.turn_fst]
  exact kept.runSteps steps h

theorem runLoop (kept : Kept Inv) (fuel : Nat) (outside : Outside) (h : Holds Inv .rest past s) :
    Holds Inv .rest (past ++ Scheduler.looping fuel outside s) (Scheduler.runLoop fuel outside s).value.1 := by
  induction fuel generalizing past outside s with
  | zero =>
    rw [Scheduler.looping, List.append_nil]
    exact h
  | succ fuel ih =>
    have hturn := kept.turn s.config.maxCyclesPerTurn h
    rw [Scheduler.looping, Scheduler.runLoop_fst, ← List.append_assoc]
    have hpause := Scheduler.pause_quiet outside (Scheduler.turn s.config.maxCyclesPerTurn s).value.1
      (Scheduler.turn s.config.maxCyclesPerTurn s).value.2
    change Scheduler.Pause.After _ (Scheduler.pausing outside s) at hpause
    rcases hpausing : Scheduler.pausing outside s with after | ⟨after, outside⟩ | ⟨after, outside, command⟩ <;>
      rw [hpausing] at hpause
    · rw [List.append_nil]
      exact kept.still hturn hpause
    · exact ih outside (kept.still hturn hpause)
    · have hobeyed := kept.obey (by decide) (kept.still hturn hpause) command
      rw [List.append_cons]
      exact ih outside hobeyed

theorem run (kept : Kept Inv) (fuel : Nat) (outside : Outside) (h : Holds Inv .rest past s) :
    Holds Inv .rest (past ++ Scheduler.running fuel outside s) (Scheduler.run fuel outside s).value.1 := by
  have hdrained := kept.drain (by decide) h
  unfold Scheduler.running Scheduler.run
  rw [Logged.value_bind, Logged.value_bind, ← List.append_assoc]
  dsimp only
  by_cases hbegins : (!s.drain.value.done && s.drain.value.scheduledCycles = 0) = true
  · rw [if_pos hbegins, if_pos hbegins, List.append_cons]
    obtain ⟨hdone, hnone⟩ := Bool.and_eq_true_iff.mp hbegins
    have hbegun := kept.begun hdrained.1 hdrained.2 (by simpa using hdone) (of_decide_eq_true hnone)
    exact kept.runLoop fuel outside ⟨hbegun, Scheduler.renewImmediate_sound hdrained.2 true⟩
  · rw [if_neg hbegins, if_neg hbegins]
    exact kept.runLoop fuel outside hdrained

theorem edit (kept : Kept Inv) (change : Edit σ) (fits : change.Fits) (h : Holds Inv .rest past s) :
    Holds Inv .rest (past ++ s.editing change fits) (s.edit change).value.1 := by
  have hoperated : Holds Inv .rest (past ++ [s.operating (.edit change fits)])
      (s.operating (.edit change fits)).after :=
    ⟨kept.operated _ h.1, h.2⟩
  rw [Scheduler.editing, Scheduler.edit_fst, List.append_cons]
  rcases Scheduler.arrival change (s.registry.edit change).value.2 with _ | id
  · rw [List.append_nil]
    exact hoperated
  · exact kept.obey (by decide) hoperated (.trigger .zero (.one id))

theorem perform (kept : Kept Inv) (call : Call σ) (h : Holds Inv .rest past s) :
    Holds Inv .rest (past ++ s.moments call) (s.perform call) := by
  cases call with
  | trigger delay targets => exact kept.obey (by decide) h (.trigger delay targets)
  | stop => exact kept.obey (by decide) h .stop
  | send command =>
    rw [Scheduler.moments, List.append_nil]
    exact kept.still h (.inbox s _)
  | step => exact kept.step h
  | runDue => exact kept.runSteps s.config.maxCyclesPerTurn h
  | loopOnce all => exact kept.cycle ⟨kept.entered h.1, h.2⟩ all
  | run fuel outside => exact kept.run fuel outside h
  | edit change fits => exact kept.edit change fits h
  | operate operation => exact ⟨kept.operated operation h.1, h.2⟩
  | tick time =>
    rw [Scheduler.moments, List.append_nil, Scheduler.perform]
    by_cases hlater : s.now ≤ time
    · rw [if_pos hlater]
      exact kept.still h (.now s hlater)
    · rw [if_neg hlater]
      exact h

theorem performAll (kept : Kept Inv) (calls : List (Call σ)) (h : Holds Inv .rest past s) :
    Holds Inv .rest (past ++ s.history calls) (s.performAll calls) := by
  induction calls generalizing past s with
  | nil =>
    rw [Scheduler.history, List.append_nil]
    exact h
  | cons call calls ih =>
    rw [Scheduler.history, ← List.append_assoc]
    exact ih (kept.perform call h)

end Kept

/-- What holds of a scheduler as it is made, and is kept by each part of it, holds after every run. -/
theorem Run.invariant {Inv : Stage → List (Moment σ) → Scheduler σ → Prop} (kept : Kept Inv) (run : Run σ)
    (h : Inv .rest [] run.start) : Inv .rest run.history run.state ∧ run.state.timers.Sound :=
  kept.performAll run.calls ⟨h, TimerQueue.sound_empty⟩

/-- What has happened at a moment is what its mark says. -/
structure Moment.Genuine (m : Moment σ) : Prop where
  obeyed : ∀ command, m.mark = .obeyed command → m.before.Obeyed command m.after
  expired : ∀ id wakeup, m.mark = .expired id wakeup →
    ∃ timers, m.before.timers.Expires m.before.now id wakeup timers ∧ m.after = m.before.expire timers wakeup
  cycled : ∀ report, m.mark = .cycled report →
    m.before.closeCycle report.cycle report.all report.monitorActivity = (m.after, report)

namespace Kept

theorem genuine : Kept fun _ (past : List (Moment σ)) (_ : Scheduler σ) => Along (fun _ m => m.Genuine) past where
  quiet h _ := h
  obeyed _ h _ obeyed := by
    refine h.concat ⟨?_, nofun, nofun⟩
    rintro command ⟨⟩
    exact obeyed
  lapsed h _ obeyed := by
    refine h.concat ⟨?_, nofun, nofun⟩
    rintro command ⟨⟩
    exact obeyed
  begun h _ _ _ := h.concat ⟨nofun, nofun, nofun⟩
  operated _ h := h.concat ⟨nofun, nofun, nofun⟩
  expired h _ _ expires := by
    refine h.concat ⟨nofun, ?_, nofun⟩
    rintro id wakeup ⟨⟩
    exact ⟨_, expires, rfl⟩
  entered := id
  opened _ h := h.concat ⟨nofun, nofun, nofun⟩
  closed cycle all active h _ := by
    rw [Scheduler.closing, ← List.append_assoc]
    refine (h.append fun _ m hm => ?_).concat ⟨nofun, nofun, ?_⟩
    · obtain ⟨id, -, hmark⟩ := Scheduler.mark_of_mem_firingEach hm
      constructor <;> simp [hmark]
    · rintro report ⟨⟩
      rfl

theorem recalled {Inv : Stage → List (Moment σ) → Scheduler σ → Prop} (kept : Kept Inv) :
    Kept fun stage past s => Inv stage past s ∧
      Along (fun _ m => (∃ id, m.mark = .fired id) ∨ ∃ stage past, Inv stage past m.before) past where
  quiet h quiet := ⟨kept.quiet h.1 quiet, h.2⟩
  obeyed hstage h sound obeyed := ⟨kept.obeyed hstage h.1 sound obeyed, h.2.concat (.inr ⟨_, _, h.1⟩)⟩
  lapsed h sound obeyed := ⟨kept.lapsed h.1 sound obeyed, h.2.concat (.inr ⟨_, _, h.1⟩)⟩
  begun h sound hdone hnone := ⟨kept.begun h.1 sound hdone hnone, h.2.concat (.inr ⟨_, _, h.1⟩)⟩
  operated operation h := ⟨kept.operated operation h.1, h.2.concat (.inr ⟨_, _, h.1⟩)⟩
  expired h sound going expires := ⟨kept.expired h.1 sound going expires, h.2.concat (.inr ⟨_, _, h.1⟩)⟩
  entered h := ⟨kept.entered h.1, h.2⟩
  opened all h := ⟨kept.opened all h.1, h.2.concat (.inr ⟨_, _, h.1⟩)⟩
  closed cycle all active h sound := by
    refine ⟨kept.closed cycle all active h.1 sound, ?_⟩
    rw [Scheduler.closing, ← List.append_assoc]
    refine (h.2.append fun _ m hm => ?_).concat (.inr ⟨_, _, h.1⟩)
    obtain ⟨id, -, hmark⟩ := Scheduler.mark_of_mem_firingEach hm
    exact .inl ⟨id, hmark⟩

end Kept

theorem Run.genuine (run : Run σ) : Along (fun _ m => m.Genuine) run.history :=
  (run.invariant Kept.genuine along_nil).1

theorem Run.recalled {Inv : Stage → List (Moment σ) → Scheduler σ → Prop} (kept : Kept Inv) (run : Run σ)
    (h : Inv .rest [] run.start) {past rest : List (Moment σ)} {m : Moment σ}
    (history : run.history = past ++ m :: rest)
    (mark : ∀ id, m.mark ≠ .fired id) : ∃ stage before, Inv stage before m.before := by
  obtain ⟨id, hfired⟩ | hbefore := (run.invariant kept.recalled ⟨h, along_nil⟩).1.2 _ _ _ history
  · exact absurd hfired (mark id)
  · exact hbefore

end ActorNet
