import ActorNet.Proofs.Answers
import ActorNet.Proofs.Punctuality

set_option autoImplicit false

/-!
# Stretches of a run

A run has three records: the moments of its history, the outcomes of its steps, and its journal. A stretch of a run is
put together from a few parts, each with its share of all three; a cycle is one part. Every call is such a stretch, so
that what holds of the parts and is kept when two stretches follow each other relates the records of any run.
-/
namespace ActorNet

variable {σ : Type}

namespace Scheduler

/-- The outcomes of all steps that a call takes. A cycle that is called for directly has an outcome as well. -/
def outcomes (s : Scheduler σ) : Call σ → List Step
  | .loopOnce all => [.cycle (s.loopOnce all).value.2]
  | call => (s.departuresOf call).map (·.step.value.2)

def allOutcomes : Scheduler σ → List (Call σ) → List Step
  | _, [] => []
  | s, call :: calls => s.outcomes call ++ allOutcomes (s.perform call) calls

end Scheduler

def Wakeup.outcome? : Wakeup → Option Step
  | .cycle _ => none
  | .heartbeat => some .heartbeat
  | .halt => some .halted

/-- From one state to another, with the moments, the outcomes and the journal in between. -/
inductive Stretch : Scheduler σ → List (Moment σ) → List Step → List Entry → Scheduler σ → Prop
  | still {s s' : Scheduler σ} (quiet : s.Quiet s') : Stretch s [] [] [] s'
  | noted (s : Scheduler σ) (event : Event) : Stretch s [] [] [.event event] s
  | passed (s : Scheduler σ) {step : Step} (h : step = .nothing ∨ step = .halted) : Stretch s [] [step] [] s
  | obeyed (s : Scheduler σ) (command : Command) :
    Stretch s [s.obeying command] [] (s.obey command).journal (s.obey command).value
  | begun (s : Scheduler σ) : Stretch s [s.beginning] [] [] (s.scheduleImmediate true)
  | operated (s : Scheduler σ) (operation : Registry.Operation σ) :
    Stretch s [s.operating operation] [] (s.registry.respond operation).journal (s.operating operation).after
  | expired (s : Scheduler σ) {id : TimerId} {wakeup : Wakeup} {timers : TimerQueue Wakeup}
    (due : s.timers.popDue s.now = (some (id, wakeup), timers)) :
    Stretch s [⟨s, .expired id wakeup, s.expire timers wakeup⟩] wakeup.outcome?.toList [] (s.expire timers wakeup)
  | cycled (s : Scheduler σ) (all : Bool) :
    Stretch s (s.cycling all) [.cycle (s.loopOnce all).value.2] (s.loopOnce all).journal (s.loopOnce all).value.1
  | append {s s' s'' : Scheduler σ} {moments moments' : List (Moment σ)} {outcomes outcomes' : List Step}
    {journal journal' : List Entry} (first : Stretch s moments outcomes journal s')
    (second : Stretch s' moments' outcomes' journal' s'') :
    Stretch s (moments ++ moments') (outcomes ++ outcomes') (journal ++ journal') s''

namespace Stretch

variable (s : Scheduler σ)

theorem nothing : Stretch s [] [] [] s := .still (.inbox s s.inbox)

theorem tacit {s s' s'' : Scheduler σ} {moments moments' : List (Moment σ)} {outcomes : List Step}
    {journal journal' : List Entry} (first : Stretch s moments [] journal s')
    (second : Stretch s' moments' outcomes journal' s'') :
    Stretch s (moments ++ moments') outcomes (journal ++ journal') s'' := first.append second

theorem drain : Stretch s s.draining [] s.drain.journal s.drain.value := by
  have hfold : ∀ (commands : List Command) (s : Scheduler σ), Stretch s (Scheduler.obeyingEach commands s) []
      (commands.foldlM Scheduler.obey s).journal (commands.foldlM Scheduler.obey s).value := by
    intro commands
    induction commands with
    | nil => exact nothing
    | cons command commands ih =>
      intro s
      exact (obeyed s command).append (ih _)
  have hcleared : Stretch s [] [] [] { s with inbox := [] } := .still (.inbox s [])
  exact hcleared.append (hfold s.inbox _)

def Closes (s : Scheduler σ) (moments : List (Moment σ)) (done : Logged (Scheduler σ × Step)) : Prop :=
  Stretch s moments [done.value.2] done.journal done.value.1

theorem Closes.leads {s s' : Scheduler σ} {moments moments' : List (Moment σ)} {done : Logged (Scheduler σ × Step)}
    {outcomes : List Step} {journal : List Entry} (h : Closes s moments done)
    (rest : Stretch done.value.1 moments' outcomes journal s') :
    Stretch s (moments ++ moments') (done.value.2 :: outcomes) (done.journal ++ journal) s' := h.append rest

theorem wake {timers : TimerQueue Wakeup} {wakeup : Wakeup} {id : TimerId}
    (due : s.timers.popDue s.now = (some (id, wakeup), timers)) :
    Closes s (⟨s, .expired id wakeup, s.expire timers wakeup⟩ :: (s.expire timers wakeup).waking wakeup)
      (({ s with timers } : Scheduler σ).wake wakeup) := by
  have hexpired := expired s due
  unfold Closes
  cases wakeup with
  | cycle all =>
    have hjournal : (({ s with timers } : Scheduler σ).wake (.cycle all)).journal =
        ((s.expire timers (.cycle all)).loopOnce all).journal := List.append_nil _
    rw [hjournal]
    exact hexpired.append (cycled _ all)
  | heartbeat =>
    let lapsed := s.expire timers .heartbeat
    have hjournal : (({ s with timers } : Scheduler σ).wake .heartbeat).journal =
        [.event .heartbeatExpired] ++ (lapsed.trigger .zero .all).journal := List.append_nil _
    rw [hjournal]
    exact hexpired.append ((noted lapsed .heartbeatExpired).append (obeyed lapsed (.trigger .zero .all)))
  | halt => exact hexpired.append (noted (s.expire timers .halt) .halted)

theorem closes_bind {moments moments' : List (Moment σ)} {x : Logged (Scheduler σ)}
    {f : Scheduler σ → Logged (Scheduler σ × Step)} (h : Stretch s moments [] x.journal x.value)
    (hrest : Closes x.value moments' (f x.value)) : Closes s (moments ++ moments') (x >>= f) := h.append hrest

theorem step : Closes s s.stepping s.step := by
  refine closes_bind s (drain s) ?_
  generalize s.drain.value = s
  unfold Scheduler.serving
  by_cases hhalted : s.halted = true
  · rw [if_pos hhalted, if_pos hhalted]
    exact passed s (.inr rfl)
  · rw [if_neg hhalted, if_neg hhalted]
    rcases hpop : s.timers.popDue s.now with ⟨_ | ⟨id, wakeup⟩, timers⟩
    · have hsame : Stretch s [] [] [] { s with timers } := .still (.ofSame s (TimerQueue.same_popDue_none hpop))
      exact hsame.append (passed _ (.inl rfl))
    · exact wake s hpop

theorem runSteps_journal (steps : Nat) :
    (Scheduler.runSteps (steps + 1) s).journal = s.step.journal ++
      if Scheduler.goesOn s.step.value.2 then (Scheduler.runSteps steps s.step.value.1).journal else [] := by
  rw [Scheduler.runSteps, Logged.journal_bind]
  rcases s.step.value with ⟨s', step⟩
  cases step <;> rfl

theorem runSteps (steps : Nat) :
    Stretch s (Scheduler.steppingEach steps s) ((Scheduler.departures steps s).map (·.step.value.2))
      (Scheduler.runSteps steps s).journal (Scheduler.runSteps steps s).value.1 := by
  induction steps generalizing s with
  | zero => exact nothing s
  | succ steps ih =>
    rw [Scheduler.steppingEach, Scheduler.departures, Scheduler.runSteps_fst, runSteps_journal, List.map_cons]
    refine (step s).leads ?_
    split
    · exact ih _
    · exact nothing _

theorem turn_journal (steps : Nat) : (Scheduler.turn steps s).journal = (Scheduler.runSteps steps s).journal := by
  suffices h : ∀ state, (Scheduler.turnFrom state steps s).journal = (Scheduler.runSteps steps s).journal from h .quiet
  induction steps generalizing s with
  | zero => exact fun _ => rfl
  | succ steps ih =>
    intro state
    rw [runSteps_journal, Scheduler.turnFrom, Logged.journal_bind]
    rcases s.step.value with ⟨s', step⟩
    cases step with
    | nothing | halted => rfl
    | cycle | heartbeat => exact congrArg (_ ++ ·) (ih s' .busy)

theorem runLoop_journal (fuel : Nat) (outside : Outside) :
    (Scheduler.runLoop (fuel + 1) outside s).journal = (Scheduler.turn s.config.maxCyclesPerTurn s).journal ++
      match Scheduler.pausing outside s with
      | .over _ => []
      | .on after outside => (Scheduler.runLoop fuel outside after).journal
      | .order after outside command =>
        (after.obey command).journal ++ (Scheduler.runLoop fuel outside (after.obey command).value).journal := by
  rw [Scheduler.runLoop, Logged.journal_bind, Scheduler.pausing]
  rcases (Scheduler.turn s.config.maxCyclesPerTurn s).value with ⟨after, turn⟩
  cases turn with
  | halted => rfl
  | busy =>
    unfold Scheduler.pause
    dsimp only
    cases outside.isOver <;> rfl
  | quiet =>
    unfold Scheduler.pause
    dsimp only
    generalize outside.awakening _ = awakening
    cases awakening <;> rfl

theorem runLoop (fuel : Nat) (outside : Outside) :
    Stretch s (Scheduler.looping fuel outside s) ((Scheduler.loopDepartures fuel outside s).map (·.step.value.2))
      (Scheduler.runLoop fuel outside s).journal (Scheduler.runLoop fuel outside s).value.1 := by
  induction fuel generalizing outside s with
  | zero => exact nothing s
  | succ fuel ih =>
    have hturn := runSteps s s.config.maxCyclesPerTurn
    rw [← turn_journal, ← Scheduler.turn_fst] at hturn
    have hpause := Scheduler.pause_quiet outside (Scheduler.turn s.config.maxCyclesPerTurn s).value.1
      (Scheduler.turn s.config.maxCyclesPerTurn s).value.2
    change Scheduler.Pause.After _ (Scheduler.pausing outside s) at hpause
    rw [Scheduler.looping, Scheduler.loopDepartures, Scheduler.runLoop_fst, runLoop_journal, List.map_append]
    refine hturn.append ?_
    generalize Scheduler.pausing outside s = pause at hpause
    rcases pause with after | ⟨after, outside⟩ | ⟨after, outside, command⟩
    · exact still hpause
    · exact (still hpause).append (ih after outside)
    · exact (still hpause).append ((obeyed after command).append (ih _ outside))

theorem run (fuel : Nat) (outside : Outside) :
    Stretch s (Scheduler.running fuel outside s)
      ((Scheduler.loopDepartures fuel outside s.entering).map (·.step.value.2))
      (Scheduler.run fuel outside s).journal (Scheduler.run fuel outside s).value.1 := by
  have hstart := (noted s (.running s.config.heartbeat)).append (drain s)
  have hloop := runLoop s.entering fuel outside
  rw [Scheduler.run_value]
  unfold Scheduler.run Scheduler.running
  rw [Logged.journal_bind, Logged.journal_bind, ← List.append_assoc]
  refine hstart.tacit ?_
  unfold Scheduler.entering at hloop ⊢
  dsimp only
  split
  case isTrue hbegins =>
    rw [if_pos hbegins] at hloop
    exact (begun _).append hloop
  case isFalse hgoes =>
    rw [if_neg hgoes] at hloop
    exact hloop

theorem edit_journal (change : Edit σ) :
    (s.edit change).journal = (s.registry.edit change).journal ++
      match Scheduler.arrival change (s.registry.edit change).value.2 with
      | some id =>
        (({ s with registry := (s.registry.edit change).value.1 } : Scheduler σ).obey (.trigger .zero (.one id))).journal
      | none => [] := by
  unfold Scheduler.edit Scheduler.arrival
  rw [Logged.journal_bind]
  rcases (s.registry.edit change).value with ⟨registry, answer⟩
  cases change with
  | completeMigration id =>
    cases answer with
    | ok reply => exact congrArg (_ ++ ·) (List.append_nil _)
    | error e => rfl
  | _ => rfl

theorem edit (change : Edit σ) (fits : change.Fits) :
    Stretch s (s.editing change fits) [] (s.edit change).journal (s.edit change).value.1 := by
  rw [Scheduler.editing, Scheduler.edit_fst, edit_journal]
  refine (operated s (.edit change fits)).tacit ?_
  rcases Scheduler.arrival change (s.registry.edit change).value.2 with _ | id
  · exact nothing _
  · exact obeyed _ (.trigger .zero (.one id))

theorem respond (call : Call σ) :
    Stretch s (s.moments call) (s.outcomes call) (s.respond call).journal (s.perform call) := by
  cases call with
  | trigger delay targets => exact obeyed s (.trigger delay targets)
  | stop => exact obeyed s .stop
  | send command => exact still (.inbox s _)
  | step => exact step s
  | runDue => exact runSteps s s.config.maxCyclesPerTurn
  | loopOnce all => exact cycled s all
  | run fuel outside => exact run s fuel outside
  | edit change fits => exact edit s change fits
  | operate operation => exact operated s operation
  | tick time =>
    rw [Scheduler.perform]
    split
    case isTrue hlater => exact still (.now s hlater)
    case isFalse => exact nothing s

theorem conversation (calls : List (Call σ)) :
    Stretch s (s.history calls) (s.allOutcomes calls) ((s.conversation calls).flatMap (·.journal))
      (s.performAll calls) := by
  induction calls generalizing s with
  | nil => exact nothing s
  | cons call calls ih => exact (respond s call).append (ih _)

end Stretch

namespace Run

def outcomes (run : Run σ) : List Step := run.start.allOutcomes run.calls

def journal (run : Run σ) : List Entry := (run.start.conversation run.calls).flatMap (·.journal)

theorem stretch (run : Run σ) : Stretch run.start run.history run.outcomes run.journal run.state :=
  .conversation run.start run.calls

end Run

end ActorNet
