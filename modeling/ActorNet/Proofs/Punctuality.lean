import ActorNet.Proofs.Precedence

set_option autoImplicit false

/-!
# Timers come to their turn

Once a timer is due, each step that leaves it waiting takes away one of those ahead of it, and none is ever
added to them. So it waits for no more steps than there were timers ahead of it. A delayed sweep is never
cancelled, so it comes due, and the step that takes its timer starts a full sweep.
-/
namespace ActorNet

variable {σ : Type}

namespace TimerQueue

variable {α : Type} {q q' : TimerQueue α} {now : Instant} {slot : Slot}

theorem Renewed.ahead_length (h : q.Renewed now q') (sound : q.Sound) (sound' : q'.Sound) (live : slot ∈ q.live)
    (due : slot.1 ≤ now) : (q'.ahead slot).length ≤ (q.ahead slot).length := by
  have hdistinct : (q'.ahead slot).Nodup := ((sound'.distinct.of_map _).filter _).filter _
  have hsub : q'.ahead slot ⊆ q.ahead slot := by
    intro other hother
    obtain ⟨hlive, hbefore⟩ := List.mem_filter.mp hother
    rcases h.live other hlive with hold | ⟨hlater, hnew⟩
    · exact List.mem_filter.mpr ⟨hold, hbefore⟩
    · have hnumber := sound.number_lt (mem_live.mp live).2
      have hnanos : slot.1.nanos ≤ other.1.nanos := Nat.le_trans due hlater
      rw [Slot.precedes_iff] at hbefore
      omega
  exact (List.subperm_of_subset hdistinct hsub).length_le

theorem Expires.ahead_length {id : TimerId} {payload : α} (expires : q.Expires now id payload q') (sound : q.Sound)
    (live : slot ∈ q'.live) : (q.ahead slot).length = (q'.ahead slot).length + 1 := by
  obtain ⟨deadline, -, hlive⟩ := expires.live
  have hordered : Ordered q.live := sound.ordered.filter _
  have hfirst : Slot.precedes (deadline, id) slot = true := by
    rw [hlive] at hordered
    have hbefore := (Slot.before_iff _ _).mp ((List.pairwise_cons.mp hordered).1 slot live)
    have hnumber : id.number ≠ slot.2.number := by
      intro hsame
      obtain rfl : id = slot.2 := congrArg TimerId.mk hsame
      simpa [expires.pending] using (mem_live.mp live).2
    rw [Slot.precedes_iff]
    dsimp only at hbefore ⊢
    omega
  rw [ahead, hlive, List.filter_cons, if_pos hfirst]
  rfl

end TimerQueue

namespace Scheduler

variable {s s' : Scheduler σ} {slot : Slot}

theorem serve_ahead (sound : s.timers.Sound) (live : slot ∈ s.timers.live) (due : slot.1 ≤ s.now)
    (pending : slot.2 ∈ s.serve.1.timers.pending) (going : s.serve.1.halted = false) :
    (s.serve.1.timers.ahead slot).length < (s.timers.ahead slot).length := by
  unfold serve at pending going ⊢
  by_cases hhalted : s.halted = true
  · rw [if_pos hhalted, hhalted] at going
    cases going
  · rw [if_neg hhalted] at pending ⊢
    rcases hpop : s.timers.popDue s.now with ⟨_ | ⟨id, wakeup⟩, timers⟩
    · exact absurd due (Nat.not_le_of_lt (sound.popDue_none hpop slot live))
    · rw [hpop] at pending
      have hexpires := sound.popDue_some hpop
      have hexpired : (s.expire timers wakeup).timers.Sound := by
        rw [expire_timers]
        exact hexpires.sound
      have hwoken := ((Tracked.kept (s.expire timers wakeup)).wake ⟨.now hexpired, hexpired⟩).1
      have honward := (expire_onward hexpires).trans hwoken.onward
      have hstill : slot ∈ (s.expire timers wakeup).timers.live := by
        refine (expire_onward hexpires).timers.place sound hexpired live ?_
        refine hwoken.onward.timers.pending ?_ pending
        rw [expire_timers, hexpires.nextNumber]
        exact sound.number_lt (TimerQueue.mem_live.mp live).2
      have hrest := hwoken.onward.timers.ahead_length hexpired hwoken.sound hstill
        (Nat.le_trans due (expire_onward hexpires).later)
      rw [expire_timers] at hrest hstill
      have hfirst := hexpires.ahead_length sound hstill
      dsimp only
      omega

theorem drain_tracked (sound : s.timers.Sound) : Tracked s s.draining s.drain.value :=
  ((Tracked.kept s).drain (by decide : Stage.rest ≠ .lapse) ⟨.now sound, sound⟩).1

theorem step_tracked (sound : s.timers.Sound) : Tracked s s.stepping s.step.value.1 :=
  ((Tracked.kept s).step ⟨.now sound, sound⟩).1

theorem step_ahead (sound : s.timers.Sound) (live : slot ∈ s.timers.live) (due : slot.1 ≤ s.now)
    (pending : slot.2 ∈ s.step.value.1.timers.pending) (going : s.step.value.1.halted = false) :
    (s.step.value.1.timers.ahead slot).length < (s.timers.ahead slot).length := by
  rw [step_value] at pending going ⊢
  have hdrained := drain_tracked sound
  have hserved := ((Tracked.kept s.drain.value).serve ⟨.now hdrained.sound, hdrained.sound⟩).1
  have hnumber : slot.2.number < s.drain.value.timers.nextNumber :=
    Nat.lt_of_lt_of_le (sound.number_lt (TimerQueue.mem_live.mp live).2) hdrained.onward.timers.nextNumber
  have hstill := hdrained.onward.timers.place sound hdrained.sound live (hserved.onward.timers.pending hnumber pending)
  have hfewer := serve_ahead hdrained.sound hstill (Nat.le_trans due hdrained.onward.later) pending going
  exact Nat.lt_of_lt_of_le hfewer (hdrained.onward.timers.ahead_length sound hdrained.sound live due)

def departures : Nat → Scheduler σ → List (Scheduler σ)
  | 0, _ => []
  | steps + 1, s => s :: if goesOn s.step.value.2 then departures steps s.step.value.1 else []

def loopDepartures : Nat → Outside → Scheduler σ → List (Scheduler σ)
  | 0, _, _ => []
  | fuel + 1, outside, s =>
    departures s.config.maxCyclesPerTurn s ++
      match pausing outside s with
      | .over _ => []
      | .on after outside => loopDepartures fuel outside after
      | .order after outside command => loopDepartures fuel outside (after.obey command).value

def departuresOf (s : Scheduler σ) : Call σ → List (Scheduler σ)
  | .step => [s]
  | .runDue => departures s.config.maxCyclesPerTurn s
  | .run fuel outside => loopDepartures fuel outside s.entering
  | _ => []

def allDepartures : Scheduler σ → List (Call σ) → List (Scheduler σ)
  | _, [] => []
  | s, call :: calls => s.departuresOf call ++ allDepartures (s.perform call) calls

/-- From one state to another by way of steps, with nothing in between that brings the timers out of order. -/
inductive Paced : Scheduler σ → List (Scheduler σ) → Scheduler σ → Prop
  | still {s s' : Scheduler σ} (onward : s.Onward s') (sound : s'.timers.Sound) : Paced s [] s'
  | step {s s' departure : Scheduler σ} {states : List (Scheduler σ)} (onward : s.Onward departure)
    (sound : departure.timers.Sound) (paced : Paced departure.step.value.1 states s') :
    Paced s (departure :: states) s'

namespace Paced

variable {s'' departure : Scheduler σ} {states states' : List (Scheduler σ)}

theorem sound (h : Paced s states s') : s'.timers.Sound := by
  induction h with
  | still _ hsound => exact hsound
  | step _ _ _ ih => exact ih

theorem after (h : Paced s' states s'') (onward : s.Onward s') : Paced s states s'' := by
  cases h with
  | still honward hsound => exact .still (onward.trans honward) hsound
  | step honward hsound hpaced => exact .step (onward.trans honward) hsound hpaced

theorem append (h : Paced s states s') (h' : Paced s' states' s'') : Paced s (states ++ states') s'' := by
  induction h with
  | still honward _ => exact h'.after honward
  | step honward hsound _ ih => exact .step honward hsound (ih h')

theorem of_append (h : Paced s (states ++ departure :: states') s') :
    Paced s states departure ∧ Paced departure.step.value.1 states' s' := by
  induction states generalizing s with
  | nil =>
    cases h with
    | step honward hsound hpaced => exact ⟨.still honward hsound, hpaced⟩
  | cons first states ih =>
    cases h with
    | step honward hsound hpaced =>
      obtain ⟨hbefore, hafter⟩ := ih hpaced
      exact ⟨.step honward hsound hbefore, hafter⟩

theorem onward (h : Paced s states s') : s.Onward s' := by
  induction h with
  | still honward _ => exact honward
  | step honward hsound _ ih => exact honward.trans ((step_tracked hsound).onward.trans ih)

theorem ahead (h : Paced s states s') (sound : s.timers.Sound) (live : slot ∈ s.timers.live) (due : slot.1 ≤ s.now)
    (pending : slot.2 ∈ s'.timers.pending) (going : s'.halted = false) :
    states.length + (s'.timers.ahead slot).length ≤ (s.timers.ahead slot).length := by
  induction h with
  | still honward hsound =>
    have hfewer := honward.timers.ahead_length sound hsound live due
    simpa using hfewer
  | @step s s' departure states honward hsound hpaced ih =>
    have hstep := step_tracked hsound
    have hnumber := sound.number_lt (TimerQueue.mem_live.mp live).2
    have hlater : slot.2.number < departure.step.value.1.timers.nextNumber :=
      Nat.lt_of_lt_of_le hnumber (honward.trans hstep.onward).timers.nextNumber
    have hthen := hpaced.onward.timers.pending hlater pending
    have hgoing : departure.step.value.1.halted = false :=
      eq_false_of_ne_true fun hhalted => by simp [hpaced.onward.halted hhalted] at going
    have hplace := (honward.trans hstep.onward).timers.place sound hstep.sound live hthen
    have hdue : slot.1 ≤ departure.now := Nat.le_trans due honward.later
    have hlive := honward.timers.place sound hsound live
      (hstep.onward.timers.pending (Nat.lt_of_lt_of_le hnumber honward.timers.nextNumber) hthen)
    have hrest := ih hstep.sound hplace (Nat.le_trans hdue hstep.onward.later) pending going
    have hfewer := step_ahead hsound hlive hdue hthen hgoing
    have hbefore := honward.timers.ahead_length sound hsound live due
    rw [List.length_cons]
    omega

end Paced

theorem paced_departures (steps : Nat) (sound : s.timers.Sound) :
    Paced s (departures steps s) (runSteps steps s).value.1 := by
  induction steps generalizing s with
  | zero => exact .still (.refl s) sound
  | succ steps ih =>
    have hstep := step_tracked sound
    rw [departures, runSteps_fst]
    refine .step (.refl s) sound ?_
    split
    · exact ih hstep.sound
    · exact .still (.refl _) hstep.sound

theorem paced_loopDepartures (fuel : Nat) (outside : Outside) (sound : s.timers.Sound) :
    Paced s (loopDepartures fuel outside s) (runLoop fuel outside s).value.1 := by
  induction fuel generalizing outside s with
  | zero => exact .still (.refl s) sound
  | succ fuel ih =>
    have hturn := paced_departures s.config.maxCyclesPerTurn sound
    rw [← turn_fst] at hturn
    rw [loopDepartures, runLoop_fst]
    refine hturn.append ?_
    have hpause := pause_quiet outside (turn s.config.maxCyclesPerTurn s).value.1
      (turn s.config.maxCyclesPerTurn s).value.2
    change Pause.After _ (pausing outside s) at hpause
    rcases hpausing : pausing outside s with after | ⟨after, outside⟩ | ⟨after, outside, command⟩ <;>
      rw [hpausing] at hpause <;> have hsound := hpause.timers.sound hturn.sound
    · exact .still hpause.onward hsound
    · exact (ih outside hsound).after hpause.onward
    · have hobeyed := (after.obeyed command).onward hsound
      exact (ih outside ((after.obeyed command).sound hsound)).after (hpause.onward.trans hobeyed)

theorem entering_tracked (sound : s.timers.Sound) : s.Onward s.entering ∧ s.entering.timers.Sound := by
  have hdrained := drain_tracked sound
  unfold entering
  split
  · exact ⟨hdrained.onward.trans (scheduleImmediate_onward hdrained.sound true),
      scheduleImmediate_sound hdrained.sound true⟩
  · exact ⟨hdrained.onward, hdrained.sound⟩

theorem paced_departuresOf (call : Call σ) (sound : s.timers.Sound) :
    Paced s (s.departuresOf call) (s.perform call) := by
  have hcall := ((Tracked.kept s).perform call ⟨.now sound, sound⟩).1
  cases call with
  | step => exact .step (.refl s) sound (.still (.refl _) hcall.sound)
  | runDue => exact paced_departures _ sound
  | run fuel outside =>
    obtain ⟨honward, hsound⟩ := entering_tracked sound
    exact (paced_loopDepartures fuel outside hsound).after honward
  | _ => exact .still hcall.onward hcall.sound

theorem paced_allDepartures (calls : List (Call σ)) (sound : s.timers.Sound) :
    Paced s (s.allDepartures calls) (s.performAll calls) := by
  induction calls generalizing s with
  | nil => exact .still (.refl s) sound
  | cons call calls ih =>
    have hcall := paced_departuresOf call sound
    exact hcall.append (ih hcall.sound)

/-- What has become of the timers since each moment of the history, firings apart. -/
structure Sequenced (past : List (Moment σ)) (s : Scheduler σ) : Prop where
  sound : s.timers.Sound
  since : ∀ before m rest, past = before ++ m :: rest → (∀ id, m.mark ≠ .fired id) →
    Tracked m.before (m :: rest) s ∧ Tracked m.after rest s

namespace Sequenced

variable {past : List (Moment σ)}

theorem concat (h : s.Sequenced past) {m : Moment σ} (before : m.before = s) (sound : m.after.timers.Sound)
    (tracked : ∀ {start rest}, Tracked start rest s → Tracked start (rest ++ [m]) m.after) :
    m.after.Sequenced (past ++ [m]) where
  sound := sound
  since earlier first rest heq hmark := by
    rcases List.eq_nil_or_concat rest with rfl | ⟨rest, last, rfl⟩
    · obtain ⟨-, hm⟩ := List.append_inj' heq rfl
      obtain rfl := List.singleton_inj.mp hm
      rw [before]
      exact ⟨tracked (.now h.sound), .now sound⟩
    · rw [List.concat_eq_append, ← List.cons_append, ← List.append_assoc] at heq
      obtain ⟨hpast, hm⟩ := List.append_inj' heq rfl
      obtain rfl := List.singleton_inj.mp hm
      obtain ⟨hbefore, hafter⟩ := h.since earlier first rest hpast hmark
      rw [List.concat_eq_append]
      exact ⟨tracked hbefore, tracked hafter⟩

theorem fired (h : s.Sequenced past) (only : Option ActorSet) (ids : List ActorId) (state : Scheduler σ × Sweep) :
    s.Sequenced (past ++ firingEach only ids state) where
  sound := h.sound
  since before m rest heq hmark := by
    have hnot : m ∉ firingEach only ids state := fun hmem => by
      obtain ⟨id, -, hfired⟩ := mark_of_mem_firingEach hmem
      exact hmark id hfired
    rcases List.append_eq_append_iff.mp heq with ⟨between, -, hfiring⟩ | ⟨between, hpast, hrest⟩
    · rw [hfiring] at hnot
      exact absurd (List.mem_append_right _ List.mem_cons_self) hnot
    · cases between with
      | nil =>
        rw [← List.nil_append (firingEach only ids state), ← hrest] at hnot
        exact absurd List.mem_cons_self hnot
      | cons first between =>
        obtain ⟨rfl, rfl⟩ := List.cons.inj hrest
        obtain ⟨hbefore, hafter⟩ := h.since before m between hpast hmark
        exact ⟨hbefore.fired only ids state, hafter.fired only ids state⟩

theorem kept : Kept fun _ (past : List (Moment σ)) (s : Scheduler σ) => s.Sequenced past where
  quiet h quiet := ⟨quiet.timers.sound h.sound, fun before m rest heq hmark =>
    (h.since before m rest heq hmark).imp (·.quiet quiet) (·.quiet quiet)⟩
  obeyed hstage h sound obeyed :=
    h.concat rfl (obeyed.sound sound) fun tracked => (Tracked.kept _).obeyed hstage tracked sound obeyed
  lapsed h sound obeyed :=
    h.concat rfl (obeyed.sound sound) fun tracked => (Tracked.kept _).lapsed tracked sound obeyed
  begun h sound running none :=
    h.concat rfl (renewImmediate_sound sound true) fun tracked => (Tracked.kept _).begun tracked sound running none
  operated operation h := h.concat rfl h.sound fun tracked => (Tracked.kept _).operated operation tracked
  expired {past s timers id wakeup} h sound going expires := by
    refine h.concat (m := ⟨s, .expired id wakeup, s.expire timers wakeup⟩) rfl ?_ fun tracked => tracked.expired expires
    change (s.expire timers wakeup).timers.Sound
    rw [expire_timers]
    exact expires.sound
  entered := id
  opened {past s} all h :=
    h.concat (m := s.opening all) rfl h.sound fun tracked => (Tracked.kept _).opened all tracked
  closed {past s} cycle all active h sound := by
    have hsound := closeCycle_sound sound cycle all active
    rw [closing, ← List.append_assoc]
    exact (h.fired _ _ _).concat (m := ⟨s, .cycled _, _⟩) rfl hsound fun tracked =>
      tracked.concat rfl rfl (closeCycle_onward sound cycle all active) hsound

end Sequenced

/-- What becomes of a delayed sweep that has been given its place, with all the states from which steps are taken. -/
structure SweepComes (slot : Slot) (past rest : List (Moment σ)) (states : List (Scheduler σ)) (s : Scheduler σ) :
    Prop where
  uncancelled : slot.2 ∉ cancelledTimers past
  waits : slot.2 ∈ s.timers.pending ∨ slot.2 ∈ expiredTimers rest
  starts : ∀ between m later wakeup, rest = between ++ m :: later → m.mark = .expired slot.2 wakeup →
    slot.1 ≤ m.before.now ∧ wakeup = .cycle true ∧ slot.2 ∉ expiredTimers between ∧ slot.2 ∉ expiredTimers later ∧
      ∃ during last report ending, m.after.cycling true = during ++ [last] ∧ later = during ++ last :: ending ∧
        last.mark = .cycled report ∧ report.all = true
  /-- Once it is due it waits for no more steps than there are timers ahead of it. -/
  prompt : ∀ before departure after, states = before ++ departure :: after → slot ∈ departure.timers.live →
    slot.1 ≤ departure.now → (departure.timers.ahead slot).length ≤ after.length →
      slot.2 ∈ expiredTimers rest ∨ s.halted = true

/-- The timers come due in their order, whatever is scheduled in the meantime. -/
structure InTurn (past : List (Moment σ)) (states : List (Scheduler σ)) (s : Scheduler σ) : Prop where
  since : ∀ before m rest, past = before ++ m :: rest → (∀ id, m.mark ≠ .fired id) →
    Tracked m.before (m :: rest) s ∧ Tracked m.after rest s
  prompt : ∀ before departure between later after,
    states ++ [s] = before ++ departure :: between ++ later :: after → ∀ slot ∈ departure.timers.live,
      slot.1 ≤ departure.now → slot.2 ∈ later.timers.pending → later.halted = false →
        between.length < (departure.timers.ahead slot).length
  sweeps : ∀ before m rest delay targets, past = before ++ m :: rest → m.mark = .obeyed (.trigger delay targets) →
    delay.isZero = false → m.before.done = false → ∃ deadline : Instant,
      (m.before.now.nanos + delay.nanos < Instant.limit → deadline.nanos = m.before.now.nanos + delay.nanos) ∧
        (deadline, m.before.nextTimer) ∈ m.after.timers.live ∧
        SweepComes (deadline, m.before.nextTimer) past rest states s

theorem Paced.prompt {start departure later : Scheduler σ} {before between after : List (Scheduler σ)}
    (h : Paced start (before ++ departure :: between ++ later :: after) s) (live : slot ∈ departure.timers.live)
    (due : slot.1 ≤ departure.now) (pending : slot.2 ∈ later.timers.pending) (going : later.halted = false) :
    between.length < (departure.timers.ahead slot).length := by
  obtain ⟨hstart, hbetween⟩ := h.of_append.1.of_append
  have hpaced : Paced departure (departure :: between) later := .step (.refl _) hstart.sound hbetween
  have hahead := hpaced.ahead hstart.sound live due pending going
  rw [List.length_cons] at hahead
  omega

end Scheduler

theorem Instant.after_of_lt {t : Instant} {d : Duration} (h : t.nanos + d.nanos < limit) :
    (t.after d).nanos = t.nanos + d.nanos := by
  simp [after, add?, h]

namespace Run

def departures (run : Run σ) : List (Scheduler σ) := run.start.allDepartures run.calls

theorem paced (run : Run σ) : Scheduler.Paced run.start (run.departures ++ [run.state]) run.state.step.value.1 := by
  have hpaced := Scheduler.paced_allDepartures (s := run.start) run.calls TimerQueue.sound_empty
  have hstep := Scheduler.step_tracked hpaced.sound
  exact hpaced.append (.step (.refl _) hpaced.sound (.still (.refl _) hstep.sound))

theorem uncancelled (run : Run σ) {id : TimerId} (accepted : id ∈ acceptedSweeps run.history) :
    id ∉ cancelledTimers run.history := by
  intro hcancelled
  have hbooked := (run.invariant Scheduler.Booked.kept (.start run)).1
  have htracked := (run.invariant (Scheduler.Tracked.kept run.start) (.now TimerQueue.sound_empty)).1
  have hunexpired : id ∉ expiredTimers run.history := fun hexpired => htracked.apart id hexpired hcancelled
  have hpending := hbooked.delayed id (mem_delayedSweeps.mpr ⟨accepted, hunexpired⟩)
  exact (htracked.gone id (.inr hcancelled)).1 (Std.ExtTreeMap.getElem?_eq_some_iff.mp hpending).1

theorem expired_once {between ending : List (Moment σ)} {m : Moment σ} {id : TimerId} {wakeup : Wakeup}
    (expires : m.mark = .expired id wakeup) (distinct : (expiredTimers (between ++ m :: ending)).Nodup) :
    id ∉ expiredTimers between ∧ id ∉ expiredTimers ending := by
  have hexpiry : m.expiry? = some id := by simp [Moment.expiry?, expires]
  have hsplit : expiredTimers (between ++ m :: ending) = expiredTimers between ++ id :: expiredTimers ending :=
    (Scheduler.expiredTimers_append ..).trans (congrArg _ (List.filterMap_cons_some hexpiry))
  obtain ⟨hnot, -⟩ := List.nodup_cons.mp (List.nodup_middle.mp (hsplit ▸ distinct))
  rwa [List.mem_append, not_or] at hnot

section Sweep

variable {run : Run σ} {before rest : List (Moment σ)} {m : Moment σ} {delay : Duration} {targets : Targets}

theorem delayed_after (history : run.history = before ++ m :: rest) (mark : m.mark = .obeyed (.trigger delay targets))
    (later : delay.isZero = false) (running : m.before.done = false) :
    m.after = (m.before.schedule delay (.cycle true)).2 := by
  have hobeyed := (run.genuine _ _ _ history).obeyed _ mark
  revert hobeyed
  generalize m.after = after
  intro hobeyed
  cases hobeyed with
  | delayed => rfl
  | ignored _ _ stopped =>
    rw [running] at stopped
    cases stopped
  | sweep _ _ now | dropped _ _ _ now | joined _ _ _ now =>
    rw [later] at now
    cases now

/-- A delayed sweep comes due in its turn. -/
theorem sweep_comes (history : run.history = before ++ m :: rest) (mark : m.mark = .obeyed (.trigger delay targets))
    (later : delay.isZero = false) (running : m.before.done = false) :
    (m.before.now.after delay, m.before.nextTimer) ∈ m.after.timers.live ∧
      Scheduler.SweepComes (m.before.now.after delay, m.before.nextTimer) run.history rest run.departures
        run.state := by
  have hunfired : ∀ id, m.mark ≠ .fired id := by simp [mark]
  obtain ⟨hstart, htracked⟩ :=
    (run.invariant Scheduler.Sequenced.kept ⟨TimerQueue.sound_empty, by simp⟩).1.since _ _ _ history hunfired
  have hafter := delayed_after history mark later running
  have hlive : (m.before.now.after delay, m.before.nextTimer) ∈ m.after.timers.live := by
    rw [hafter]
    exact (Scheduler.mem_live_schedule hstart.origin).mpr (.inl rfl)
  have hpayload : m.after.timers.pending[m.before.nextTimer]? = some (.cycle true) := by
    rw [hafter]
    exact (Scheduler.schedule_pending hstart.origin).mpr (.inl ⟨rfl, rfl⟩)
  have huncancelled : m.before.nextTimer ∉ cancelledTimers run.history := by
    refine run.uncancelled (List.mem_filterMap.mpr ⟨m, ?_, ?_⟩)
    · rw [history]
      exact List.mem_append_right _ List.mem_cons_self
    · simp [Moment.sweep?, mark, later, running]
  have hwaits : m.before.nextTimer ∈ run.state.timers.pending ∨ m.before.nextTimer ∈ expiredTimers rest := by
    refine (htracked.waits _ (TimerQueue.mem_live.mp hlive).2).imp_right fun hgone =>
      hgone.resolve_right fun hrest => ?_
    rw [history, cancelledTimers, List.flatMap_append, List.flatMap_cons] at huncancelled
    exact huncancelled (List.mem_append_right _ (List.mem_append_right _ hrest))
  refine ⟨hlive, huncancelled, hwaits, ?_, ?_⟩
  case refine_1 =>
    rintro between other ending wakeup rfl hexpired
    obtain ⟨hdue, hwakeup⟩ := (htracked.along _ _ _ rfl).timely _ hlive _ hexpired
    obtain rfl : wakeup = .cycle true := Option.some.inj (hwakeup.symm.trans hpayload)
    obtain ⟨hnot, hnever⟩ := expired_once hexpired htracked.distinct
    refine ⟨hdue, rfl, hnot, hnever, ?_⟩
    rw [← List.cons_append, ← List.append_assoc] at history
    exact run.start.history_cycled run.calls history hexpired
  case refine_2 =>
    intro earlier departure after hstates hplace hdue henough
    refine or_iff_not_imp_left.mpr fun hunexpired => by_contra fun hgoing => ?_
    have hpaced := run.paced
    rw [hstates] at hpaced
    have hfewer := hpaced.prompt hplace hdue (hwaits.resolve_right hunexpired) (eq_false_of_ne_true hgoing)
    omega

end Sweep

/-- In every run timers come due in their order. -/
theorem timers_in_turn (run : Run σ) : run.state.InTurn run.history run.departures where
  since := (run.invariant Scheduler.Sequenced.kept ⟨TimerQueue.sound_empty, by simp⟩).1.since
  prompt before departure between later after hstates slot hlive hdue hpending hgoing := by
    have hpaced := run.paced
    rw [hstates] at hpaced
    exact hpaced.prompt hlive hdue hpending hgoing
  sweeps before m rest delay targets history mark later running := by
    obtain ⟨hlive, hcomes⟩ := sweep_comes history mark later running
    exact ⟨_, Instant.after_of_lt, hlive, hcomes⟩

end Run

end ActorNet
