import ActorNet.Proofs.Shutdown

set_option autoImplicit false

/-!
# A full sweep that has been asked for takes place

Once the immediate cycle is a full sweep it remains one. Narrower requests join it, another full sweep takes its
place, cycles of other timers leave it alone, and a halt stands behind it. It ends in one way only: a step takes
its timer, and the cycle that begins then is a full sweep.
-/
namespace ActorNet

variable {σ : Type}

namespace Scheduler

variable {s s' : Scheduler σ} {past : List (Moment σ)}

/-- The immediate cycle is outstanding, and it is a full sweep. -/
def SweepAhead (s : Scheduler σ) : Prop :=
  ∃ id, s.immediate = some id ∧ s.timers.pending[id]? = some (.cycle true)

theorem SweepAhead.hasImmediateCycle (h : s.SweepAhead) : s.hasImmediateCycle = true := by
  obtain ⟨id, himmediate, hpending⟩ := h
  exact s.hasImmediateCycle_iff.mpr ⟨id, himmediate, (Std.ExtTreeMap.getElem?_eq_some_iff.mp hpending).1⟩

theorem SweepAhead.immediateSweep (h : s.SweepAhead) (booked : s.Booked past) : s.immediateSweep = true := by
  obtain ⟨id, himmediate, hpending⟩ := h
  exact (Wakeup.cycle.inj (booked.immediate id _ himmediate hpending)).symm

theorem SweepAhead.mono (h : s.SweepAhead) (immediate : s'.immediate = s.immediate)
    (stays : ∀ id, s.immediate = some id → s.timers.pending[id]? = some (.cycle true) →
      s'.timers.pending[id]? = some (.cycle true)) : s'.SweepAhead := by
  obtain ⟨id, himmediate, hpending⟩ := h
  exact ⟨id, immediate.trans himmediate, stays id himmediate hpending⟩

theorem renewImmediate_sweepAhead (s : Scheduler σ) : (s.renewImmediate true).SweepAhead := by
  refine ⟨_, rfl, ?_⟩
  exact (schedule_getElem? _ _ _ _).trans (if_pos rfl)

theorem SweepAhead.schedule (h : s.SweepAhead) (sound : s.timers.Sound) (delay : Duration) (wakeup : Wakeup) :
    (s.schedule delay wakeup).2.SweepAhead :=
  h.mono rfl fun _ _ hpending => (schedule_pending sound).mpr (.inr hpending)

theorem SweepAhead.scheduleImmediate (h : s.SweepAhead) (all : Bool) : (s.scheduleImmediate all).SweepAhead := by
  cases all with
  | true =>
    rw [scheduleImmediate_sweep]
    exact s.renewImmediate_sweepAhead
  | false =>
    rw [scheduleImmediate_eq, h.hasImmediateCycle]
    exact h

theorem SweepAhead.cancelHeartbeat (h : s.SweepAhead) (booked : s.Booked past) : s.cancelHeartbeat.SweepAhead := by
  refine h.mono ?_ fun id himmediate hpending => ?_
  · unfold Scheduler.cancelHeartbeat
    rw [cancel_eq]
  · refine cancel_pending.mpr ⟨fun hheartbeat => ?_, hpending⟩
    rw [(booked.heartbeat id).mpr hheartbeat] at hpending
    cases hpending

theorem Obeyed.sweepAhead {command : Command} (obeyed : s.Obeyed command s') (h : s.SweepAhead)
    (sound : s.timers.Sound) : s'.SweepAhead := by
  cases obeyed with
  | ignored | stopAgain | dropped => exact h
  | delayed delay => exact h.schedule sound delay _
  | sweep => exact s.renewImmediate_sweepAhead
  | joined delay ids => exact SweepAhead.scheduleImmediate (s := s.join ids) h false
  | stop => exact h.schedule sound _ .halt

theorem Obeyed.asked {delay : Duration} (obeyed : s.Obeyed (.trigger delay .all) s') (running : s.done = false)
    (now : delay.isZero = true) : s'.SweepAhead := by
  cases obeyed with
  | sweep => exact s.renewImmediate_sweepAhead
  | ignored _ _ stopped =>
    rw [stopped] at running
    cases running
  | delayed _ _ _ later =>
    rw [now] at later
    cases later

theorem Taken.sweepAhead_iff (taken : s.Taken s') (booked : s.Booked past) : s'.SweepAhead ↔ s.SweepAhead := by
  cases taken with
  | gone hgone =>
    constructor
    · rintro ⟨id, himmediate, -⟩
      cases himmediate
    · intro h
      rw [h.hasImmediateCycle] at hgone
      cases hgone
  | narrow _ hnarrow =>
    constructor
    · rintro ⟨id, himmediate, -⟩
      cases himmediate
    · intro h
      rw [h.immediateSweep booked] at hnarrow
      cases hnarrow
  | sweep => exact Iff.rfl

theorem swept_sweepAhead_iff (booked : s.Booked past) (all : Bool) : (s.swept all).SweepAhead ↔ s.SweepAhead := by
  obtain ⟨registry, stats, hframe⟩ := s.swept_frame all
  rw [hframe]
  exact s.takePending_taken.sweepAhead_iff booked

theorem Followed.sweepAhead {result : FiringResult} {active : Bool} {next : NextCycle}
    (followed : s.Followed result active next s') (h : s.SweepAhead) (sound : s.timers.Sound) (booked : s.Booked past) :
    s'.SweepAhead := by
  have hcancelled := h.cancelHeartbeat booked
  cases followed with
  | stopped => exact h
  | fired => exact SweepAhead.scheduleImmediate (s := s.cancelHeartbeat.gather result.affected) hcancelled false
  | active => exact s.cancelHeartbeat.renewImmediate_sweepAhead
  | quiet => exact hcancelled.schedule (cancelHeartbeat_sound sound) _ .heartbeat

structure Fronted (s : Scheduler σ) : Prop where
  behind : ∀ halt ∈ s.timers.live, s.timers.pending[halt.2]? = some .halt →
    ∀ slot ∈ s.timers.live, s.immediate = some slot.2 → slot.1 ≤ halt.1 ∧ slot.2.number < halt.2.number
  halted : s.halted = true → s.hasImmediateCycle = false

namespace Fronted

theorem of_running (booked : s.Booked past) (running : s.done = false) : s.Fronted where
  behind halt _ hpending := by
    obtain ⟨id, hhalt⟩ := booked.halt
    rw [((hhalt halt.2).mp hpending).1] at running
    cases running
  halted hhalted := by
    rw [booked.order hhalted] at running
    cases running

theorem shrinks (h : s.Fronted) (shrinks : s.timers.Shrinks s'.timers)
    (immediate : s'.immediate = s.immediate ∨ s'.immediate = none) (halted : s'.halted = s.halted) : s'.Fronted := by
  have hold : ∀ {slot : Slot}, slot ∈ s'.timers.live → slot ∈ s.timers.live := by
    intro slot hslot
    rw [shrinks.live] at hslot
    exact (List.mem_filter.mp hslot).1
  have hrecord : ∀ {id : TimerId}, s'.immediate = some id → s.immediate = some id := by
    intro id hid
    rcases immediate with hsame | hnone
    · exact hsame.symm.trans hid
    · rw [hnone] at hid
      cases hid
  refine ⟨fun halt hhalt hpending slot hslot himmediate => ?_, fun hhalted => ?_⟩
  · exact h.behind halt (hold hhalt) (shrinks.pending _ _ hpending) slot (hold hslot) (hrecord himmediate)
  · rw [halted] at hhalted
    refine eq_false_of_ne_true fun hhas => ?_
    obtain ⟨id, hid, hmem⟩ := s'.hasImmediateCycle_iff.mp hhas
    have hbefore : s.hasImmediateCycle = true := s.hasImmediateCycle_iff.mpr ⟨id, hrecord hid, shrinks.mem hmem⟩
    rw [h.halted hhalted] at hbefore
    cases hbefore

theorem same (h : s.Fronted) (same : s.timers.Same s'.timers) (immediate : s'.immediate = s.immediate)
    (halted : s'.halted = s.halted) : s'.Fronted :=
  h.shrinks same.shrinks (.inl immediate) halted

theorem stop (booked : s.Booked past) (sound : s.timers.Sound) (running : s.done = false) :
    Fronted { (s.schedule .zero .halt).2 with done := true } where
  behind halt hhalt hpending slot hslot himmediate := by
    have hnone : ∀ id : TimerId, s.timers.pending[id]? ≠ some .halt := by
      obtain ⟨id, hhalts⟩ := booked.halt
      intro other hother
      rw [((hhalts other).mp hother).1] at running
      cases running
    have hnew : halt = (s.now.after .zero, s.nextTimer) := by
      refine ((mem_live_schedule sound).mp hhalt).resolve_right fun hlive => ?_
      rcases (schedule_pending sound).mp hpending with ⟨hid, -⟩ | hold
      · exact sound.fresh hlive hid.symm
      · exact hnone _ hold
    have hold : slot ∈ s.timers.live := by
      refine ((mem_live_schedule sound).mp hslot).resolve_left ?_
      rintro rfl
      exact booked.nextTimer_fresh.2.2 himmediate
    rw [hnew, Instant.after_zero]
    exact ⟨booked.due slot hold himmediate, sound.number_lt (TimerQueue.mem_live.mp hold).2⟩
  halted hhalted := by
    have hdone := booked.order hhalted
    rw [running] at hdone
    cases hdone

theorem obeyed {command : Command} {past' : List (Moment σ)} (h : s.Fronted) (obeyed : s.Obeyed command s')
    (booked : s.Booked past) (booked' : s'.Booked past') (sound : s.timers.Sound) : s'.Fronted := by
  cases hdone : s.done with
  | true => rwa [obeyed.stays hdone]
  | false =>
    by_cases hstop : command = .stop
    · subst hstop
      cases obeyed with
      | stopAgain => exact h
      | stop => exact .stop booked sound hdone
    · exact .of_running booked' ((obeyed.running hstop).trans hdone)

theorem taken (h : s.Fronted) (taken : s.Taken s') : s'.Fronted := by
  have hhalted : s'.halted = s.halted := by
    rw [taken.frame]
    rfl
  refine h.shrinks taken.shrinks ?_ hhalted
  cases taken with
  | gone | narrow => exact .inr rfl
  | sweep => exact .inl rfl

theorem expired (h : s.Fronted) (sound : s.timers.Sound) {id : TimerId} {wakeup : Wakeup}
    {timers : TimerQueue Wakeup} (expires : s.timers.Expires s.now id wakeup timers) :
    (s.expire timers wakeup).Fronted := by
  obtain ⟨stats, hframe⟩ := s.expire_frame timers wakeup
  rw [hframe]
  by_cases hhalt : wakeup = .halt
  · subst hhalt
    have hgone : Fronted { s with timers } := h.shrinks expires.shrinks (.inl rfl) rfl
    refine ⟨hgone.behind, fun _ => eq_false_of_ne_true fun hhas => ?_⟩
    obtain ⟨other, himmediate, hmem⟩ := (hasImmediateCycle_iff _).mp hhas
    obtain ⟨due, hslot⟩ := expires.sound.exists_live hmem
    obtain ⟨deadline, -, hlive⟩ := expires.live
    have hordered : TimerQueue.Ordered s.timers.live := sound.ordered.filter _
    have hfront := h.behind (deadline, id) (hlive ▸ List.mem_cons_self) expires.payload (due, other)
      (hlive ▸ List.mem_cons_of_mem _ hslot) himmediate
    rw [hlive] at hordered
    -- The halt comes first of all, so the immediate cycle would stand behind it.
    have hbefore := (Slot.before_iff _ _).mp ((List.pairwise_cons.mp hordered).1 _ hslot)
    have hnanos : due.nanos ≤ deadline.nanos := hfront.1
    dsimp only at hbefore hfront
    omega
  · rw [if_neg hhalt]
    exact h.shrinks expires.shrinks (.inl rfl) rfl

end Fronted

end Scheduler

def Moment.Serves (m : Moment σ) : Prop := ∃ id, m.mark = .expired id (.cycle true) ∧ m.before.immediate = some id

/-- A sweep was ahead at some moment, and none has been served since. -/
def Awaited (past : List (Moment σ)) : Prop :=
  ∃ before m rest, past = before ++ m :: rest ∧ m.after.SweepAhead ∧ ∀ other ∈ rest, ¬other.Serves

theorem awaited_concat {past : List (Moment σ)} {m : Moment σ} :
    Awaited (past ++ [m]) ↔ m.after.SweepAhead ∨ (Awaited past ∧ ¬m.Serves) := by
  constructor
  · rintro ⟨before, first, rest, heq, hahead, hunserved⟩
    rcases List.eq_nil_or_concat rest with rfl | ⟨rest, last, rfl⟩
    · obtain ⟨-, hm⟩ := List.append_inj' heq rfl
      rw [List.singleton_inj.mp hm]
      exact .inl hahead
    · rw [List.concat_eq_append, ← List.cons_append, ← List.append_assoc] at heq
      obtain ⟨rfl, hm⟩ := List.append_inj' heq rfl
      rw [List.concat_eq_append, ← List.singleton_inj.mp hm] at hunserved
      refine .inr ⟨⟨before, first, rest, rfl, hahead, fun other hother => ?_⟩, ?_⟩
      · exact hunserved other (List.mem_append_left _ hother)
      · exact hunserved m (List.mem_append_right _ List.mem_cons_self)
  · rintro (hahead | ⟨⟨before, first, rest, rfl, hahead, hunserved⟩, hm⟩)
    · exact ⟨past, m, [], rfl, hahead, fun _ hother => absurd hother List.not_mem_nil⟩
    · refine ⟨before, first, rest ++ [m], by rw [List.append_assoc, List.cons_append], hahead, fun other hother => ?_⟩
      rcases List.mem_append.mp hother with hold | hnew
      · exact hunserved other hold
      · rwa [List.mem_singleton.mp hnew]

/-- A sweep that is awaited is ahead before the moment, and one that is ahead stays so unless it is served. -/
structure Moment.Keeps (past : List (Moment σ)) (m : Moment σ) : Prop where
  ahead : Awaited past → m.before.SweepAhead
  keeps : m.before.SweepAhead → ¬m.Serves → m.after.SweepAhead

namespace Scheduler

variable {s s' : Scheduler σ} {past : List (Moment σ)}

structure Sweeping (past : List (Moment σ)) (s : Scheduler σ) : Prop where
  booked : s.Booked past
  fronted : s.Fronted
  ahead : Awaited past → s.SweepAhead
  along : Along Moment.Keeps past

namespace Sweeping

theorem concat (h : s.Sweeping past) {m : Moment σ} (booked : m.after.Booked (past ++ [m])) (fronted : m.after.Fronted)
    (before : m.before.SweepAhead ↔ s.SweepAhead) (keeps : s.SweepAhead → ¬m.Serves → m.after.SweepAhead) :
    m.after.Sweeping (past ++ [m]) where
  booked := booked
  fronted := fronted
  ahead hawaited := (awaited_concat.mp hawaited).elim id fun hold => keeps (h.ahead hold.1) hold.2
  along := h.along.concat ⟨fun hawaited => before.mpr (h.ahead hawaited), fun hahead => keeps (before.mp hahead)⟩

theorem idle (h : s.Sweeping past) {m : Moment σ} (booked : m.after.Booked (past ++ [m])) (before : m.before = s)
    (timers : m.after.timers = s.timers) (immediate : m.after.immediate = s.immediate)
    (halted : m.after.halted = s.halted) : m.after.Sweeping (past ++ [m]) := by
  refine h.concat booked (h.fronted.same ?_ immediate halted) (by rw [before]) fun hahead _ => ?_
  · rw [timers]
    exact .refl _
  · exact hahead.mono immediate fun _ _ hpending => by rwa [timers]

theorem quiet (h : s.Sweeping past) (quiet : s.Quiet s') : s'.Sweeping past where
  booked := h.booked.quiet quiet
  fronted := by
    refine h.fronted.same quiet.timers ?_ ?_ <;> rw [quiet.eq]
  ahead hawaited := by
    refine (h.ahead hawaited).mono ?_ fun id _ hpending => ?_
    · rw [quiet.eq]
    · rwa [quiet.timers.pending]
  along := h.along

theorem obeyed (h : s.Sweeping past) (sound : s.timers.Sound) {command : Command} (obeyed : s.Obeyed command s') :
    s'.Sweeping (past ++ [⟨s, .obeyed command, s'⟩]) := by
  have hbooked := h.booked.obeyed sound obeyed
  exact h.concat hbooked (h.fronted.obeyed obeyed h.booked hbooked sound) .rfl fun hahead _ =>
    obeyed.sweepAhead hahead sound

theorem expired (h : s.Sweeping past) (sound : s.timers.Sound) {id : TimerId} {wakeup : Wakeup}
    {timers : TimerQueue Wakeup} (expires : s.timers.Expires s.now id wakeup timers) :
    (s.expire timers wakeup).Sweeping (past ++ [⟨s, .expired id wakeup, s.expire timers wakeup⟩]) := by
  refine h.concat (h.booked.expire sound expires) (h.fronted.expired sound expires) .rfl ?_
  intro hahead hunserved
  obtain ⟨stats, hframe⟩ := s.expire_frame timers wakeup
  rw [hframe]
  refine hahead.mono rfl fun other himmediate hpending => expires.pending_iff.mpr ⟨?_, hpending⟩
  rintro rfl
  rw [expires.payload] at hpending
  exact hunserved ⟨other, congrArg (Mark.expired other) (Option.some.inj hpending), himmediate⟩

theorem fired (h : s.Sweeping past) (only : Option ActorSet) (ids : List ActorId) (sweep : Sweep) :
    (fireEach only ids (s, sweep)).value.1.Sweeping (past ++ firingEach only ids (s, sweep)) := by
  induction ids generalizing past s sweep with
  | nil =>
    rw [firingEach, List.append_nil]
    exact h
  | cons id ids ih =>
    rw [firingEach, fireEach]
    split
    · rw [List.append_cons, Logged.value_bind]
      obtain ⟨fireErrors, hframe⟩ := s.fireOne_frame sweep id
      let m : Moment σ := ⟨s, .fired id, (s.fireOne sweep id).value.1⟩
      have hidle : m.Idle past := ⟨rfl, rfl, by simp [m]⟩
      have hbooked : m.after.Booked (past ++ [m]) := by
        have hsame := h.booked.idle hidle
        rw [show m.after = _ from hframe]
        exact { hsame with }
      have hsame := h.idle hbooked rfl (congrArg timers hframe :) (congrArg immediate hframe :)
        (congrArg halted hframe :)
      exact ih hsame _
    · exact ih h sweep

theorem taken (h : s.Sweeping past) (taken : s.Taken s') : s'.Sweeping past where
  booked := h.booked.taken taken
  fronted := h.fronted.taken taken
  ahead hawaited := (taken.sweepAhead_iff h.booked).mpr (h.ahead hawaited)
  along := h.along

theorem counted (h : s.Sweeping past) (didFire : Bool) : (s.countFiring didFire).Sweeping past := by
  obtain ⟨firingCycles, hframe⟩ := s.countFiring_frame didFire
  rw [hframe]
  exact ⟨{ h.booked with }, h.fronted.same (.refl _) rfl rfl, h.ahead, h.along⟩

theorem swept (h : s.Sweeping past) (all : Bool) :
    (s.swept all).Sweeping (past ++ firingEach (s.scope all) s.registry.enabled (s.takePending.2, {})) :=
  ((h.taken s.takePending_taken).fired _ _ _).counted _

theorem closed (h : s.Sweeping past) (sound : s.timers.Sound) (cycle : Nat) (all active : Bool) :
    (s.closeCycle cycle all active).1.Sweeping (past ++ s.closing cycle all active) := by
  have hswept := h.swept all
  have hbooked := Booked.kept.closed cycle all active h.booked sound
  rw [closing, ← List.append_assoc] at hbooked ⊢
  refine hswept.concat hbooked ?_ (swept_sweepAhead_iff h.booked all).symm fun hahead _ => ?_
  · cases hdone : s.done with
    | true =>
      change (s.closeCycle cycle all active).1.Fronted
      rw [(s.closeCycle_stays hdone cycle all active).1]
      exact hswept.fronted
    | false => exact .of_running hbooked ((s.closeCycle_done cycle all active).trans hdone)
  · exact (s.closeCycle_followed cycle all active).sweepAhead hahead (swept_sound sound all) hswept.booked

theorem kept : Kept fun _ (past : List (Moment σ)) (s : Scheduler σ) => s.Sweeping past where
  quiet := quiet
  obeyed _ h sound := h.obeyed sound
  lapsed h sound := h.obeyed sound
  begun {past s} h sound hdone hnone := by
    have hbooked := Booked.kept.begun h.booked sound hdone hnone
    obtain ⟨timers, hframe⟩ := s.renewImmediate_frame true
    refine h.concat (m := s.beginning) hbooked (.of_running hbooked ?_) .rfl fun _ _ => s.renewImmediate_sweepAhead
    exact (congrArg done hframe).trans hdone
  operated operation h := h.idle (Booked.kept.operated operation h.booked) rfl rfl rfl rfl
  expired h sound _ := h.expired sound
  entered := id
  opened all h := h.idle (m := opening _ all) (Booked.kept.opened all h.booked) rfl rfl rfl rfl
  closed cycle all active h sound := h.closed sound cycle all active

theorem start (run : Run σ) : run.start.Sweeping [] where
  booked := .start run
  fronted := ⟨fun _ h => absurd h List.not_mem_nil, fun _ => rfl⟩
  ahead := by
    rintro ⟨before, m, rest, heq, -⟩
    cases before <;> cases heq
  along := along_nil

end Sweeping

end Scheduler

/-- A full sweep at once is asked of a scheduler that has not been stopped. -/
def Moment.Asks (m : Moment σ) : Prop :=
  m.before.done = false ∧ ∃ delay, delay.isZero = true ∧ m.mark = .obeyed (.trigger delay .all)

theorem Moment.Genuine.asks {m : Moment σ} (genuine : m.Genuine) (asks : m.Asks) : m.after.SweepAhead := by
  obtain ⟨hrunning, delay, hzero, hmark⟩ := asks
  exact (genuine.obeyed _ hmark).asked hrunning hzero

theorem Moment.Genuine.serves {m : Moment σ} (genuine : m.Genuine) (ahead : m.before.SweepAhead) {id : TimerId}
    {wakeup : Wakeup} (mark : m.mark = .expired id wakeup) (immediate : m.before.immediate = some id) : m.Serves := by
  obtain ⟨other, hother, hpending⟩ := ahead
  obtain ⟨timers, hexpires, -⟩ := genuine.expired id wakeup mark
  rw [immediate] at hother
  cases hother
  rw [hexpires.payload] at hpending
  cases hpending
  exact ⟨id, mark, immediate⟩

structure Scheduler.SweepsServed (past : List (Moment σ)) (s : Scheduler σ) : Prop where
  /-- As long as no full sweep is served, one is ahead, and the scheduler has not halted. -/
  outstanding : ∀ before m rest, past = before ++ m :: rest → m.Asks → (∀ other ∈ rest, ¬other.Serves) →
    s.SweepAhead ∧ s.halted = false
  throughout : ∀ before m between other rest, past = before ++ m :: between ++ other :: rest → m.Asks →
    (∀ earlier ∈ between, ¬earlier.Serves) →
      other.before.SweepAhead ∧ (other.Serves ∨ other.after.SweepAhead)
  taken : ∀ before m between other rest, past = before ++ m :: between ++ other :: rest → m.Asks →
    (∀ earlier ∈ between, ¬earlier.Serves) →
      ∀ id wakeup, other.mark = .expired id wakeup → other.before.immediate = some id → other.Serves
  served : ∀ before m rest, past = before ++ m :: rest → m.Serves →
    ∃ during last report later, m.after.cycling true = during ++ [last] ∧ rest = during ++ last :: later ∧
      last.mark = .cycled report ∧ report.all = true

/-- In every run a full sweep that is asked for stays ahead until it takes place. -/
theorem Run.sweeps_served (run : Run σ) : run.state.SweepsServed run.history := by
  have hsweeping := (run.invariant Scheduler.Sweeping.kept (.start run)).1
  have hasked : ∀ before m between rest, run.history = before ++ m :: between ++ rest → m.Asks →
      (∀ other ∈ between, ¬other.Serves) → Awaited (before ++ m :: between) := by
    intro before m between rest heq hasks hunserved
    rw [List.append_assoc, List.cons_append] at heq
    exact ⟨before, m, between, rfl, (run.genuine _ _ _ heq).asks hasks, hunserved⟩
  constructor
  case outstanding =>
    intro before m rest heq hasks hunserved
    have hahead := hsweeping.ahead (by
      rw [heq]
      exact hasked before m rest [] (by rw [heq, List.append_nil]) hasks hunserved)
    refine ⟨hahead, eq_false_of_ne_true fun hhalted => ?_⟩
    have hnone := hsweeping.fronted.halted hhalted
    rw [hahead.hasImmediateCycle] at hnone
    cases hnone
  case throughout =>
    intro before m between other rest heq hasks hunserved
    have hkeeps := hsweeping.along _ _ _ heq
    have hahead := hkeeps.ahead (hasked before m between _ heq hasks hunserved)
    exact ⟨hahead, or_iff_not_imp_left.mpr (hkeeps.keeps hahead)⟩
  case taken =>
    intro before m between other rest heq hasks hunserved id wakeup hmark himmediate
    have hahead := (hsweeping.along _ _ _ heq).ahead (hasked before m between _ heq hasks hunserved)
    exact (run.genuine _ _ _ heq).serves hahead hmark himmediate
  case served =>
    rintro before m rest heq ⟨id, hmark, -⟩
    obtain ⟨later, hrest⟩ := run.start.history_prompt run.calls before m rest heq id true hmark
    obtain ⟨during, last, hcycle, hcycled⟩ := m.after.exists_cycled true
    refine ⟨during, last, _, later, hcycle, ?_, hcycled, m.after.loopOnce_all true⟩
    rw [← hrest, hcycle, List.append_assoc, List.singleton_append]

end ActorNet
