import ActorNet.Proofs.Succession
import ActorNet.Proofs.Vigilance

set_option autoImplicit false

/-!
# A stop serves what is due, and then halts for good

From the stop on timers only go. Those due at the stop stand before the halt and all others behind it, so they
are served in their order, those apart that are cancelled, and then comes the halt. Each step until then takes
one timer away, which bounds their number; the run loop takes such steps until the halt and never waits.
-/
namespace ActorNet

variable {σ : Type}

def Moment.cancelled (m : Moment σ) : List TimerId :=
  match m.expiry? with
  | some _ => []
  | none => m.before.timers.pending.keys.filter (· ∉ m.after.timers.pending)

def cancelledTimers (past : List (Moment σ)) : List TimerId := past.flatMap Moment.cancelled

theorem Moment.mem_cancelled {m : Moment σ} (h : m.expiry? = none) {id : TimerId} :
    id ∈ m.cancelled ↔ id ∈ m.before.timers.pending ∧ id ∉ m.after.timers.pending := by
  simp [cancelled, h]

theorem cancelledTimers_concat (past : List (Moment σ)) (m : Moment σ) :
    cancelledTimers (past ++ [m]) = cancelledTimers past ++ m.cancelled := by
  simp [cancelledTimers]

/-- At a moment after a stop no timer is scheduled, no command changes anything, and no cycle decides anything. -/
structure Moment.Spent (m : Moment σ) : Prop where
  unscheduled : m.after.timers.nextNumber = m.before.timers.nextNumber
  ignored : ∀ command, m.mark = .obeyed command → m.after = m.before
  undecided : ∀ report, m.mark = .cycled report → report.next = .stopped

/-- The first stop: the moment at which a scheduler is stopped. -/
def Moment.Stops (m : Moment σ) : Prop := m.mark = .obeyed .stop ∧ m.before.done = false

namespace Scheduler

variable {s s' : Scheduler σ}

def dueSlots (s : Scheduler σ) : List Slot := s.timers.live.filter (·.1 ≤ s.now)

theorem mem_dueSlots {slot : Slot} :
    slot ∈ s.dueSlots ↔ (slot ∈ s.timers.agenda ∧ slot.2 ∈ s.timers.pending) ∧ slot.1 ≤ s.now := by
  simp [dueSlots, TimerQueue.mem_live]

theorem dueSlots_ordered (sound : s.timers.Sound) : TimerQueue.Ordered s.dueSlots :=
  (sound.ordered.filter _).filter _

theorem live_schedule (sound : s.timers.Sound) (delay : Duration) (wakeup : Wakeup) :
    (s.schedule delay wakeup).2.timers.live =
      s.timers.live.filter (·.1 ≤ s.now.after delay) ++
        (s.now.after delay, s.nextTimer) :: s.timers.live.filter (s.now.after delay < ·.1) :=
  TimerQueue.live_scheduleAt sound _ _

theorem Obeyed.stays {command : Command} (h : s.Obeyed command s') (stopped : s.done = true) : s' = s := by
  cases h with
  | ignored | stopAgain => rfl
  | delayed _ _ hrunning | sweep _ hrunning | dropped _ _ hrunning | joined _ _ hrunning | stop hrunning =>
    rw [stopped] at hrunning
    cases hrunning

theorem obey_stays (s : Scheduler σ) (stopped : s.done = true) (command : Command) : (s.obey command).value = s :=
  (s.obeyed command).stays stopped

theorem drain_stays (stopped : s.done = true) : s.drain.value = { s with inbox := [] } := by
  have hall : ∀ (commands : List Command) (s' : Scheduler σ), s'.done = true →
      (commands.foldlM obey s').value = s' := by
    intro commands
    induction commands with
    | nil => exact fun _ _ => rfl
    | cons command commands ih =>
      intro s' hstopped
      rw [List.foldlM_cons, Logged.value_bind, s'.obey_stays hstopped]
      exact ih s' hstopped
  exact hall s.inbox { s with inbox := [] } stopped

theorem Taken.shrinks (h : s.Taken s') : s.timers.Shrinks s'.timers := by
  cases h with
  | gone | sweep => exact (TimerQueue.Same.refl _).shrinks
  | narrow =>
    change s.timers.Shrinks (s.clear.cancel s.immediate).timers
    cases s.immediate with
    | none => exact (TimerQueue.Same.refl _).shrinks
    | some id => exact s.timers.shrinks_cancel id

theorem closeCycle_stays (s : Scheduler σ) (stopped : s.done = true) (cycle : Nat) (all active : Bool) :
    (s.closeCycle cycle all active).1 = s.swept all ∧ (s.closeCycle cycle all active).2.next = .stopped := by
  have hfollowed := s.closeCycle_followed cycle all active
  have hdone := (s.swept_before all).1.trans stopped
  exact ⟨hfollowed.stays hdone, hfollowed.next.trans (if_pos hdone)⟩

theorem swept_shrinks (s : Scheduler σ) (all : Bool) : s.timers.Shrinks (s.swept all).timers := by
  obtain ⟨registry, stats, hswept⟩ := s.swept_frame all
  rw [hswept]
  exact s.takePending_taken.shrinks

theorem swept_halted (s : Scheduler σ) (all : Bool) : (s.swept all).halted = s.halted := by
  obtain ⟨registry, stats, hswept⟩ := s.swept_frame all
  rw [hswept, s.takePending_taken.frame]
  rfl

theorem loopOnce_stays (stopped : s.done = true) (all : Bool) :
    (s.loopOnce all).value.2.all = all ∧ (s.loopOnce all).value.2.next = .stopped ∧
      (s.loopOnce all).value.1.halted = s.halted := by
  have hopened : (s.openCycle all).done = true := stopped
  rw [s.loopOnce_value, drain_stays hopened]
  obtain ⟨hstays, hnext⟩ := closeCycle_stays { s.openCycle all with inbox := [] } stopped
    (s.beginCycle all).cycle all (s.beginCycle all).pollMonitor.1
  refine ⟨rfl, hnext, ?_⟩
  rw [hstays]
  exact swept_halted _ all

/-! ## What is left of the work -/

/-- The work that was due at a stop, and what has become of it since. -/
structure Draining (stop : Moment σ) (rest : List (Moment σ)) (s : Scheduler σ) : Prop where
  done : s.done = true
  nextNumber : s.timers.nextNumber = stop.before.timers.nextNumber + 1
  later : stop.before.now ≤ s.now
  ordered : TimerQueue.Ordered stop.before.dueSlots
  pending : ∀ (id : TimerId) (wakeup : Wakeup), s.timers.pending[id]? = some wakeup →
    stop.after.timers.pending[id]? = some wakeup
  halt : ∀ id : TimerId, s.timers.pending[id]? = some .halt ↔ s.halted = false ∧ id = stop.before.nextTimer
  live : ∃ behind, s.timers.live = s.timers.left stop.before.dueSlots ++
    (if s.halted then [] else [(stop.before.now, stop.before.nextTimer)]) ++ behind
  nothing : s.halted = true → s.timers.left stop.before.dueSlots = []
  served : ∃ served : List Slot, (∀ slot ∈ served, slot.2 ∉ s.timers.pending) ∧
    expiredTimers rest = served.map (·.2) ++ (if s.halted then [stop.before.nextTimer] else []) ∧
    stop.before.dueSlots.filter (·.2 ∉ cancelledTimers rest) = served ++ s.timers.left stop.before.dueSlots
  spent : ∀ m ∈ rest, m.Spent

namespace Draining

variable {stop : Moment σ} {rest : List (Moment σ)}

theorem start {past : List (Moment σ)} (booked : s.Booked past) (sound : s.timers.Sound) (running : s.done = false) :
    Draining ⟨s, .obeyed .stop, { (s.schedule .zero .halt).2 with done := true }⟩ []
      { (s.schedule .zero .halt).2 with done := true } := by
  have hgoing : s.halted = false := by
    by_contra hhalted
    rw [booked.order (eq_true_of_ne_false hhalted)] at running
    cases running
  have hafter : (s.schedule .zero .halt).2.halted = false := hgoing
  have hall : (s.schedule .zero .halt).2.timers.left s.dueSlots = s.dueSlots :=
    TimerQueue.left_eq_self fun slot hslot => s.schedule_more .zero .halt _ (mem_dueSlots.mp hslot).1.2
  constructor
  case done | nextNumber => rfl
  case later => exact Nat.le_refl _
  case ordered => exact dueSlots_ordered sound
  case pending => exact fun _ _ => id
  case halt =>
    obtain ⟨halt, hhalt⟩ := booked.halt
    intro id
    rw [schedule_pending sound, hhalt]
    simp [running, hafter]
  case live =>
    refine ⟨s.timers.live.filter (s.now < ·.1), ?_⟩
    have hlive := live_schedule sound .zero .halt
    rw [s.now.after_zero] at hlive
    rw [hall, if_neg (ne_true_of_eq_false hafter), List.append_assoc]
    exact hlive
  case nothing =>
    intro hhalted
    rw [hafter] at hhalted
    cases hhalted
  case served => exact ⟨[], List.forall_mem_nil _, by simp [expiredTimers, hafter], by simp [cancelledTimers, hall]⟩
  case spent => exact List.forall_mem_nil _

theorem same (h : Draining stop rest s) (timers : s.timers.Same s'.timers) (done : s'.done = s.done)
    (halted : s'.halted = s.halted) (later : s.now ≤ s'.now) : Draining stop rest s' where
  done := done.trans h.done
  nextNumber := timers.nextNumber.trans h.nextNumber
  later := Nat.le_trans h.later later
  ordered := h.ordered
  pending := by
    rw [timers.pending]
    exact h.pending
  halt := by
    rw [timers.pending, halted]
    exact h.halt
  live := by
    rw [timers.live, timers.left, halted]
    exact h.live
  nothing := by
    rw [timers.left, halted]
    exact h.nothing
  served := by
    rw [timers.pending, timers.left, halted]
    exact h.served
  spent := h.spent

theorem filter_cancelled {slots : List Slot} {m : Moment σ} :
    slots.filter (·.2 ∉ cancelledTimers (rest ++ [m])) =
      (slots.filter (·.2 ∉ cancelledTimers rest)).filter (·.2 ∉ m.cancelled) := by
  rw [List.filter_filter]
  refine List.filter_congr fun slot _ => ?_
  simp [cancelledTimers_concat, Bool.and_comm]

theorem concat_spent (h : Draining stop rest s) {m : Moment σ} (spent : m.Spent) : ∀ m' ∈ rest ++ [m], m'.Spent := by
  intro m' hm'
  rcases List.mem_append.mp hm' with hold | hnew
  · exact h.spent m' hold
  · rw [List.mem_singleton.mp hnew]
    exact spent

theorem idle (h : Draining stop rest s) {m : Moment σ} (expiry : m.expiry? = none)
    (timers : m.after.timers = m.before.timers) (spent : m.Spent) : Draining stop (rest ++ [m]) s :=
  { h with
    served := by
      have hnone : m.cancelled = [] := by simp [Moment.cancelled, expiry, timers]
      rw [filter_cancelled, expiredTimers_same expiry, hnone]
      simpa using h.served
    spent := h.concat_spent spent }

theorem shrunk (h : Draining stop rest s) (m : Moment σ) (expiry : m.expiry? = none) (before : m.before = s)
    (shrinks : s.timers.Shrinks m.after.timers) (done : m.after.done = s.done) (halted : m.after.halted = s.halted)
    (later : s.now ≤ m.after.now)
    (halt : s.halted = false → m.after.timers.pending[stop.before.nextTimer]? = some .halt) (spent : m.Spent) :
    Draining stop (rest ++ [m]) m.after := by
  subst before
  constructor
  case done => exact done.trans h.done
  case nextNumber => exact shrinks.nextNumber.trans h.nextNumber
  case later => exact Nat.le_trans h.later later
  case ordered => exact h.ordered
  case pending => exact fun id wakeup hpending => h.pending id wakeup (shrinks.pending id wakeup hpending)
  case halt =>
    intro id
    rw [halted]
    constructor
    · exact fun hpending => (h.halt id).mp (shrinks.pending id _ hpending)
    · rintro ⟨hgoing, rfl⟩
      exact halt hgoing
  case live =>
    obtain ⟨behind, hlive⟩ := h.live
    refine ⟨m.after.timers.left behind, ?_⟩
    rw [shrinks.live, hlive, TimerQueue.left_append, TimerQueue.left_append, shrinks.left, halted]
    congr 2
    refine TimerQueue.left_eq_self fun slot hslot => ?_
    cases hgoing : m.before.halted with
    | true => simp [hgoing] at hslot
    | false =>
      obtain rfl : slot = (stop.before.now, stop.before.nextTimer) := by simpa [hgoing] using hslot
      exact (Std.ExtTreeMap.getElem?_eq_some_iff.mp (halt hgoing)).1
  case nothing =>
    intro hhalted
    rw [← shrinks.left, h.nothing (halted.symm.trans hhalted)]
    rfl
  case served =>
    obtain ⟨served, hgone, hexpired, horder⟩ := h.served
    refine ⟨served, fun slot hslot => mt shrinks.mem (hgone slot hslot), ?_, ?_⟩
    · rw [expiredTimers_same expiry, hexpired, halted]
    · rw [filter_cancelled, horder, List.filter_append, ← shrinks.left]
      congr 1
      · refine List.filter_eq_self.mpr fun slot hslot => decide_eq_true fun hcancelled => ?_
        exact hgone slot hslot ((Moment.mem_cancelled expiry).mp hcancelled).1
      · refine List.filter_congr fun slot hslot => ?_
        have hmem : slot.2 ∈ m.before.timers.pending := of_decide_eq_true (List.mem_filter.mp hslot).2
        simp [Moment.mem_cancelled expiry, hmem]
  case spent => exact h.concat_spent spent

section Expire

variable {timers : TimerQueue Wakeup} {id : TimerId} {wakeup : Wakeup}

theorem first (h : Draining stop rest s) (going : s.halted = false)
    (expires : s.timers.Expires s.now id wakeup timers) :
    (s.timers.left stop.before.dueSlots = [] ∧ timers.left stop.before.dueSlots = [] ∧
      id = stop.before.nextTimer ∧ wakeup = .halt) ∨
    ∃ deadline behind, s.timers.left stop.before.dueSlots = (deadline, id) :: timers.left stop.before.dueSlots ∧
      timers.live = timers.left stop.before.dueSlots ++ (stop.before.now, stop.before.nextTimer) :: behind ∧
      id ≠ stop.before.nextTimer ∧ wakeup ≠ .halt := by
  obtain ⟨behind, hlive⟩ := h.live
  obtain ⟨deadline, -, hfirst⟩ := expires.live
  have hleft := expires.shrinks.left stop.before.dueSlots
  rw [if_neg (ne_true_of_eq_false going), hfirst, List.append_assoc, List.singleton_append] at hlive
  rcases hslots : s.timers.left stop.before.dueSlots with _ | ⟨slot, slots⟩ <;> rw [hslots] at hlive hleft
  · obtain ⟨hslot, -⟩ := List.cons.inj hlive
    obtain ⟨-, hid⟩ := Prod.mk.inj hslot
    have hhalt := (h.halt id).mpr ⟨going, hid⟩
    rw [expires.payload] at hhalt
    exact .inl ⟨rfl, hleft.symm, hid, Option.some.inj hhalt⟩
  · rw [List.cons_append] at hlive
    obtain ⟨rfl, hrest⟩ := List.cons.inj hlive
    have hpending : ∀ slot ∈ slots ++ (stop.before.now, stop.before.nextTimer) :: behind, slot.2 ∈ timers.pending := by
      intro slot hslot
      rw [← hrest] at hslot
      exact (TimerQueue.mem_live.mp hslot).2
    have hgone : id ∉ timers.pending := by simp [expires.pending]
    have hothers : timers.left slots = slots :=
      TimerQueue.left_eq_self fun slot hslot => hpending slot (List.mem_append_left _ hslot)
    -- The halt is still pending, so it is not what came due.
    have hne : id ≠ stop.before.nextTimer := by
      rintro rfl
      exact hgone (hpending _ (List.mem_append_right _ List.mem_cons_self))
    rw [TimerQueue.left, List.filter_cons_of_neg (by simpa using hgone)] at hleft
    rw [← hleft, ← TimerQueue.left, hothers]
    refine .inr ⟨deadline, behind, rfl, hrest, hne, ?_⟩
    rintro rfl
    exact hne ((h.halt id).mp expires.payload).2

theorem expired (h : Draining stop rest s) (going : s.halted = false)
    (expires : s.timers.Expires s.now id wakeup timers) :
    Draining stop (rest ++ [⟨s, .expired id wakeup, s.expire timers wakeup⟩]) (s.expire timers wakeup) := by
  let m : Moment σ := ⟨s, .expired id wakeup, s.expire timers wakeup⟩
  obtain ⟨stats, hframe⟩ := s.expire_frame timers wakeup
  have htimers : (s.expire timers wakeup).timers = timers := by rw [hframe]
  have hhalted : (s.expire timers wakeup).halted = if wakeup = .halt then true else s.halted := by rw [hframe]
  have hspent : m.Spent := by
    refine ⟨?_, nofun, nofun⟩
    change (s.expire timers wakeup).timers.nextNumber = _
    rw [htimers]
    exact expires.nextNumber
  have hcancelled : cancelledTimers (rest ++ [m]) = cancelledTimers rest := by
    simp [cancelledTimers_concat, m, Moment.cancelled, Moment.expiry?]
  have hexpired : expiredTimers (rest ++ [m]) = expiredTimers rest ++ [id] := expiredTimers_concat rest m
  have hfirst := h.first going expires
  constructor
  case done =>
    rw [hframe]
    exact h.done
  case nextNumber => exact hspent.unscheduled.trans h.nextNumber
  case later =>
    rw [hframe]
    exact h.later
  case ordered => exact h.ordered
  case pending =>
    rw [htimers]
    exact fun other payload hother => h.pending other payload (expires.shrinks.pending other payload hother)
  case halt =>
    intro other
    rw [htimers, hhalted, expires.pending_iff, h.halt]
    rcases hfirst with ⟨-, -, hid, hhalt⟩ | ⟨deadline, behind, -, -, hne, hother⟩
    · simpa [hid, hhalt] using fun hne _ => hne
    · rw [if_neg hother]
      apply and_iff_right_of_imp
      rintro ⟨-, rfl⟩
      exact hne.symm
  case live =>
    rw [htimers, hhalted]
    rcases hfirst with ⟨-, hnone, -, hhalt⟩ | ⟨deadline, behind, -, hlive, -, hother⟩
    · exact ⟨timers.live, by simp [hnone, hhalt]⟩
    · exact ⟨behind, by simp [hlive, hother, going]⟩
  case nothing =>
    rw [htimers, hhalted]
    rcases hfirst with ⟨-, hnone, -, -⟩ | ⟨deadline, behind, -, -, -, hother⟩
    · exact fun _ => hnone
    · simp [hother, going]
  case served =>
    obtain ⟨served, hgone, hserved, horder⟩ := h.served
    rw [if_neg (ne_true_of_eq_false going), List.append_nil] at hserved
    have hstill : ∀ slot ∈ served, slot.2 ∉ timers.pending :=
      fun slot hslot => mt expires.shrinks.mem (hgone slot hslot)
    have hthis : id ∉ timers.pending := by simp [expires.pending]
    rw [htimers, hhalted, hexpired, hcancelled, hserved, horder]
    rcases hfirst with ⟨hall, hnone, hid, hhalt⟩ | ⟨deadline, behind, hcons, -, -, hother⟩
    · exact ⟨served, hstill, by simp [hid, hhalt], by rw [hall, hnone]⟩
    · refine ⟨served ++ [(deadline, id)], ?_, by simp [hother, going], by simp [hcons]⟩
      exact List.forall_mem_append.mpr ⟨hstill, List.forall_mem_singleton.mpr hthis⟩
  case spent => exact h.concat_spent hspent

end Expire

end Draining

structure Stopping (past : List (Moment σ)) (s : Scheduler σ) : Prop where
  booked : s.Booked past
  draining : ∀ before stop rest, past = before ++ stop :: rest → stop.Stops → Draining stop rest s

namespace Stopping

variable {past : List (Moment σ)}

theorem concat (h : s.Stopping past) {m : Moment σ} (booked : s'.Booked (past ++ [m]))
    (goes : ∀ stop rest, Draining stop rest s → Draining stop (rest ++ [m]) s')
    (stops : m.Stops → Draining m [] s') : s'.Stopping (past ++ [m]) where
  booked := booked
  draining := by
    intro before stop rest heq hstops
    rcases List.eq_nil_or_concat rest with rfl | ⟨rest, last, rfl⟩
    · obtain ⟨-, hlast⟩ := List.append_inj' heq rfl
      rw [← List.singleton_inj.mp hlast] at hstops ⊢
      exact stops hstops
    · rw [List.concat_eq_append, ← List.cons_append, ← List.append_assoc] at heq
      obtain ⟨hpast, hlast⟩ := List.append_inj' heq rfl
      rw [List.concat_eq_append, ← hlast]
      exact goes stop rest (h.draining before stop rest hpast hstops)

theorem concat_other (h : s.Stopping past) {m : Moment σ} (booked : s'.Booked (past ++ [m]))
    (other : m.mark ≠ .obeyed .stop) (goes : ∀ stop rest, Draining stop rest s → Draining stop (rest ++ [m]) s') :
    s'.Stopping (past ++ [m]) :=
  h.concat booked goes fun hstops => absurd hstops.1 other

theorem quiet (h : s.Stopping past) (quiet : s.Quiet s') : s'.Stopping past where
  booked := h.booked.quiet quiet
  draining before stop rest heq hstops := by
    apply (h.draining before stop rest heq hstops).same quiet.timers
    · rw [quiet.eq]
    · rw [quiet.eq]
    · exact quiet.later

theorem obeyed (h : s.Stopping past) (sound : s.timers.Sound) {command : Command} (obeyed : s.Obeyed command s') :
    s'.Stopping (past ++ [⟨s, .obeyed command, s'⟩]) := by
  apply h.concat (h.booked.obeyed sound obeyed)
  · intro stop rest hdraining
    obtain rfl : s' = s := obeyed.stays hdraining.done
    exact hdraining.idle rfl rfl ⟨rfl, fun _ _ => rfl, nofun⟩
  · rintro ⟨hmark, hrunning⟩
    cases hmark
    cases obeyed with
    | stopAgain hstopped =>
      rw [show s.done = false from hrunning] at hstopped
      cases hstopped
    | stop => exact .start h.booked sound hrunning

theorem fired (h : s.Stopping past) (only : Option ActorSet) (ids : List ActorId) (state : Scheduler σ × Sweep) :
    s.Stopping (past ++ firingEach only ids state) := by
  induction ids generalizing past state with
  | nil =>
    rw [firingEach, List.append_nil]
    exact h
  | cons id ids ih =>
    rw [firingEach]
    split
    · rw [List.append_cons]
      refine ih (h.concat_other (h.booked.idle ⟨rfl, rfl, by simp⟩) (by simp) fun stop rest hdraining => ?_) _
      obtain ⟨fireErrors, hframe⟩ := state.1.fireOne_frame state.2 id
      have htimers : (state.1.fireOne state.2 id).value.1.timers = state.1.timers := by rw [hframe]
      exact hdraining.idle rfl htimers ⟨congrArg TimerQueue.nextNumber htimers, by simp, by simp⟩
    · exact ih h _

theorem closed (h : s.Stopping past) (sound : s.timers.Sound) (cycle : Nat) (all active : Bool) :
    (s.closeCycle cycle all active).1.Stopping (past ++ s.closing cycle all active) := by
  have hbooked := Booked.kept.closed cycle all active h.booked sound
  rw [closing, ← List.append_assoc] at hbooked ⊢
  refine (h.fired _ _ _).concat_other hbooked (by simp) fun stop rest hdraining => ?_
  obtain ⟨hstays, hnext⟩ := s.closeCycle_stays hdraining.done cycle all active
  obtain ⟨hdone, hnow, -⟩ := s.swept_before all
  have hshrinks := s.swept_shrinks all
  have hhalted := s.swept_halted all
  rw [← hstays] at hdone hnow hshrinks hhalted
  refine hdraining.shrunk ⟨s, _, (s.closeCycle cycle all active).1⟩ rfl rfl hshrinks hdone hhalted
    (Nat.le_of_eq (congrArg Instant.nanos hnow.symm)) ?_ ⟨hshrinks.nextNumber, by simp, by simpa using hnext⟩
  intro hgoing
  obtain ⟨halt, hhalt⟩ := hbooked.halt
  have hpending := (hhalt halt).mpr ⟨hdone.trans hdraining.done, hhalted.trans hgoing, rfl⟩
  have hthis := ((hdraining.halt halt).mp (hshrinks.pending halt _ hpending)).2
  rwa [← hthis]

theorem kept : Kept fun _ (past : List (Moment σ)) (s : Scheduler σ) => s.Stopping past where
  quiet := quiet
  obeyed _ h sound := h.obeyed sound
  lapsed h sound := h.obeyed sound
  begun {past s} h sound running hnone := by
    refine h.concat_other (Booked.kept.begun h.booked sound running hnone) (by simp [beginning]) ?_
    intro stop rest hdraining
    rw [hdraining.done] at running
    cases running
  operated {past s} operation h := by
    refine h.concat_other (Booked.kept.operated operation h.booked) (by simp [operating]) ?_
    intro stop rest hdraining
    have hspent : (s.operating operation).Spent := ⟨rfl, by simp [operating], by simp [operating]⟩
    exact (hdraining.idle rfl rfl hspent).same (.refl _) rfl rfl (Nat.le_refl _)
  expired {past s timers id wakeup} h sound hgoing expires :=
    h.concat_other (h.booked.expire sound expires) (by simp) fun _ _ hdraining => hdraining.expired hgoing expires
  entered := id
  opened {past s} all h := by
    refine h.concat_other (Booked.kept.opened all h.booked) (by simp [opening]) ?_
    intro stop rest hdraining
    have hspent : (s.opening all).Spent := ⟨rfl, by simp [opening], by simp [opening]⟩
    exact (hdraining.idle rfl rfl hspent).same (.refl _) rfl rfl (Nat.le_refl _)
  closed cycle all active h sound := h.closed sound cycle all active

end Stopping

end Scheduler

def Wakeup.Answers : Wakeup → Step → Prop
  | .cycle all, .cycle report => report.all = all ∧ report.next = .stopped
  | .heartbeat, .heartbeat | .halt, .halted => True
  | _, _ => False

def Call.isStep : Call σ → Bool
  | .step => true
  | _ => false

namespace Scheduler

variable {s : Scheduler σ}

theorem wake_stays (s : Scheduler σ) (stopped : s.done = true) (going : s.halted = false) (wakeup : Wakeup) :
    wakeup.Answers (s.wake wakeup).value.2 ∧ ((s.wake wakeup).value.1.halted = true ↔ wakeup = .halt) := by
  cases wakeup with
  | cycle all =>
    obtain ⟨hall, hnext, hhalted⟩ := s.loopOnce_stays stopped all
    exact ⟨⟨hall, hnext⟩, by simp [wake, hhalted, going]⟩
  | heartbeat =>
    have hvalue : (s.wake .heartbeat).value =
        (((s.expire s.timers .heartbeat).obey (.trigger .zero .all)).value, .heartbeat) := rfl
    rw [hvalue, (s.expire s.timers .heartbeat).obey_stays stopped]
    exact ⟨trivial, iff_of_false (ne_true_of_eq_false going) nofun⟩
  | halt => exact ⟨trivial, iff_of_true rfl rfl⟩

theorem step_halted (halted : s.halted = true) (stopped : s.done = true) :
    s.step.value = ({ s with inbox := [] }, .halted) := by
  rw [step_value, drain_stays stopped, serve, if_pos halted]

theorem Draining.stepped {stop : Moment σ} {rest : List (Moment σ)} (h : Draining stop rest s)
    (sound : s.timers.Sound) (going : s.halted = false) :
    ∃ id wakeup, ((s.timers.left stop.before.dueSlots).map (·.2) ++ [stop.before.nextTimer]).head? = some id ∧
      s.timers.pending[id]? = some wakeup ∧ expiredTimers s.stepping = [id] ∧ wakeup.Answers s.step.value.2 ∧
      (s.step.value.1.halted = true ↔ wakeup = .halt) := by
  have hdrained := drain_stays h.done
  rw [step_value, stepping, expiredTimers_append, expiredTimers_draining, List.nil_append, hdrained, serve, serving,
    if_neg (ne_true_of_eq_false going), if_neg (ne_true_of_eq_false going)]
  rcases hpop : s.timers.popDue s.now with ⟨_ | ⟨id, wakeup⟩, timers⟩
  · obtain ⟨behind, hlive⟩ := h.live
    have hmem : (stop.before.now, stop.before.nextTimer) ∈ s.timers.live := by
      rw [hlive]
      simp [going]
    exact absurd (sound.popDue_none hpop _ hmem) (Nat.not_lt_of_le h.later)
  · have hexpires := sound.popDue_some hpop
    refine ⟨id, wakeup, ?_, hexpires.payload, ?_, ?_⟩
    · rcases h.first going hexpires with ⟨hnone, -, rfl, -⟩ | ⟨deadline, behind, hcons, -, -, -⟩
      · rw [hnone]
        rfl
      · rw [hcons]
        rfl
    · exact congrArg (id :: ·) (expiredTimers_waking _ _)
    · exact wake_stays { s with inbox := [], timers } h.done going wakeup

/-! ## Any calls after a stop -/

structure Since (before : List (Moment σ)) (stop : Moment σ) (rest : List (Moment σ)) (s : Scheduler σ) : Prop where
  stops : stop.Stops
  holds : Kept.Holds (fun _ past (s : Scheduler σ) => s.Stopping past) .rest (before ++ stop :: rest) s

namespace Since

variable {before : List (Moment σ)} {stop : Moment σ} {rest : List (Moment σ)}

theorem draining (h : Since before stop rest s) : Draining stop rest s :=
  h.holds.1.draining before stop rest rfl h.stops

theorem perform (h : Since before stop rest s) (call : Call σ) :
    Since before stop (rest ++ s.moments call) (s.perform call) := by
  refine ⟨h.stops, ?_⟩
  rw [← List.cons_append, ← List.append_assoc]
  exact Stopping.kept.perform call h.holds

theorem performAll (h : Since before stop rest s) (calls : List (Call σ)) :
    Since before stop (rest ++ s.history calls) (s.performAll calls) := by
  refine ⟨h.stops, ?_⟩
  rw [← List.cons_append, ← List.append_assoc]
  exact Stopping.kept.performAll calls h.holds

theorem served_length (h : Since before stop rest s) (going : s.halted = false) :
    (expiredTimers rest).length + (s.timers.left stop.before.dueSlots).length ≤ stop.before.dueSlots.length := by
  obtain ⟨served, -, hexpired, horder⟩ := h.draining.served
  have hlength := List.length_filter_le (fun slot : Slot => decide (slot.2 ∉ cancelledTimers rest)) stop.before.dueSlots
  rw [horder, List.length_append] at hlength
  rw [hexpired, if_neg (ne_true_of_eq_false going), List.append_nil, List.length_map]
  exact hlength

theorem stays_halted (h : Since before stop rest s) (calls : List (Call σ)) (halted : s.halted = true) :
    (s.performAll calls).halted = true := by
  have hbefore := h.holds.1.booked.halted
  have hafter := (h.performAll calls).holds.1.booked.halted
  obtain ⟨m, hm, hmark⟩ := hbefore.mp halted
  refine hafter.mpr ⟨m, ?_, hmark⟩
  rw [← List.cons_append, ← List.append_assoc]
  exact List.mem_append_left _ hm

theorem steps_le (h : Since before stop rest s) (calls : List (Call σ))
    (going : (s.performAll calls).halted = false) :
    calls.countP Call.isStep ≤ (expiredTimers (s.history calls)).length := by
  induction calls generalizing rest s with
  | nil => exact Nat.le_refl _
  | cons call calls ih =>
    have hrest := ih (h.perform call) going
    rw [history, expiredTimers_append, List.length_append, List.countP_cons]
    cases call with
    | step =>
      have hthis : s.halted = false := by
        by_contra hhalted
        rw [h.stays_halted (.step :: calls) (eq_true_of_ne_false hhalted)] at going
        cases going
      obtain ⟨id, wakeup, -, -, hexpired, -⟩ := h.draining.stepped h.holds.2 hthis
      rw [show s.moments .step = s.stepping from rfl, hexpired, List.length_singleton]
      change calls.countP Call.isStep + 1 ≤ 1 + _
      omega
    | _ =>
      rw [if_neg (by simp [Call.isStep])]
      omega

theorem halts (h : Since before stop rest s) (calls : List (Call σ))
    (enough : stop.before.dueSlots.length ≤ calls.countP Call.isStep) :
    (s.performAll calls).step.value.2 = .halted := by
  have hafter := h.performAll calls
  cases hhalted : (s.performAll calls).halted with
  | true => rw [step_halted hhalted hafter.draining.done]
  | false =>
    have hsteps := h.steps_le calls hhalted
    have hlength := hafter.served_length hhalted
    rw [expiredTimers_append, List.length_append] at hlength
    have hnone := List.length_eq_zero_iff.mp (Nat.eq_zero_of_le_zero (by omega :
      ((s.performAll calls).timers.left stop.before.dueSlots).length ≤ 0))
    obtain ⟨id, wakeup, hid, hpending, -, hanswers, -⟩ := hafter.draining.stepped hafter.holds.2 hhalted
    rw [hnone] at hid
    obtain rfl : stop.before.nextTimer = id := Option.some.inj hid
    rw [(hafter.draining.halt _).mpr ⟨hhalted, rfl⟩] at hpending
    obtain rfl : Wakeup.halt = wakeup := Option.some.inj hpending
    revert hanswers
    cases (s.performAll calls).step.value.2 with
    | halted => exact fun _ => rfl
    | nothing | cycle | heartbeat => exact False.elim

theorem turnFrom (h : Since before stop rest s) (going : s.halted = false) (turn : Turn) (steps : Nat) :
    ((turnFrom turn steps s).value.2 = .halted ∧ (turnFrom turn steps s).value.1.halted = true) ∨
      ((turnFrom turn steps s).value.2 = (if steps = 0 then turn else .busy) ∧
        (turnFrom turn steps s).value.1.halted = false ∧ steps ≤ (expiredTimers (steppingEach steps s)).length) := by
  induction steps generalizing rest s turn with
  | zero => exact .inr ⟨rfl, going, Nat.le_refl _⟩
  | succ steps ih =>
    have hstep := h.perform .step
    obtain ⟨id, wakeup, -, -, hexpired, hanswers, hhalted⟩ := h.draining.stepped h.holds.2 going
    rw [turnFrom_succ, steppingEach, expiredTimers_append, hexpired]
    change Since before stop (rest ++ s.stepping) s.step.value.1 at hstep
    rcases hvalue : s.step.value with ⟨s', step⟩
    rw [hvalue] at hstep hanswers hhalted
    have hon : s'.halted = false →
        ((turnFrom .busy steps s').value.2 = .halted ∧ (turnFrom .busy steps s').value.1.halted = true) ∨
          ((turnFrom .busy steps s').value.2 = .busy ∧ (turnFrom .busy steps s').value.1.halted = false ∧
            steps + 1 ≤ ([id] ++ expiredTimers (steppingEach steps s')).length) := by
      intro hgoing
      refine (ih hstep hgoing .busy).imp_right fun hbusy => ?_
      rw [ite_self, List.length_append, List.length_singleton, Nat.add_comm 1] at *
      exact ⟨hbusy.1, hbusy.2.1, Nat.succ_le_succ hbusy.2.2⟩
    cases wakeup with
    | cycle all =>
      cases step with
      | cycle report => exact hon (eq_false_of_ne_true (mt hhalted.mp (by simp)))
      | nothing | heartbeat | halted => exact hanswers.elim
    | heartbeat =>
      cases step with
      | heartbeat => exact hon (eq_false_of_ne_true (mt hhalted.mp (by simp)))
      | nothing | cycle | halted => exact hanswers.elim
    | halt =>
      cases step with
      | halted => exact .inl ⟨rfl, hhalted.mpr rfl⟩
      | nothing | cycle | heartbeat => exact hanswers.elim

/-- With more fuel than timers are left, the run loop comes to the halt and never waits. -/
theorem runLoop (h : Since before stop rest s) (going : s.halted = false) (some : s.config.maxCyclesPerTurn ≠ 0)
    (fuel : Nat) (outside : Outside) (time : outside.isOver = false)
    (enough : stop.before.dueSlots.length < (expiredTimers rest).length + fuel) :
    (runLoop fuel outside s).value.2.2 = .halted ∧ (runLoop fuel outside s).value.1.halted = true ∧
      waits fuel outside s = [] := by
  induction fuel generalizing rest s outside with
  | zero =>
    have hlength := h.served_length going
    omega
  | succ fuel ih =>
    let steps := s.config.maxCyclesPerTurn
    have hafter : Since before stop (rest ++ steppingEach steps s) (turn steps s).value.1 := by
      refine ⟨h.stops, ?_⟩
      rw [← List.cons_append, ← List.append_assoc]
      exact Stopping.kept.turn steps h.holds
    have hconfig : (turn steps s).value.1.config = s.config := by
      have hstart : Kept.Holds (fun _ _ s' => s'.config = s.config) .rest before s := ⟨rfl, h.holds.2⟩
      exact ((kept_config s.config).turn steps hstart).1
    have hturn : ((turn steps s).value.2 = .halted ∧ (turn steps s).value.1.halted = true) ∨
        ((turn steps s).value.2 = (if steps = 0 then .quiet else .busy) ∧ (turn steps s).value.1.halted = false ∧
          steps ≤ (expiredTimers (steppingEach steps s)).length) := h.turnFrom going .quiet steps
    rcases hvalue : (turn steps s).value with ⟨after, turn⟩
    rw [hvalue] at hafter hconfig hturn
    rw [if_neg some] at hturn
    rcases hturn with ⟨rfl, hhalted⟩ | ⟨rfl, hgoing, hsteps⟩
    · obtain ⟨hloop, hwaits⟩ := runLoop_halted fuel outside hvalue
      rw [hloop, hwaits]
      exact ⟨rfl, hhalted, rfl⟩
    · obtain ⟨hloop, hwaits⟩ := runLoop_busy fuel hvalue time
      rw [hloop, hwaits]
      have hcollected : Since before stop (rest ++ steppingEach steps s) (after.collect outside).1 :=
        ⟨hafter.stops, Stopping.kept.still hafter.holds (.inbox after _)⟩
      refine ih hcollected hgoing (hconfig ▸ some) (after.collect outside).2 time ?_
      rw [expiredTimers_append, List.length_append]
      have hsome := Nat.pos_of_ne_zero some
      omega

end Since

theorem Obeyed.running {command : Command} {s' : Scheduler σ} (h : s.Obeyed command s') (other : command ≠ .stop) :
    s'.done = s.done := by
  cases h with
  | ignored | stopAgain | delayed | dropped => rfl
  | sweep =>
    obtain ⟨timers, hframe⟩ := s.renewImmediate_frame true
    rw [hframe]
  | joined delay ids =>
    obtain ⟨timers, immediate, immediateSweep, hframe⟩ := (s.join ids).scheduleImmediate_frame false
    rw [hframe]
    rfl
  | stop => exact absurd rfl other

theorem obeyingEach_stops {commands : List Command} (running : s.done = false) (stop : Command.stop ∈ commands) :
    ∃ before stop queued, obeyingEach commands s = before ++ stop :: queued ∧ stop.Stops := by
  induction commands generalizing s with
  | nil => cases stop
  | cons command commands ih =>
    by_cases hstop : command = .stop
    · subst hstop
      exact ⟨[], s.obeying .stop, _, rfl, rfl, running⟩
    · have hlater := (List.mem_cons.mp stop).resolve_left (Ne.symm hstop)
      obtain ⟨before, stop, queued, heq, hstops⟩ := ih (((s.obeyed command).running hstop).trans running) hlater
      exact ⟨s.obeying command :: before, stop, queued, by rw [obeyingEach, heq, List.cons_append], hstops⟩

theorem Since.worked {before rest : List (Moment σ)} {stop : Moment σ} (h : Since before stop rest s)
    (halted : s.halted = true) :
    expiredTimers rest =
      (stop.before.dueSlots.filter (·.2 ∉ cancelledTimers rest)).map (·.2) ++ [stop.before.nextTimer] := by
  obtain ⟨served, -, hexpired, horder⟩ := h.draining.served
  rw [horder, h.draining.nothing halted, List.append_nil, hexpired, if_pos halted]

theorem Stopping.run_halts {past : List (Moment σ)}
    (h : Kept.Holds (fun _ past (s : Scheduler σ) => s.Stopping past) .rest past s) (running : s.done = false)
    (stop : Command.stop ∈ s.inbox) {outside : Outside} (time : outside.isOver = false)
    (some : s.config.maxCyclesPerTurn ≠ 0) :
    ∃ before stop queued, s.draining = before ++ stop :: queued ∧ stop.Stops ∧
      ∀ fuel, stop.before.dueSlots.length < fuel → ∃ rest, s.running fuel outside = before ++ stop :: rest ∧
        (run fuel outside s).value.2.2 = .halted ∧ waits fuel outside s.entering = [] ∧
        expiredTimers rest =
          (stop.before.dueSlots.filter (·.2 ∉ cancelledTimers rest)).map (·.2) ++ [stop.before.nextTimer] := by
  have hstart : ({ s with inbox := [] } : Scheduler σ).done = false := running
  obtain ⟨before, stop, queued, hdraining, hstops⟩ := obeyingEach_stops hstart stop
  change s.draining = _ at hdraining
  have hdrained : Since (past ++ before) stop queued s.drain.value := by
    refine ⟨hstops, ?_⟩
    rw [List.append_assoc, ← hdraining]
    exact Stopping.kept.drain (by decide) h
  have hnone : expiredTimers queued = [] := by
    have hexpired := s.expiredTimers_draining
    rw [hdraining, ← List.singleton_append, expiredTimers_append, expiredTimers_append] at hexpired
    exact (List.append_eq_nil_iff.mp (List.append_eq_nil_iff.mp hexpired).2).2
  have hgoing : s.drain.value.halted = false := by
    by_contra hhalted
    rw [hdrained.worked (eq_true_of_ne_false hhalted)] at hnone
    simp at hnone
  have hbegins : ¬(!s.drain.value.done && s.drain.value.scheduledCycles = 0) = true := by
    simp [hdrained.draining.done]
  have hconfig : s.drain.value.config = s.config := by
    have hsame : Kept.Holds (fun _ _ s' => s'.config = s.config) .rest past s := ⟨rfl, h.2⟩
    exact ((kept_config s.config).drain (by decide) hsame).1
  refine ⟨before, stop, queued, hdraining, hstops, fun fuel henough => ?_⟩
  have hrunning : s.running fuel outside = before ++ stop :: (queued ++ looping fuel outside s.drain.value) := by
    rw [Scheduler.running, if_neg hbegins, hdraining, List.append_assoc, List.cons_append]
  have hentering : s.entering = s.drain.value := if_neg hbegins
  obtain ⟨hending, hhalted, hwaits⟩ :=
    hdrained.runLoop hgoing (hconfig ▸ some) fuel outside time (by rw [hnone]; simpa using henough)
  have hafter : Since (past ++ before) stop (queued ++ looping fuel outside s.drain.value)
      (run fuel outside s).value.1 := by
    refine ⟨hstops, ?_⟩
    rw [List.append_assoc, ← hrunning]
    exact Stopping.kept.run fuel outside h
  refine ⟨_, hrunning, ?_, hentering ▸ hwaits, hafter.worked ?_⟩
  · rw [run_value, hentering]
    exact hending
  · rw [run_value, hentering]
    exact hhalted

/-- What a stop comes to, whatever happens after it. -/
structure Shutdown (stop : Moment σ) (rest : List (Moment σ)) (s : Scheduler σ) : Prop where
  ordered : TimerQueue.Ordered stop.before.dueSlots
  unscheduled : s.timers.nextNumber = stop.before.timers.nextNumber + 1
  spent : ∀ m ∈ rest, m.Spent
  /-- What was due and has not been cancelled has come due, in its order, or is left; the halt comes last. -/
  served : ∃ served : List Slot, (∀ slot ∈ served, slot.2 ∉ s.timers.pending) ∧
    expiredTimers rest = served.map (·.2) ++ (if s.halted then [stop.before.nextTimer] else []) ∧
    stop.before.dueSlots.filter (·.2 ∉ cancelledTimers rest) = served ++ s.timers.left stop.before.dueSlots
  step : s.halted = false → ∃ id wakeup,
    ((s.timers.left stop.before.dueSlots).map (·.2) ++ [stop.before.nextTimer]).head? = some id ∧
      stop.after.timers.pending[id]? = some wakeup ∧ expiredTimers s.stepping = [id] ∧
      wakeup.Answers s.step.value.2 ∧ (s.step.value.1.halted = true ↔ wakeup = .halt)
  halted : s.halted = true →
    s.timers.left stop.before.dueSlots = [] ∧ s.step.value = ({ s with inbox := [] }, .halted)
  /-- As many steps as timers were due, among any other calls, and all later ones answer that it has halted. -/
  halts : ∀ calls : List (Call σ), stop.before.dueSlots.length ≤ calls.countP Call.isStep →
    (s.performAll calls).step.value.2 = .halted

theorem Since.shutdown {before rest : List (Moment σ)} {stop : Moment σ} (h : Since before stop rest s) :
    Shutdown stop rest s where
  ordered := h.draining.ordered
  unscheduled := h.draining.nextNumber
  spent := h.draining.spent
  served := h.draining.served
  step going := by
    obtain ⟨id, wakeup, hfirst, hpending, hstep⟩ := h.draining.stepped h.holds.2 going
    exact ⟨id, wakeup, hfirst, h.draining.pending id wakeup hpending, hstep⟩
  halted hhalted := ⟨h.draining.nothing hhalted, step_halted hhalted h.draining.done⟩
  halts := h.halts

/-- A scheduler that serves what is due at a stop, and then halts for good. -/
structure Obedient (past : List (Moment σ)) (s : Scheduler σ) : Prop where
  shutdown : ∀ before stop rest, past = before ++ stop :: rest → stop.Stops → Shutdown stop rest s
  run : s.done = false → Command.stop ∈ s.inbox → ∀ outside : Outside, outside.isOver = false →
    ∃ before stop queued, s.draining = before ++ stop :: queued ∧ stop.Stops ∧
      ∀ fuel, stop.before.dueSlots.length < fuel → ∃ rest, running fuel outside s = before ++ stop :: rest ∧
        (run fuel outside s).value.2.2 = .halted ∧ waits fuel outside s.entering = [] ∧
        expiredTimers rest =
          (stop.before.dueSlots.filter (·.2 ∉ cancelledTimers rest)).map (·.2) ++ [stop.before.nextTimer]

end Scheduler

/-- In every run the scheduler obeys a stop. -/
theorem Run.stop_drains (run : Run σ) : run.state.Obedient run.history := by
  have hstart : run.start.Stopping [] := by
    refine ⟨.start run, fun before stop rest heq => ?_⟩
    simp at heq
  have hstate := run.invariant Scheduler.Stopping.kept hstart
  refine ⟨fun before stop rest heq hstops => ?_, fun hrunning hstop outside htime => ?_⟩
  · rw [heq] at hstate
    exact Scheduler.Since.shutdown ⟨hstops, hstate⟩
  · apply Scheduler.Stopping.run_halts hstate hrunning hstop htime
    rw [run.state_config]
    exact Config.maxCyclesPerTurn_ne run.valid

end ActorNet
