import ActorNet.Proofs.Invariants

set_option autoImplicit false

/-!
# What the timers are for

Which timers are pending is told by the history. A pending heartbeat is the recorded one; a pending cycle is
a delayed sweep that has been accepted and has not come due, or else the immediate cycle; and a halt is
pending from the stop on until the scheduler halts.
-/
namespace ActorNet

variable {σ : Type}

/-! ## The timers of a history -/

def Moment.sweep? (m : Moment σ) : Option TimerId :=
  match m.mark with
  | .obeyed (.trigger delay _) => if !delay.isZero && !m.before.done then some m.before.nextTimer else none
  | _ => none

def Moment.expiry? (m : Moment σ) : Option TimerId :=
  match m.mark with
  | .expired id _ => some id
  | _ => none

def acceptedSweeps (past : List (Moment σ)) : List TimerId := past.filterMap Moment.sweep?

def expiredTimers (past : List (Moment σ)) : List TimerId := past.filterMap Moment.expiry?

/-- The delayed sweeps that have been accepted and have not come due. -/
def delayedSweeps (past : List (Moment σ)) : List TimerId :=
  (acceptedSweeps past).filter (· ∉ expiredTimers past)

theorem mem_delayedSweeps {past : List (Moment σ)} {id : TimerId} :
    id ∈ delayedSweeps past ↔ id ∈ acceptedSweeps past ∧ id ∉ expiredTimers past := by
  simp [delayedSweeps]

theorem acceptedSweeps_concat (past : List (Moment σ)) (m : Moment σ) :
    acceptedSweeps (past ++ [m]) = acceptedSweeps past ++ m.sweep?.toList := by
  cases h : m.sweep? <;> simp [acceptedSweeps, h]

theorem expiredTimers_concat (past : List (Moment σ)) (m : Moment σ) :
    expiredTimers (past ++ [m]) = expiredTimers past ++ m.expiry?.toList := by
  cases h : m.expiry? <;> simp [expiredTimers, h]

theorem acceptedSweeps_same {past : List (Moment σ)} {m : Moment σ} (h : m.sweep? = none) :
    acceptedSweeps (past ++ [m]) = acceptedSweeps past := by
  rw [acceptedSweeps_concat, h]
  exact List.append_nil _

theorem expiredTimers_same {past : List (Moment σ)} {m : Moment σ} (h : m.expiry? = none) :
    expiredTimers (past ++ [m]) = expiredTimers past := by
  rw [expiredTimers_concat, h]
  exact List.append_nil _

theorem delayedSweeps_same {past : List (Moment σ)} {m : Moment σ} (hsweep : m.sweep? = none)
    (hexpiry : m.expiry? = none) : delayedSweeps (past ++ [m]) = delayedSweeps past := by
  rw [delayedSweeps, acceptedSweeps_same hsweep, expiredTimers_same hexpiry]
  rfl

def Stopped (past : List (Moment σ)) : Prop := ∃ m ∈ past, m.mark = .obeyed .stop

def Halted (past : List (Moment σ)) : Prop := ∃ m ∈ past, ∃ id, m.mark = .expired id .halt

theorem stopped_concat {past : List (Moment σ)} {m : Moment σ} :
    Stopped (past ++ [m]) ↔ Stopped past ∨ m.mark = .obeyed .stop := by
  simp [Stopped, or_and_right, exists_or]

theorem halted_concat {past : List (Moment σ)} {m : Moment σ} :
    Halted (past ++ [m]) ↔ Halted past ∨ ∃ id, m.mark = .expired id .halt := by
  simp [Halted, or_and_right, exists_or]

structure Moment.Idle (past : List (Moment σ)) (m : Moment σ) : Prop where
  sweep : m.sweep? = none
  expiry : m.expiry? = none
  stop : m.mark = .obeyed .stop → Stopped past

namespace Scheduler

variable {s s' : Scheduler σ}

theorem nextTimer_pending (sound : s.timers.Sound) : s.timers.pending[s.nextTimer]? = none := by
  refine Std.ExtTreeMap.getElem?_eq_none fun hmem => ?_
  exact absurd (sound.number_lt hmem) (Nat.lt_irrefl _)

theorem schedule_pending (sound : s.timers.Sound) {delay : Duration} {wakeup other : Wakeup} {id : TimerId} :
    (s.schedule delay wakeup).2.timers.pending[id]? = some other ↔
      (id = s.nextTimer ∧ other = wakeup) ∨ s.timers.pending[id]? = some other := by
  rw [s.schedule_getElem?]
  by_cases hid : s.nextTimer = id
  · subst hid
    simp [nextTimer_pending sound, eq_comm]
  · simp [hid, Ne.symm hid]

theorem cancel_pending {timer : Option TimerId} {wakeup : Wakeup} {id : TimerId} :
    (s.cancel timer).timers.pending[id]? = some wakeup ↔
      timer ≠ some id ∧ s.timers.pending[id]? = some wakeup := by
  rw [s.cancel_getElem?]
  by_cases hid : timer = some id <;> simp [hid]

theorem expire_frame (s : Scheduler σ) (timers : TimerQueue Wakeup) (wakeup : Wakeup) :
    ∃ stats, s.expire timers wakeup = { s with
      timers
      heartbeat := if wakeup = .heartbeat then none else s.heartbeat
      halted := if wakeup = .halt then true else s.halted
      stats } := by
  cases wakeup <;> exact ⟨_, rfl⟩

/-- The timers, as far as the history and the records of the scheduler tell them apart. -/
structure Booked (past : List (Moment σ)) (s : Scheduler σ) : Prop where
  heartbeat : ∀ id, s.timers.pending[id]? = some .heartbeat ↔ s.heartbeat = some id
  cycle : ∀ id all, s.timers.pending[id]? = some (.cycle all) →
    (id ∈ delayedSweeps past ∧ all = true) ∨ s.immediate = some id
  delayed : ∀ id ∈ delayedSweeps past, s.timers.pending[id]? = some (.cycle true)
  immediate : ∀ id wakeup, s.immediate = some id → s.timers.pending[id]? = some wakeup →
    wakeup = .cycle s.immediateSweep
  halt : ∃ halt : TimerId, ∀ id,
    s.timers.pending[id]? = some .halt ↔ s.done = true ∧ s.halted = false ∧ id = halt
  stopped : s.done = true ↔ Stopped past
  halted : s.halted = true ↔ Halted past
  order : s.halted = true → s.done = true
  numbered : ∀ id, id ∈ acceptedSweeps past ∨ id ∈ expiredTimers past → id.number < s.timers.nextNumber
  present : ∀ id, s.immediate = some id → id.number < s.timers.nextNumber
  distinct : (acceptedSweeps past).Nodup
  apart : ∀ id ∈ acceptedSweeps past, s.immediate ≠ some id
  due : ∀ slot ∈ s.timers.live, s.immediate = some slot.2 → slot.1 ≤ s.now

namespace Booked

variable {past : List (Moment σ)}

theorem idle (h : s.Booked past) {m : Moment σ} (idle : m.Idle past) : s.Booked (past ++ [m]) := by
  have haccepted : acceptedSweeps (past ++ [m]) = acceptedSweeps past := acceptedSweeps_same idle.sweep
  have hexpired : expiredTimers (past ++ [m]) = expiredTimers past := expiredTimers_same idle.expiry
  have hdelayed : delayedSweeps (past ++ [m]) = delayedSweeps past := delayedSweeps_same idle.sweep idle.expiry
  have hexpiry : ¬∃ id, m.mark = .expired id .halt := by
    rintro ⟨id, hmark⟩
    have hnone := idle.expiry
    simp [Moment.expiry?, hmark] at hnone
  exact
    { h with
      cycle := by
        rw [hdelayed]
        exact h.cycle
      delayed := by
        rw [hdelayed]
        exact h.delayed
      stopped := by
        rw [stopped_concat, or_iff_left_of_imp idle.stop]
        exact h.stopped
      halted := by
        rw [halted_concat, or_iff_left hexpiry]
        exact h.halted
      numbered := by
        rw [haccepted, hexpired]
        exact h.numbered
      distinct := by
        rw [haccepted]
        exact h.distinct
      apart := by
        rw [haccepted]
        exact h.apart }

theorem quiet (h : s.Booked past) (quiet : s.Quiet s') : s'.Booked past := by
  have hpending : s'.timers.pending = s.timers.pending := quiet.timers.pending
  have hnext : s'.timers.nextNumber = s.timers.nextNumber := quiet.timers.nextNumber
  have hlive : s'.timers.live = s.timers.live := quiet.timers.live
  have hlater := quiet.later
  rw [quiet.eq] at hlater ⊢
  exact
    { h with
      heartbeat := by simpa only [hpending] using h.heartbeat
      cycle := by simpa only [hpending] using h.cycle
      delayed := by simpa only [hpending] using h.delayed
      immediate := by simpa only [hpending] using h.immediate
      halt := by simpa only [hpending] using h.halt
      numbered := by simpa only [hnext] using h.numbered
      present := by simpa only [hnext] using h.present
      due := by
        intro slot hslot himmediate
        rw [hlive] at hslot
        exact Nat.le_trans (h.due slot hslot himmediate) hlater }

theorem nextTimer_fresh (h : s.Booked past) :
    s.nextTimer ∉ acceptedSweeps past ∧ s.nextTimer ∉ expiredTimers past ∧ s.immediate ≠ some s.nextTimer := by
  have hirrefl := Nat.lt_irrefl s.timers.nextNumber
  exact ⟨fun hmem => hirrefl (h.numbered _ (.inl hmem)), fun hmem => hirrefl (h.numbered _ (.inr hmem)),
    fun heq => hirrefl (h.present _ heq)⟩

theorem immediate_ne (h : s.Booked past) {id : TimerId} {wakeup : Wakeup}
    (hpending : s.timers.pending[id]? = some wakeup) (hother : ∀ all, wakeup ≠ .cycle all) :
    s.immediate ≠ some id :=
  fun himmediate => hother _ (h.immediate id wakeup himmediate hpending)

theorem dropImmediate (h : s.Booked past) : s.dropImmediate.Booked past := by
  unfold Scheduler.dropImmediate
  rw [cancel_eq]
  exact
    { h with
      heartbeat := by
        intro id
        rw [cancel_pending, ← h.heartbeat]
        exact and_iff_right_of_imp fun hpending => h.immediate_ne hpending nofun
      cycle := by
        intro id all hpending
        rw [cancel_pending] at hpending
        exact .inl ((h.cycle id all hpending.2).resolve_right hpending.1)
      delayed := by
        intro id hid
        exact cancel_pending.mpr ⟨h.apart id (mem_delayedSweeps.mp hid).1, h.delayed id hid⟩
      immediate := nofun
      halt := by
        obtain ⟨halt, hhalt⟩ := h.halt
        refine ⟨halt, fun id => ?_⟩
        rw [cancel_pending, ← hhalt]
        exact and_iff_right_of_imp fun hpending => h.immediate_ne hpending nofun
      numbered := by
        intro id hid
        rw [cancel_nextNumber]
        exact h.numbered id hid
      present := nofun
      apart := nofun
      due := nofun }

theorem startImmediate (h : s.Booked past) (sound : s.timers.Sound) (hnone : s.immediate = none) (all : Bool) :
    (s.startImmediate all).Booked past :=
  { h with
    heartbeat := by
      intro id
      apply (schedule_pending sound).trans
      rw [h.heartbeat]
      exact or_iff_right fun hnew => nomatch hnew.2
    cycle := by
      intro id other hpending
      rcases (schedule_pending sound).mp hpending with ⟨hid, -⟩ | hold
      · exact .inr (congrArg some hid.symm)
      · exact .inl ((h.cycle id other hold).resolve_right (by simp [hnone]))
    delayed := fun id hid => (schedule_pending sound).mpr (.inr (h.delayed id hid))
    immediate := by
      intro id wakeup himmediate hpending
      cases himmediate
      rcases (schedule_pending sound).mp hpending with ⟨-, hwakeup⟩ | hold
      · exact hwakeup
      · rw [nextTimer_pending sound] at hold
        cases hold
    halt := by
      obtain ⟨halt, hhalt⟩ := h.halt
      refine ⟨halt, fun id => (schedule_pending sound).trans ?_⟩
      rw [hhalt]
      exact or_iff_right fun hnew => nomatch hnew.2
    numbered := fun id hid => Nat.lt_succ_of_lt (h.numbered id hid)
    present := by
      intro id himmediate
      cases himmediate
      exact Nat.lt_succ_self _
    apart := by
      intro id hid himmediate
      cases himmediate
      exact h.nextTimer_fresh.1 hid
    due := by
      intro slot hslot himmediate
      rcases (mem_live_schedule sound).mp hslot with rfl | hold
      · exact Nat.le_of_eq (congrArg Instant.nanos s.now.after_zero)
      · have hpending := (TimerQueue.mem_live.mp hold).2
        rw [← Option.some.inj himmediate] at hpending
        exact absurd (sound.number_lt hpending) (Nat.lt_irrefl _) }

theorem renewImmediate (h : s.Booked past) (sound : s.timers.Sound) (all : Bool) :
    (s.renewImmediate all).Booked past :=
  h.dropImmediate.startImmediate (dropImmediate_sound sound) rfl all

theorem scheduleImmediate (h : s.Booked past) (sound : s.timers.Sound) (all : Bool) :
    (s.scheduleImmediate all).Booked past := by
  rw [scheduleImmediate_eq]
  split
  · exact h
  · exact h.renewImmediate sound all

theorem cancelHeartbeat (h : s.Booked past) : s.cancelHeartbeat.Booked past := by
  have hother : ∀ {id wakeup}, s.timers.pending[id]? = some wakeup → wakeup ≠ .heartbeat →
      s.heartbeat ≠ some id := by
    intro id wakeup hpending hne hheartbeat
    rw [(h.heartbeat id).mpr hheartbeat] at hpending
    exact hne (Option.some.inj hpending).symm
  unfold Scheduler.cancelHeartbeat
  rw [cancel_eq]
  exact
    { h with
      heartbeat := by
        intro id
        rw [cancel_pending, h.heartbeat]
        exact ⟨fun hpending => absurd hpending.2 hpending.1, nofun⟩
      cycle := by
        intro id all hpending
        rw [cancel_pending] at hpending
        exact h.cycle id all hpending.2
      delayed := fun id hid => cancel_pending.mpr ⟨hother (h.delayed id hid) nofun, h.delayed id hid⟩
      immediate := by
        intro id wakeup himmediate hpending
        rw [cancel_pending] at hpending
        exact h.immediate id wakeup himmediate hpending.2
      halt := by
        obtain ⟨halt, hhalt⟩ := h.halt
        refine ⟨halt, fun id => ?_⟩
        rw [cancel_pending, ← hhalt]
        exact and_iff_right_of_imp fun hpending => hother hpending nofun
      numbered := by
        intro id hid
        rw [cancel_nextNumber]
        exact h.numbered id hid
      present := by
        intro id himmediate
        rw [cancel_nextNumber]
        exact h.present id himmediate
      due := by
        intro slot hslot himmediate
        exact h.due slot (mem_live_cancel.mp hslot).2 himmediate }

section Schedule

variable {delay : Duration} {wakeup : Wakeup}

theorem schedule_heartbeat (h : s.Booked past) (sound : s.timers.Sound) (hother : wakeup ≠ .heartbeat)
    (id : TimerId) :
    (s.schedule delay wakeup).2.timers.pending[id]? = some .heartbeat ↔ s.heartbeat = some id := by
  rw [schedule_pending sound, h.heartbeat]
  exact or_iff_right fun hnew => hother hnew.2.symm

theorem schedule_halt (h : s.Booked past) (sound : s.timers.Sound) (hother : wakeup ≠ .halt) :
    ∃ halt : TimerId, ∀ id, (s.schedule delay wakeup).2.timers.pending[id]? = some .halt ↔
      s.done = true ∧ s.halted = false ∧ id = halt := by
  obtain ⟨halt, hhalt⟩ := h.halt
  refine ⟨halt, fun id => ?_⟩
  rw [schedule_pending sound, hhalt]
  exact or_iff_right fun hnew => hother hnew.2.symm

theorem schedule_immediate (h : s.Booked past) (sound : s.timers.Sound) (id : TimerId) (other : Wakeup)
    (himmediate : s.immediate = some id)
    (hpending : (s.schedule delay wakeup).2.timers.pending[id]? = some other) :
    other = .cycle s.immediateSweep := by
  rcases (schedule_pending sound).mp hpending with ⟨rfl, -⟩ | hold
  · exact absurd himmediate h.nextTimer_fresh.2.2
  · exact h.immediate id other himmediate hold

theorem schedule_due (h : s.Booked past) (sound : s.timers.Sound) (slot : Slot)
    (hslot : slot ∈ (s.schedule delay wakeup).2.timers.live) (himmediate : s.immediate = some slot.2) :
    slot.1 ≤ s.now := by
  rcases (mem_live_schedule sound).mp hslot with rfl | hold
  · exact absurd himmediate h.nextTimer_fresh.2.2
  · exact h.due slot hold himmediate

end Schedule

theorem startHeartbeat (h : s.Booked past) (sound : s.timers.Sound) (hnone : s.heartbeat = none) :
    s.startHeartbeat.Booked past :=
  { h with
    heartbeat := by
      intro id
      apply (schedule_pending sound).trans
      rw [h.heartbeat, hnone]
      constructor
      · rintro (⟨rfl, -⟩ | hold)
        · rfl
        · cases hold
      · rintro hid
        cases hid
        exact .inl ⟨rfl, rfl⟩
    cycle := by
      intro id other hpending
      exact h.cycle id other (((schedule_pending sound).mp hpending).resolve_left fun hnew => nomatch hnew.2)
    delayed := fun id hid => (schedule_pending sound).mpr (.inr (h.delayed id hid))
    immediate := h.schedule_immediate sound
    halt := h.schedule_halt sound nofun
    numbered := fun id hid => Nat.lt_succ_of_lt (h.numbered id hid)
    present := fun id himmediate => Nat.lt_succ_of_lt (h.present id himmediate)
    due := h.schedule_due sound }

theorem armHeartbeat (h : s.Booked past) (sound : s.timers.Sound) : s.armHeartbeat.Booked past :=
  h.cancelHeartbeat.startHeartbeat (cancelHeartbeat_sound sound) rfl

theorem delayedSweeps_accept (h : s.Booked past) {m : Moment σ} (sweep : m.sweep? = some s.nextTimer)
    (expiry : m.expiry? = none) (id : TimerId) :
    id ∈ delayedSweeps (past ++ [m]) ↔ id = s.nextTimer ∨ id ∈ delayedSweeps past := by
  rw [mem_delayedSweeps, mem_delayedSweeps, acceptedSweeps_concat, expiredTimers_same expiry, sweep,
    Option.toList_some, List.mem_append, List.mem_singleton]
  constructor
  · rintro ⟨hold | hnew, hwaits⟩
    · exact .inr ⟨hold, hwaits⟩
    · exact .inl hnew
  · rintro (rfl | hold)
    · exact ⟨.inr rfl, h.nextTimer_fresh.2.1⟩
    · exact ⟨.inl hold.1, hold.2⟩

theorem delay (h : s.Booked past) (sound : s.timers.Sound) {delay : Duration} {targets : Targets}
    (running : s.done = false) (later : delay.isZero = false) {after : Scheduler σ} :
    (s.schedule delay (.cycle true)).2.Booked (past ++ [⟨s, .obeyed (.trigger delay targets), after⟩]) := by
  let m : Moment σ := ⟨s, .obeyed (.trigger delay targets), after⟩
  have hsweep : m.sweep? = some s.nextTimer := by
    simp [m, Moment.sweep?, running, later]
  have haccepted : acceptedSweeps (past ++ [m]) = acceptedSweeps past ++ [s.nextTimer] := by
    rw [acceptedSweeps_concat, hsweep]
    rfl
  have hexpired : expiredTimers (past ++ [m]) = expiredTimers past := expiredTimers_same rfl
  have hdelayed := h.delayedSweeps_accept hsweep rfl
  exact
    { h with
      heartbeat := h.schedule_heartbeat sound nofun
      cycle := by
        intro id all hpending
        rw [hdelayed]
        rcases (schedule_pending sound).mp hpending with ⟨hid, hall⟩ | hold
        · exact .inl ⟨.inl hid, Wakeup.cycle.inj hall⟩
        · exact (h.cycle id all hold).imp_left fun hwaits => ⟨.inr hwaits.1, hwaits.2⟩
      delayed := by
        intro id hid
        rw [hdelayed] at hid
        exact (schedule_pending sound).mpr (hid.imp (fun hnew => ⟨hnew, rfl⟩) (h.delayed id))
      immediate := h.schedule_immediate sound
      halt := h.schedule_halt sound nofun
      stopped := by
        rw [stopped_concat, or_iff_left nofun]
        exact h.stopped
      halted := by
        rw [halted_concat, or_iff_left nofun]
        exact h.halted
      numbered := by
        intro id hid
        rw [haccepted, hexpired, List.mem_append, List.mem_singleton] at hid
        rcases hid with (hold | rfl) | hgone
        · exact Nat.lt_succ_of_lt (h.numbered id (.inl hold))
        · exact Nat.lt_succ_self _
        · exact Nat.lt_succ_of_lt (h.numbered id (.inr hgone))
      present := fun id himmediate => Nat.lt_succ_of_lt (h.present id himmediate)
      distinct := by
        rw [haccepted, ← List.concat_eq_append]
        exact List.Nodup.concat h.nextTimer_fresh.1 h.distinct
      apart := by
        intro id hid
        rw [haccepted, List.mem_append, List.mem_singleton] at hid
        rcases hid with hold | rfl
        · exact h.apart id hold
        · exact h.nextTimer_fresh.2.2
      due := h.schedule_due sound }

theorem stop (h : s.Booked past) (sound : s.timers.Sound) (running : s.done = false) {after : Scheduler σ} :
    ({ (s.schedule .zero .halt).2 with done := true } : Scheduler σ).Booked
      (past ++ [⟨s, .obeyed .stop, after⟩]) := by
  let m : Moment σ := ⟨s, .obeyed .stop, after⟩
  have haccepted : acceptedSweeps (past ++ [m]) = acceptedSweeps past := acceptedSweeps_same rfl
  have hexpired : expiredTimers (past ++ [m]) = expiredTimers past := expiredTimers_same rfl
  have hdelayed : delayedSweeps (past ++ [m]) = delayedSweeps past := delayedSweeps_same rfl rfl
  have hgoing : s.halted = false := by
    by_contra hhalted
    rw [h.order (eq_true_of_ne_false hhalted)] at running
    cases running
  exact
    { h with
      heartbeat := h.schedule_heartbeat sound nofun
      cycle := by
        intro id all hpending
        rw [hdelayed]
        exact h.cycle id all (((schedule_pending sound).mp hpending).resolve_left fun hnew => nomatch hnew.2)
      delayed := by
        rw [hdelayed]
        exact fun id hid => (schedule_pending sound).mpr (.inr (h.delayed id hid))
      immediate := h.schedule_immediate sound
      halt := by
        obtain ⟨halt, hhalt⟩ := h.halt
        refine ⟨s.nextTimer, fun id => (schedule_pending sound).trans ?_⟩
        rw [hhalt, running]
        constructor
        · rintro (⟨hid, -⟩ | hold)
          · exact ⟨rfl, hgoing, hid⟩
          · cases hold.1
        · exact fun hid => .inl ⟨hid.2.2, rfl⟩
      stopped := by simp [stopped_concat]
      halted := by
        rw [halted_concat, or_iff_left nofun]
        exact h.halted
      order := fun _ => rfl
      numbered := by
        rw [haccepted, hexpired]
        exact fun id hid => Nat.lt_succ_of_lt (h.numbered id hid)
      present := fun id himmediate => Nat.lt_succ_of_lt (h.present id himmediate)
      distinct := by
        rw [haccepted]
        exact h.distinct
      apart := by
        rw [haccepted]
        exact h.apart
      due := h.schedule_due sound }

section Expire

variable {timers : TimerQueue Wakeup} {id : TimerId} {wakeup : Wakeup}

theorem expire_heartbeat (h : s.Booked past) (expires : s.timers.Expires s.now id wakeup timers)
    (other : TimerId) :
    timers.pending[other]? = some .heartbeat ↔
      (if wakeup = .heartbeat then none else s.heartbeat) = some other := by
  rw [expires.pending_iff, h.heartbeat]
  by_cases hkind : wakeup = .heartbeat
  · have hthis : s.heartbeat = some id := (h.heartbeat id).mp (hkind ▸ expires.payload)
    simp [hkind, hthis, eq_comm]
  · rw [if_neg hkind]
    apply and_iff_right_of_imp
    intro hheartbeat hid
    apply hkind
    rw [hid, ← h.heartbeat, expires.payload] at hheartbeat
    exact Option.some.inj hheartbeat

theorem expire_halt (h : s.Booked past) (expires : s.timers.Expires s.now id wakeup timers) :
    ∃ halt : TimerId, ∀ other, timers.pending[other]? = some .halt ↔
      s.done = true ∧ (if wakeup = .halt then true else s.halted) = false ∧ other = halt := by
  obtain ⟨halt, hhalt⟩ := h.halt
  refine ⟨halt, fun other => ?_⟩
  rw [expires.pending_iff, hhalt]
  by_cases hkind : wakeup = .halt
  · have hthis : id = halt := ((hhalt id).mp (hkind ▸ expires.payload)).2.2
    rw [if_pos hkind, hthis]
    exact ⟨fun hother => absurd hother.2.2.2 hother.1, fun hother => nomatch hother.2.1⟩
  · rw [if_neg hkind]
    apply and_iff_right_of_imp
    intro hother hid
    apply hkind
    rw [hid, ← hhalt, expires.payload] at hother
    exact Option.some.inj hother

theorem expire_order (h : s.Booked past) (expires : s.timers.Expires s.now id wakeup timers)
    (hhalted : (if wakeup = .halt then true else s.halted) = true) : s.done = true := by
  by_cases hkind : wakeup = .halt
  · obtain ⟨halt, hhalt⟩ := h.halt
    exact ((hhalt id).mp (hkind ▸ expires.payload)).1
  · rw [if_neg hkind] at hhalted
    exact h.order hhalted

theorem expire (h : s.Booked past) (sound : s.timers.Sound)
    (expires : s.timers.Expires s.now id wakeup timers) {after : Scheduler σ} :
    (s.expire timers wakeup).Booked (past ++ [⟨s, .expired id wakeup, after⟩]) := by
  let m : Moment σ := ⟨s, .expired id wakeup, after⟩
  have haccepted : acceptedSweeps (past ++ [m]) = acceptedSweeps past := acceptedSweeps_same rfl
  have hexpired : expiredTimers (past ++ [m]) = expiredTimers past ++ [id] := expiredTimers_concat past m
  -- A delayed sweep that comes due is no longer waited for; any other timer was none.
  have hdelayed : ∀ other, other ∈ delayedSweeps (past ++ [m]) ↔ other ≠ id ∧ other ∈ delayedSweeps past := by
    intro other
    rw [mem_delayedSweeps, mem_delayedSweeps, haccepted, hexpired, List.mem_append, List.mem_singleton, not_or]
    tauto
  obtain ⟨stats, hframe⟩ := s.expire_frame timers wakeup
  rw [hframe]
  exact
    { h with
      heartbeat := h.expire_heartbeat expires
      cycle := by
        intro other all hpending
        obtain ⟨hother, hold⟩ := expires.pending_iff.mp hpending
        rw [hdelayed]
        exact (h.cycle other all hold).imp_left fun hwaits => ⟨⟨hother, hwaits.1⟩, hwaits.2⟩
      delayed := by
        intro other hwaits
        rw [hdelayed] at hwaits
        exact expires.pending_iff.mpr ⟨hwaits.1, h.delayed other hwaits.2⟩
      immediate := by
        intro other payload himmediate hpending
        exact h.immediate other payload himmediate (expires.pending_iff.mp hpending).2
      halt := h.expire_halt expires
      stopped := by
        rw [stopped_concat, or_iff_left nofun]
        exact h.stopped
      halted := by
        rw [halted_concat, ← h.halted]
        by_cases hkind : wakeup = .halt <;> simp [hkind]
      order := h.expire_order expires
      numbered := by
        intro other hother
        rw [haccepted, hexpired, List.mem_append, List.mem_singleton] at hother
        rw [expires.nextNumber]
        rcases hother with hold | hold | rfl
        · exact h.numbered other (.inl hold)
        · exact h.numbered other (.inr hold)
        · exact sound.number_lt (Std.ExtTreeMap.getElem?_eq_some_iff.mp expires.payload).1
      present := by
        rw [expires.nextNumber]
        exact h.present
      distinct := by
        rw [haccepted]
        exact h.distinct
      apart := by
        rw [haccepted]
        exact h.apart
      due := by
        obtain ⟨deadline, -, hlive⟩ := expires.live
        intro slot hslot himmediate
        have hbefore : slot ∈ s.timers.live := by
          rw [hlive]
          exact List.mem_cons_of_mem _ hslot
        exact h.due slot hbefore himmediate }

end Expire

theorem start (run : Run σ) : run.start.Booked [] where
  heartbeat _ := by simp [Run.start]
  cycle _ _ := by simp [Run.start]
  delayed := nofun
  immediate := nofun
  halt := ⟨⟨0⟩, fun _ => by simp [Run.start]⟩
  stopped := by simp [Run.start, Stopped]
  halted := by simp [Run.start, Halted]
  order := nofun
  numbered := nofun
  present := nofun
  distinct := List.nodup_nil
  apart := nofun
  due := nofun

theorem obeyed (h : s.Booked past) (sound : s.timers.Sound) {command : Command} (obeyed : s.Obeyed command s') :
    s'.Booked (past ++ [⟨s, .obeyed command, s'⟩]) := by
  cases obeyed with
  | ignored delay targets hdone => exact h.idle ⟨by simp [Moment.sweep?, hdone], rfl, nofun⟩
  | delayed delay targets hrunning hlater => exact h.delay sound hrunning hlater
  | sweep delay hrunning hnow =>
    exact (h.renewImmediate sound true).idle ⟨by simp [Moment.sweep?, hnow], rfl, nofun⟩
  | dropped delay ids hrunning hnow =>
    have hdropped : (s.join ids).drop.Booked past := { h with }
    exact hdropped.idle ⟨by simp [Moment.sweep?, hnow], rfl, nofun⟩
  | joined delay ids hrunning hnow =>
    have hjoined : (s.join ids).Booked past := { h with }
    exact (hjoined.scheduleImmediate sound false).idle ⟨by simp [Moment.sweep?, hnow], rfl, nofun⟩
  | stopAgain hdone => exact h.idle ⟨rfl, rfl, fun _ => h.stopped.mp hdone⟩
  | stop hrunning => exact h.stop sound hrunning

theorem taken (h : s.Booked past) (taken : s.Taken s') : s'.Booked past := by
  have hclear : s.clear.Booked past := { h with }
  cases taken with
  | gone hgone =>
    have hnot : ∀ id all, s.timers.pending[id]? = some (.cycle all) → s.immediate ≠ some id := by
      intro id all hpending himmediate
      have hmem : id ∈ s.timers.pending := (Std.ExtTreeMap.getElem?_eq_some_iff.mp hpending).1
      rw [s.hasImmediateCycle_iff.mpr ⟨id, himmediate, hmem⟩] at hgone
      cases hgone
    exact
      { hclear with
        cycle := fun id all hpending => .inl ((h.cycle id all hpending).resolve_right (hnot id all hpending))
        immediate := nofun
        present := nofun
        apart := nofun
        due := nofun }
  | narrow => exact hclear.dropImmediate
  | sweep => exact hclear

theorem followed (h : s.Booked past) (sound : s.timers.Sound) {result : FiringResult} {active : Bool}
    {next : NextCycle} (followed : s.Followed result active next s') : s'.Booked past := by
  cases followed with
  | stopped => exact h
  | fired =>
    have hgathered : (s.cancelHeartbeat.gather result.affected).Booked past := { h.cancelHeartbeat with }
    exact hgathered.scheduleImmediate (cancelHeartbeat_sound sound) false
  | active => exact h.cancelHeartbeat.renewImmediate (cancelHeartbeat_sound sound) true
  | quiet => exact h.armHeartbeat sound

theorem fired (h : s.Booked past) (only : Option ActorSet) (ids : List ActorId) (state : Scheduler σ × Sweep) :
    s.Booked (past ++ firingEach only ids state) := by
  induction ids generalizing past state with
  | nil =>
    rw [firingEach, List.append_nil]
    exact h
  | cons id ids ih =>
    rw [firingEach]
    split
    · rw [List.append_cons]
      refine ih (h.idle ⟨rfl, rfl, ?_⟩) _
      intro hmark
      cases hmark
    · exact ih h _

theorem kept : Kept fun _ (past : List (Moment σ)) (s : Scheduler σ) => s.Booked past where
  quiet := quiet
  obeyed _ h sound := h.obeyed sound
  lapsed h sound := h.obeyed sound
  begun h sound _ _ := (h.renewImmediate sound true).idle ⟨rfl, rfl, by simp [beginning]⟩
  operated operation h := by
    have hoperated : Scheduler.Booked _ (Scheduler.operating _ operation).after := { h with }
    exact hoperated.idle ⟨rfl, rfl, by simp [operating]⟩
  expired h sound _ expires := h.expire sound expires
  entered := id
  opened all h := by
    have hopened : Scheduler.Booked _ (Scheduler.openCycle _ all) := { h with }
    exact hopened.idle ⟨rfl, rfl, by simp [opening]⟩
  closed {past s} cycle all active h sound := by
    have hswept : (s.swept all).Booked past := by
      obtain ⟨registry, stats, hframe⟩ := s.swept_frame all
      rw [hframe]
      exact { h.taken s.takePending_taken with }
    have hfollowed := hswept.followed (swept_sound sound all) (s.closeCycle_followed cycle all active)
    rw [closing, ← List.append_assoc]
    exact (hfollowed.fired _ _ _).idle ⟨rfl, rfl, by simp⟩

end Booked

/-! ## Between operations -/

/-- Which timers are pending between operations. -/
structure Accounted (past : List (Moment σ)) (s : Scheduler σ) : Prop where
  heartbeat : ∀ id, s.timers.pending[id]? = some .heartbeat ↔ s.heartbeat = some id
  armed : s.isHeartbeatArmed = true ↔ ∃ id : TimerId, s.timers.pending[id]? = some .heartbeat
  cycle : ∀ id all, s.timers.pending[id]? = some (.cycle all) ↔
    (id ∈ delayedSweeps past ∧ all = true) ∨
      (s.immediate = some id ∧ s.hasImmediateCycle = true ∧ all = s.immediateSweep)
  apart : ∀ id ∈ delayedSweeps past, s.immediate ≠ some id
  distinct : (delayedSweeps past).Nodup
  due : ∀ id, s.immediate = some id → s.hasImmediateCycle = true →
    ∃ deadline, deadline ≤ s.now ∧ (deadline, id) ∈ s.timers.agenda
  scheduledCycles :
    s.scheduledCycles = (delayedSweeps past).length + if s.hasImmediateCycle then 1 else 0
  stopped : s.done = true ↔ Stopped past
  halted : s.halted = true ↔ Halted past
  halt : s.timers.payloads.count .halt = if s.done && !s.halted then 1 else 0

namespace Booked

variable {past : List (Moment σ)}

theorem pending_immediate (h : s.Booked past) {id : TimerId} (himmediate : s.immediate = some id)
    (hhas : s.hasImmediateCycle = true) : s.timers.pending[id]? = some (.cycle s.immediateSweep) := by
  obtain ⟨other, hother, hmem⟩ := s.hasImmediateCycle_iff.mp hhas
  rw [himmediate] at hother
  cases hother
  rw [Std.ExtTreeMap.getElem?_eq_some_getElem hmem]
  exact congrArg some (h.immediate id _ himmediate (Std.ExtTreeMap.getElem?_eq_some_getElem hmem))

theorem cycle_iff (h : s.Booked past) (id : TimerId) (all : Bool) :
    s.timers.pending[id]? = some (.cycle all) ↔
      (id ∈ delayedSweeps past ∧ all = true) ∨
        (s.immediate = some id ∧ s.hasImmediateCycle = true ∧ all = s.immediateSweep) := by
  constructor
  · intro hpending
    refine (h.cycle id all hpending).imp_right fun himmediate => ⟨himmediate, ?_, ?_⟩
    · exact s.hasImmediateCycle_iff.mpr ⟨id, himmediate, (Std.ExtTreeMap.getElem?_eq_some_iff.mp hpending).1⟩
    · exact Wakeup.cycle.inj (h.immediate id _ himmediate hpending)
  · rintro (⟨hdelayed, rfl⟩ | ⟨himmediate, hhas, rfl⟩)
    · exact h.delayed id hdelayed
    · exact h.pending_immediate himmediate hhas

theorem delayed_apart (h : s.Booked past) (id : TimerId) (hid : id ∈ delayedSweeps past) :
    s.immediate ≠ some id := h.apart id (mem_delayedSweeps.mp hid).1

theorem delayed_distinct (h : s.Booked past) : (delayedSweeps past).Nodup := h.distinct.filter _

theorem scheduledCycles_eq (h : s.Booked past) :
    s.scheduledCycles = (delayedSweeps past).length + if s.hasImmediateCycle then 1 else 0 := by
  let immediate : List TimerId := if s.hasImmediateCycle then s.immediate.toList else []
  have hmem : ∀ id, id ∈ immediate ↔ s.immediate = some id ∧ s.hasImmediateCycle = true := by
    intro id
    by_cases hhas : s.hasImmediateCycle = true <;> simp [immediate, hhas]
  have hlength : immediate.length = if s.hasImmediateCycle then 1 else 0 := by
    by_cases hhas : s.hasImmediateCycle = true
    · obtain ⟨id, himmediate, -⟩ := s.hasImmediateCycle_iff.mp hhas
      simp [immediate, hhas, himmediate]
    · simp [immediate, hhas]
  have hshort : immediate.Nodup := by
    refine List.nodup_iff_count_le_one.mpr fun id => Nat.le_trans List.count_le_length ?_
    rw [hlength]
    split <;> omega
  have hnodup : (delayedSweeps past ++ immediate).Nodup := by
    refine List.nodup_append'.mpr ⟨h.delayed_distinct, hshort, ?_⟩
    intro id hdelayed himmediate
    exact h.delayed_apart id hdelayed ((hmem id).mp himmediate).1
  rw [← hlength, ← List.length_append]
  apply TimerQueue.countP_payloads hnodup
  intro id
  rw [List.mem_append, hmem]
  constructor
  · rintro (hdelayed | ⟨himmediate, hhas⟩)
    · exact ⟨_, h.delayed id hdelayed, rfl⟩
    · exact ⟨_, h.pending_immediate himmediate hhas, rfl⟩
  · rintro ⟨_ | _ | _, hpending, hkind⟩
    · exact ((h.cycle_iff id _).mp hpending).imp And.left fun hthis => ⟨hthis.1, hthis.2.1⟩
    · cases hkind
    · cases hkind

theorem halt_count (h : s.Booked past) :
    s.timers.payloads.count .halt = if s.done && !s.halted then 1 else 0 := by
  obtain ⟨halt, hhalt⟩ := h.halt
  by_cases hwaits : s.done = true ∧ s.halted = false
  · have hone : s.timers.payloads.count .halt = [halt].length := by
      apply TimerQueue.countP_payloads (List.nodup_singleton halt)
      intro id
      simp [hhalt, hwaits]
    simpa [hwaits] using hone
  · have hnone : ∀ id : TimerId, s.timers.pending[id]? ≠ some .halt :=
      fun id hpending => hwaits (((hhalt id).mp hpending).imp_right And.left)
    have hzero : s.timers.payloads.count .halt = ([] : List TimerId).length := by
      apply TimerQueue.countP_payloads List.nodup_nil
      intro id
      simp [hnone]
    rw [hzero, if_neg (by simpa using hwaits)]
    rfl

theorem accounted (h : s.Booked past) (sound : s.timers.Sound) : s.Accounted past where
  heartbeat := h.heartbeat
  armed := by
    rw [isHeartbeatArmed_iff]
    constructor
    · rintro ⟨id, hheartbeat, -⟩
      exact ⟨id, (h.heartbeat id).mpr hheartbeat⟩
    · rintro ⟨id, hpending⟩
      exact ⟨id, (h.heartbeat id).mp hpending, (Std.ExtTreeMap.getElem?_eq_some_iff.mp hpending).1⟩
  cycle := h.cycle_iff
  apart := h.delayed_apart
  distinct := h.delayed_distinct
  due := by
    intro id himmediate hhas
    have hpending := h.pending_immediate himmediate hhas
    obtain ⟨deadline, hslot⟩ := sound.exists_live (Std.ExtTreeMap.getElem?_eq_some_iff.mp hpending).1
    exact ⟨deadline, h.due _ hslot himmediate, (TimerQueue.mem_live.mp hslot).1⟩
  scheduledCycles := h.scheduledCycles_eq
  stopped := h.stopped
  halted := h.halted
  halt := h.halt_count

end Booked

end Scheduler

/-- The timers of every run are accounted for. -/
theorem Run.timers_accounted (run : Run σ) : run.state.Accounted run.history := by
  obtain ⟨hbooked, hsound⟩ := run.invariant Scheduler.Booked.kept (.start run)
  exact hbooked.accounted hsound

end ActorNet
