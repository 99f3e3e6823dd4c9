import ActorNet.Proofs.Requests

set_option autoImplicit false

/-!
# What the parts of a cycle do

A cycle opens, obeys what has arrived, and closes: it takes the pending set, fires, and decides what
follows. `loopOnce_value` puts it together from these parts.
-/
namespace ActorNet.Scheduler

variable {σ : Type}

def openCycle (s : Scheduler σ) (all : Bool) : Scheduler σ := (s.beginCycle all).pollMonitor.2

def scope (s : Scheduler σ) (all : Bool) : Option ActorSet :=
  if !all && s.config.restrictToTriggered then some s.pending else none

def sweepActors (s : Scheduler σ) (all : Bool) : Scheduler σ × Sweep :=
  (fireEach (s.scope all) s.registry.enabled (s.takePending.2, {})).value

def closeCycle (s : Scheduler σ) (cycle : Nat) (all active : Bool) : Scheduler σ × CycleReport :=
  let (fired, sweep) := s.sweepActors all
  let (next, closed) := (fired.countFiring sweep.total.didFire).follow sweep.total active
  (closed,
    { cycle, all, eligible := s.pending, touched := sweep.touched, failed := sweep.failed,
      monitorActivity := active, result := sweep.total, next })

theorem drain_kept {P : Scheduler σ → Prop} (kept : ∀ {s s' command}, P s → s.Obeyed command s' → P s')
    {s : Scheduler σ} (h : P { s with inbox := [] }) : P s.drain.value := by
  suffices hall : ∀ (commands : List Command) (s : Scheduler σ), P s → P (commands.foldlM obey s).value from
    hall s.inbox _ h
  intro commands
  induction commands with
  | nil => exact fun _ => id
  | cons command commands ih =>
    intro s h
    rw [List.foldlM_cons, Logged.value_bind]
    exact ih _ (kept h (s.obeyed command))

theorem drain_registry (s : Scheduler σ) : s.drain.value.registry = s.registry :=
  drain_kept (P := (·.registry = s.registry)) (fun h obeyed => obeyed.frame.1.trans h) rfl

theorem drain_config (s : Scheduler σ) : s.drain.value.config = s.config :=
  drain_kept (P := (·.config = s.config)) (fun h obeyed => obeyed.config.trans h) rfl

def clear (s : Scheduler σ) : Scheduler σ := { s with pending := ∅, unaddressed := false }

/-- What becomes of the immediate cycle when the pending set is taken. -/
inductive Taken (s : Scheduler σ) : Scheduler σ → Prop
  | gone (h : s.hasImmediateCycle = false) : Taken s { s.clear with immediate := none }
  | narrow (h : s.hasImmediateCycle = true) (hsweep : s.immediateSweep = false) :
    Taken s s.clear.dropImmediate
  | sweep (h : s.hasImmediateCycle = true) (hsweep : s.immediateSweep = true) : Taken s s.clear

theorem takePending_fst (s : Scheduler σ) : s.takePending.1 = s.pending := by
  unfold takePending
  dsimp only
  split
  · rfl
  · split <;> rfl

theorem takePending_snd (s : Scheduler σ) :
    s.takePending.2 =
      if !s.hasImmediateCycle then { s.clear with immediate := none }
      else if !s.immediateSweep then s.clear.dropImmediate
      else s.clear := by
  unfold takePending
  dsimp only
  change (if (!s.hasImmediateCycle) = true then _ else _ : ActorSet × Scheduler σ).2 = _
  split
  · rfl
  · change (if (!s.immediateSweep) = true then _ else _ : ActorSet × Scheduler σ).2 = _
    split <;> rfl

theorem takePending_taken (s : Scheduler σ) : Taken s s.takePending.2 := by
  rw [takePending_snd]
  cases hi : s.hasImmediateCycle with
  | false => exact .gone hi
  | true =>
    cases hs : s.immediateSweep with
    | false => exact .narrow hi hs
    | true => exact .sweep hi hs

theorem Taken.frame {s s' : Scheduler σ} (h : Taken s s') :
    s' = { s.clear with timers := s'.timers, immediate := s'.immediate } := by
  cases h with
  | gone => rfl
  | narrow =>
    unfold dropImmediate
    rw [cancel_eq]
  | sweep => rfl

theorem takePending_registry (s : Scheduler σ) : s.takePending.2.registry = s.registry := by
  rw [s.takePending_taken.frame]
  rfl

theorem takePending_config (s : Scheduler σ) : s.takePending.2.config = s.config := by
  rw [s.takePending_taken.frame]
  rfl

theorem fireOne_frame (s : Scheduler σ) (sweep : Sweep) (id : ActorId) :
    ∃ fireErrors, (s.fireOne sweep id).value.1 =
      { s with registry := (s.registry.fireActor id).value.1, stats := { s.stats with fireErrors } } := by
  unfold fireOne
  rw [Logged.value_bind]
  dsimp only
  split
  · exact ⟨s.stats.fireErrors, rfl⟩
  · exact ⟨countUp s.stats.fireErrors, rfl⟩

theorem fireOne_registry (s : Scheduler σ) (sweep : Sweep) (source : ActorId) :
    (s.fireOne sweep source).value.1.registry = (s.registry.fireActor source).value.1 := by
  obtain ⟨fireErrors, hframe⟩ := s.fireOne_frame sweep source
  rw [hframe]

theorem fireEach_frame (only : Option ActorSet) (ids : List ActorId) (s : Scheduler σ) (sweep : Sweep) :
    ∃ registry fireErrors, (fireEach only ids (s, sweep)).value.1 =
      { s with registry, stats := { s.stats with fireErrors } } := by
  induction ids generalizing s sweep with
  | nil => exact ⟨s.registry, s.stats.fireErrors, rfl⟩
  | cons id ids ih =>
    rw [fireEach]
    split
    · rw [Logged.value_bind]
      obtain ⟨fireErrors, hone⟩ := s.fireOne_frame sweep id
      obtain ⟨registry, errors, hrest⟩ := ih (s.fireOne sweep id).value.1 (s.fireOne sweep id).value.2
      refine ⟨registry, errors, hrest.trans ?_⟩
      rw [hone]
    · exact ih s sweep

theorem sweepActors_frame (s : Scheduler σ) (all : Bool) :
    ∃ registry fireErrors, (s.sweepActors all).1 =
      { s.takePending.2 with registry, stats := { s.takePending.2.stats with fireErrors } } :=
  fireEach_frame _ _ _ _

theorem countFiring_frame (s : Scheduler σ) (didFire : Bool) :
    ∃ firingCycles, s.countFiring didFire = { s with stats := { s.stats with firingCycles } } := by
  cases didFire with
  | false => exact ⟨s.stats.firingCycles, rfl⟩
  | true => exact ⟨countUp s.stats.firingCycles, rfl⟩

theorem fireOne_touched (s : Scheduler σ) (sweep : Sweep) (id : ActorId) :
    (s.fireOne sweep id).value.2.touched = sweep.touched ++ [id] := by
  unfold fireOne
  rw [Logged.value_bind]
  dsimp only
  split <;> rfl

theorem fireEach_touched (only : Option ActorSet) (ids : List ActorId) (s : Scheduler σ) (sweep : Sweep) :
    (fireEach only ids (s, sweep)).value.2.touched =
      sweep.touched ++ ids.filter fun id => only.all (·.contains id) := by
  induction ids generalizing s sweep with
  | nil => exact (List.append_nil _).symm
  | cons id ids ih =>
    rw [fireEach]
    split
    case isTrue hdue =>
      have hrest := ih (s.fireOne sweep id).value.1 (s.fireOne sweep id).value.2
      rw [fireOne_touched, List.append_assoc, List.singleton_append] at hrest
      rwa [Logged.value_bind, List.filter_cons, if_pos hdue]
    case isFalse hpassed =>
      rw [List.filter_cons, if_neg hpassed]
      exact ih s sweep

def gather (s : Scheduler σ) (ids : ActorSet) : Scheduler σ := { s with pending := s.pending ∪ ids }

inductive Followed (s : Scheduler σ) (result : FiringResult) (active : Bool) :
    NextCycle → Scheduler σ → Prop
  | stopped (stopped : s.done = true) : Followed s result active .stopped s
  | fired (running : s.done = false) (fired : result.didFire = true) :
    Followed s result active .immediate
      ((s.cancelHeartbeat.gather result.affected).scheduleImmediate false)
  | active (running : s.done = false) (idle : result.didFire = false) (h : active = true) :
    Followed s result active .immediate (s.cancelHeartbeat.renewImmediate true)
  | quiet (running : s.done = false) (idle : result.didFire = false) (h : active = false) :
    Followed s result active .heartbeat s.armHeartbeat

theorem follow_followed (s : Scheduler σ) (result : FiringResult) (active : Bool) :
    Followed s result active (s.follow result active).1 (s.follow result active).2 := by
  unfold follow
  cases hdone : s.done with
  | true => exact .stopped hdone
  | false =>
    cases hfire : result.didFire with
    | true => exact .fired hdone hfire
    | false =>
      cases active with
      | true =>
        have h : Followed s result true .immediate _ := .active hdone hfire rfl
        rwa [← s.cancelHeartbeat.scheduleImmediate_sweep] at h
      | false => exact .quiet hdone hfire rfl

section Followed

variable {s s' : Scheduler σ} {result : FiringResult} {active : Bool} {next : NextCycle}

/-- What follows concerns the timers, their records, and those that the cycle has affected. -/
theorem Followed.eq (h : s.Followed result active next s') :
    ∃ timers immediate immediateSweep heartbeat stats, s' = { s with
      pending := if result.didFire = true ∧ next ≠ .stopped then s.pending ∪ result.affected else s.pending
      timers, immediate, immediateSweep, heartbeat, stats } := by
  obtain ⟨heartbeats, hcancelled⟩ := s.cancelHeartbeat_frame
  cases h with
  | stopped => exact ⟨s.timers, s.immediate, s.immediateSweep, s.heartbeat, s.stats, by simp⟩
  | fired _ hfired =>
    obtain ⟨timers, immediate, immediateSweep, hframe⟩ :=
      (s.cancelHeartbeat.gather result.affected).scheduleImmediate_frame false
    refine ⟨timers, immediate, immediateSweep, none, s.stats, ?_⟩
    rw [hframe, gather, hcancelled, if_pos ⟨hfired, nofun⟩]
  | active _ hidle =>
    obtain ⟨timers, hframe⟩ := s.cancelHeartbeat.renewImmediate_frame true
    refine ⟨timers, some s.cancelHeartbeat.nextTimer, true, none, s.stats, ?_⟩
    rw [hframe, hcancelled]
    simp [hidle]
  | quiet _ hidle =>
    obtain ⟨timers, heartbeat, stats, hframe⟩ := s.armHeartbeat_frame
    refine ⟨timers, s.immediate, s.immediateSweep, heartbeat, stats, ?_⟩
    rw [hframe]
    simp [hidle]

theorem Followed.pending (h : s.Followed result active next s') (nobody : s.pending = ∅) (id : ActorId) :
    id ∈ s'.pending ↔ (result.didFire = true ∧ next ≠ .stopped) ∧ id ∈ result.affected := by
  obtain ⟨timers, immediate, immediateSweep, heartbeat, stats, heq⟩ := h.eq
  rw [heq]
  by_cases hgather : result.didFire = true ∧ next ≠ .stopped
  · simp [hgather, nobody, Std.ExtTreeSet.mem_union_iff]
  · simp [hgather, nobody]

theorem Followed.unaddressed (h : s.Followed result active next s') : s'.unaddressed = s.unaddressed := by
  obtain ⟨timers, immediate, immediateSweep, heartbeat, stats, heq⟩ := h.eq
  rw [heq]

theorem Followed.registry (h : s.Followed result active next s') : s'.registry = s.registry := by
  obtain ⟨timers, immediate, immediateSweep, heartbeat, stats, heq⟩ := h.eq
  rw [heq]

theorem Followed.done (h : s.Followed result active next s') : s'.done = s.done := by
  obtain ⟨timers, immediate, immediateSweep, heartbeat, stats, heq⟩ := h.eq
  rw [heq]

theorem Followed.next_ne (h : s.Followed result active next s') (running : s.done = false) :
    next ≠ .stopped := by
  cases h with
  | stopped hdone =>
    rw [hdone] at running
    cases running
  | fired | active | quiet => nofun

theorem Followed.awaited (h : s.Followed result active next s') (nobody : s.pending = ∅)
    (running : s'.done = false) (somebody : s'.pending ≠ ∅) : s'.hasImmediateCycle = true := by
  cases h with
  | stopped hdone =>
    rw [hdone] at running
    cases running
  | fired => exact scheduleImmediate_hasImmediateCycle _ false
  | active => exact renewImmediate_hasImmediateCycle _ true
  | quiet =>
    obtain ⟨timers, heartbeat, stats, hframe⟩ := s.armHeartbeat_frame
    rw [hframe] at somebody
    exact absurd nobody somebody

end Followed

/-- The state from which a cycle decides what follows. -/
def swept (s : Scheduler σ) (all : Bool) : Scheduler σ :=
  (s.sweepActors all).1.countFiring (s.sweepActors all).2.total.didFire

theorem swept_frame (s : Scheduler σ) (all : Bool) :
    ∃ registry stats, s.swept all = { s.takePending.2 with registry, stats } := by
  obtain ⟨registry, fireErrors, hfired⟩ := s.sweepActors_frame all
  obtain ⟨firingCycles, hcounted⟩ :=
    (s.sweepActors all).1.countFiring_frame (s.sweepActors all).2.total.didFire
  refine ⟨registry, { s.takePending.2.stats with fireErrors, firingCycles }, hcounted.trans ?_⟩
  rw [hfired]

theorem swept_pending (s : Scheduler σ) (all : Bool) : (s.swept all).pending = ∅ := by
  obtain ⟨registry, stats, hswept⟩ := s.swept_frame all
  rw [hswept, s.takePending_taken.frame]
  rfl

theorem swept_unaddressed (s : Scheduler σ) (all : Bool) : (s.swept all).unaddressed = false := by
  obtain ⟨registry, stats, hswept⟩ := s.swept_frame all
  rw [hswept, s.takePending_taken.frame]
  rfl

theorem closeCycle_followed (s : Scheduler σ) (cycle : Nat) (all active : Bool) :
    (s.swept all).Followed (s.sweepActors all).2.total active (s.closeCycle cycle all active).2.next
      (s.closeCycle cycle all active).1 :=
  follow_followed _ _ _

theorem swept_registry (s : Scheduler σ) (all : Bool) :
    (s.swept all).registry = (s.sweepActors all).1.registry := by
  obtain ⟨firingCycles, hcounted⟩ :=
    (s.sweepActors all).1.countFiring_frame (s.sweepActors all).2.total.didFire
  rw [swept, hcounted]

theorem closeCycle_registry (s : Scheduler σ) (cycle : Nat) (all active : Bool) :
    (s.closeCycle cycle all active).1.registry = (s.sweepActors all).1.registry :=
  (s.closeCycle_followed cycle all active).registry.trans (s.swept_registry all)

theorem closeCycle_done (s : Scheduler σ) (cycle : Nat) (all active : Bool) :
    (s.closeCycle cycle all active).1.done = s.done := by
  obtain ⟨registry, stats, hswept⟩ := s.swept_frame all
  rw [(s.closeCycle_followed cycle all active).done, hswept, s.takePending_taken.frame]
  rfl

theorem loopOnce_value (s : Scheduler σ) (all : Bool) :
    (s.loopOnce all).value =
      (s.openCycle all).drain.value.closeCycle (s.beginCycle all).cycle all
        (s.beginCycle all).pollMonitor.1 := by
  let drained := (s.openCycle all).drain.value
  unfold closeCycle sweepActors scope
  rw [← drained.takePending_fst, ← drained.takePending_registry, ← drained.takePending_config]
  rfl

theorem loopOnce_touched (s : Scheduler σ) (all : Bool) :
    (s.loopOnce all).value.2.touched =
      s.registry.enabled.filter fun id => ((s.openCycle all).drain.value.scope all).all (·.contains id) := by
  have hregistry : (s.openCycle all).drain.value.registry = s.registry := (s.openCycle all).drain_registry
  rw [loopOnce_value, ← hregistry]
  exact fireEach_touched _ _ _ _

theorem loopOnce_touched_enabled (s : Scheduler σ) {all : Bool}
    (h : all = true ∨ s.config.restrictToTriggered = false) :
    (s.loopOnce all).value.2.touched = s.registry.enabled := by
  have hscope : (s.openCycle all).drain.value.scope all = none := by
    rw [scope, drain_config]
    change (if (!all && s.config.restrictToTriggered) = true then _ else _) = none
    rcases h with rfl | hconfig
    · rfl
    · rw [hconfig, Bool.and_false]
      rfl
  rw [loopOnce_touched, hscope]
  exact List.filter_eq_self.mpr fun _ _ => rfl

end ActorNet.Scheduler
