import ActorNet.Proofs.Volleys

set_option autoImplicit false

/-!
# Schedulers at rest

Nobody has anything to do, nobody asks for anything, and a single timer is pending: the heartbeat, or the full sweep
that it has asked for. One fact for each step that such a scheduler can take. The sweep fires every enabled actor and
changes nothing by that, so that it leaves nothing behind but the heartbeat.
-/
namespace ActorNet

variable {σ : Type}

namespace TimerQueue

variable {α : Type} {q q' : TimerQueue α} {now deadline : Instant} {id : TimerId} {payload : α}

structure Vacant (q : TimerQueue α) : Prop where
  sound : q.Sound
  pending : q.pending = ∅

structure Only (q : TimerQueue α) (deadline : Instant) (id : TimerId) (payload : α) : Prop where
  sound : q.Sound
  live : q.live = [(deadline, id)]
  pending : ∀ other kept, q.pending[other]? = some kept ↔ other = id ∧ kept = payload

theorem Vacant.live (h : q.Vacant) : q.live = [] := by
  simp [TimerQueue.live, h.pending]

theorem Vacant.cancel (h : q.Vacant) (id : TimerId) : (q.cancel id).2.Vacant where
  sound := h.sound.cancel id
  pending := by simp [cancel_pending, h.pending]

theorem Vacant.scheduleAt (h : q.Vacant) (deadline : Instant) (payload : α) :
    (q.scheduleAt deadline payload).2.Only deadline ⟨q.nextNumber⟩ payload where
  sound := h.sound.scheduleAt deadline payload
  live := by
    rw [live_scheduleAt h.sound, h.live]
    rfl
  pending other kept := by
    rw [scheduleAt_pending, h.pending, Std.ExtTreeMap.getElem?_insert]
    simp only [Std.LawfulEqOrd.compare_eq_iff_eq]
    split
    case isTrue hid => simp [hid, eq_comm]
    case isFalse hid => simp [Ne.symm hid]

namespace Only

variable (h : q.Only deadline id payload)

include h

theorem same (same : q.Same q') : q'.Only deadline id payload where
  sound := same.sound h.sound
  live := same.live.trans h.live
  pending := by
    rw [same.pending]
    exact h.pending

theorem payloads : q.payloads = [payload] := by
  have hkeys : (q.pending.toList.map Prod.fst).Nodup := by
    rw [Std.ExtTreeMap.map_fst_toList_eq_keys]
    exact Std.ExtTreeMap.nodup_keys
  have hentries : q.pending.toList.Perm [(id, payload)] := by
    refine (List.perm_ext_iff_of_nodup hkeys.of_map (List.nodup_singleton _)).mpr fun ⟨other, kept⟩ => ?_
    rw [Std.ExtTreeMap.mem_toList_iff_getElem?_eq_some, h.pending, List.mem_singleton, Prod.mk.injEq]
  rw [TimerQueue.payloads, List.perm_singleton.mp hentries]
  rfl

theorem nextDeadline : q.nextDeadline.1 = some deadline := by
  rw [nextDeadline_fst, h.live]
  rfl

theorem isPending : q.isPending id = true := by
  have hpending := (h.pending id payload).mpr ⟨rfl, rfl⟩
  exact Std.ExtTreeMap.contains_iff_mem.mpr (Std.ExtTreeMap.getElem?_eq_some_iff.mp hpending).1

theorem popDue_early (early : now < deadline) : ∃ timers, q.popDue now = (none, timers) ∧ q.Same timers := by
  rcases hpop : q.popDue now with ⟨_ | ⟨other, kept⟩, timers⟩
  · exact ⟨timers, rfl, same_popDue_none hpop⟩
  · obtain ⟨due, hdue, hlive⟩ := (h.sound.popDue_some hpop).live
    rw [h.live] at hlive
    obtain ⟨rfl, -⟩ := Prod.mk.inj (List.cons.inj hlive).1
    exact absurd hdue (Nat.not_le_of_lt early)

theorem popDue_due (due : deadline ≤ now) : ∃ timers, q.popDue now = (some (id, payload), timers) ∧ timers.Vacant := by
  rcases hpop : q.popDue now with ⟨_ | ⟨other, kept⟩, timers⟩
  · have hlater := h.sound.popDue_none hpop (deadline, id) (h.live ▸ List.mem_singleton_self _)
    exact absurd due (Nat.not_le_of_lt hlater)
  · have hexpires := h.sound.popDue_some hpop
    obtain ⟨rfl, rfl⟩ := (h.pending other kept).mp hexpires.payload
    refine ⟨timers, rfl, hexpires.sound, Std.ExtTreeMap.eq_empty_iff_forall_not_mem.mpr fun third hthird => ?_⟩
    have hleft := hexpires.pending_iff.mp (Std.ExtTreeMap.getElem?_eq_some_getElem hthird)
    exact hleft.1 ((h.pending third _).mp hleft.2).1

end Only

theorem Sound.only (sound : q.Sound)
    (pending : ∀ other kept, q.pending[other]? = some kept ↔ other = id ∧ kept = payload) :
    ∃ deadline, q.Only deadline id payload := by
  have hpending := (pending id payload).mpr ⟨rfl, rfl⟩
  obtain ⟨deadline, hslot⟩ := sound.exists_live (Std.ExtTreeMap.getElem?_eq_some_iff.mp hpending).1
  have hdistinct : (q.live.map Prod.snd).Nodup := sound.distinct.sublist (List.filter_sublist.map _)
  have hlive : q.live.Perm [(deadline, id)] := by
    refine (List.perm_ext_iff_of_nodup hdistinct.of_map (List.nodup_singleton _)).mpr fun slot => ?_
    rw [List.mem_singleton]
    constructor
    · intro hmem
      have hother := Std.ExtTreeMap.getElem?_eq_some_getElem (mem_live.mp hmem).2
      exact List.inj_on_of_nodup_map hdistinct hmem hslot ((pending _ _).mp hother).1
    · rintro rfl
      exact hslot
  exact ⟨deadline, sound, List.perm_singleton.mp hlive, pending⟩

end TimerQueue

theorem FiringResult.collect_idle {results : List FiringResult} (idle : ∀ result ∈ results, result = .idle) :
    collect results = .idle := by
  induction results with
  | nil => rfl
  | cons result results ih =>
    obtain ⟨rfl, hrest⟩ := List.forall_mem_cons.mp idle
    rw [collect_cons, idle_merge, ih hrest]

namespace Registry

variable {r : Registry σ}

theorem fireActor_idle {id : ActorId} (known : id ∈ r.ids) (idle : r.eligible id = false) :
    (r.fireActor id).value.2 = .ok .idle := by
  obtain ⟨e, hentry⟩ := Option.isSome_iff_exists.mp (mem_ids.mp known)
  have hactor : r.actor? id = some e.actor := by
    rw [actor?, hentry]
    rfl
  have hrest : e.actor.AtRest := by
    rw [eligible, hactor] at idle
    exact Option.isNone_iff_eq_none.mp (by simpa using idle)
  have hidle : ∀ result, e.actor.fire.value.2 = .ok result → result = .idle := by
    rw [hrest.fire]
    exact fun _ hresult => (Outcome.ok.inj hresult).symm
  rw [fireActor_unfired hactor hidle, hrest.fire]

/-- A volley in which each actor has nothing to do when its turn comes changes nothing. -/
theorem fireAll_idle (distinct : r.ids.Nodup) {ids : List ActorId}
    (idle : ∀ f ∈ r.volley ids, f.before.eligible f.id = false) :
    r.fireAll ids = r ∧ ∀ id ∈ ids, r.eligible id = false := by
  induction ids with
  | nil => exact ⟨rfl, fun _ hid => absurd hid List.not_mem_nil⟩
  | cons id ids ih =>
    obtain ⟨hfirst, hrest⟩ := List.forall_mem_cons.mp idle
    rw [fireActor_ineligible distinct hfirst] at hrest
    rw [fireAll_cons, fireActor_ineligible distinct hfirst]
    exact (ih hrest).imp_right fun hothers => List.forall_mem_cons.mpr ⟨hfirst, hothers⟩

theorem volley_idle (distinct : r.ids.Nodup) {ids : List ActorId} (idle : ∀ id ∈ ids, r.eligible id = false) :
    r.volley ids = ids.map (Firing.mk r) := by
  induction ids with
  | nil => rfl
  | cons id ids ih =>
    obtain ⟨hfirst, hrest⟩ := List.forall_mem_cons.mp idle
    rw [volley, fireActor_ineligible distinct hfirst, ih hrest]
    rfl

end Registry

/-- A full sweep of some actors in which nothing happens. -/
structure CycleReport.Uneventful (report : CycleReport) (actors : List ActorId) : Prop where
  all : report.all = true
  touched : report.touched = actors
  failed : report.failed = []
  result : report.result = .idle
  monitorActivity : report.monitorActivity = false
  next : report.next = .heartbeat

namespace Scheduler

variable {s s' : Scheduler σ}

/-- Only the clock, the timers with their records, and the counts have gone on. The registry, the pending set and the
inbox are as they were. -/
structure Undisturbed (s s' : Scheduler σ) : Prop where
  eq : s' = { s with
    now := s'.now, timers := s'.timers, immediate := s'.immediate, immediateSweep := s'.immediateSweep,
    heartbeat := s'.heartbeat, polls := s'.polls, cycle := s'.cycle, stats := s'.stats }
  polls : s.polls ≤ s'.polls

theorem Undisturbed.refl (s : Scheduler σ) : s.Undisturbed s := ⟨rfl, Nat.le_refl _⟩

theorem Undisturbed.trans {s'' : Scheduler σ} (h : s.Undisturbed s') (h' : s'.Undisturbed s'') : s.Undisturbed s'' where
  eq := by
    rw [h'.eq, h.eq]
  polls := h.polls.trans h'.polls

/-- Nobody has anything to do, and nobody asks for anything. -/
structure Resting (s : Scheduler σ) : Prop where
  running : s.done = false
  going : s.halted = false
  inbox : s.inbox = []
  nobody : s.pending = ∅
  addressed : s.unaddressed = false
  silent : ∀ polls, s.polls ≤ polls → s.monitor polls = {}
  distinct : s.registry.ids.Nodup
  idle : ∀ id ∈ s.registry.enabled, s.registry.eligible id = false

theorem Resting.undisturbed (h : s.Resting) (undisturbed : s.Undisturbed s') : s'.Resting := by
  have hpolls := undisturbed.polls
  rw [undisturbed.eq] at hpolls ⊢
  exact { h with silent := fun polls hlater => h.silent polls (hpolls.trans hlater) }

def Armed (s : Scheduler σ) (deadline : Instant) : Prop :=
  ∃ id, s.timers.Only deadline id .heartbeat ∧ s.heartbeat = some id

def Asked (s : Scheduler σ) : Prop :=
  ∃ deadline id, s.timers.Only deadline id (.cycle true) ∧ deadline ≤ s.now

theorem dropImmediate_vacant (vacant : s.timers.Vacant) : s.dropImmediate.timers.Vacant := by
  unfold dropImmediate cancel
  cases s.immediate with
  | none => exact vacant
  | some id => exact vacant.cancel id

theorem cancelHeartbeat_vacant (vacant : s.timers.Vacant) : s.cancelHeartbeat.timers.Vacant := by
  unfold cancelHeartbeat cancel
  cases s.heartbeat with
  | none => exact vacant
  | some id => exact vacant.cancel id

theorem renewImmediate_asked (vacant : s.timers.Vacant) : (s.renewImmediate true).Asked := by
  have honly := (dropImmediate_vacant vacant).scheduleAt (s.dropImmediate.now.after .zero) (.cycle true)
  refine ⟨_, _, honly, ?_⟩
  rw [Instant.after_zero]
  exact Nat.le_refl s.dropImmediate.now.nanos

theorem armHeartbeat_armed (vacant : s.timers.Vacant) : s.armHeartbeat.Armed (s.now.after s.config.heartbeat) := by
  have honly := (cancelHeartbeat_vacant vacant).scheduleAt (s.now.after s.config.heartbeat) .heartbeat
  refine ⟨_, ?_, rfl⟩
  obtain ⟨timers, hframe⟩ := s.cancelHeartbeat_frame
  rw [armHeartbeat_eq]
  rw [hframe] at honly ⊢
  exact honly

theorem drain_empty (empty : s.inbox = []) : s.drain.value = s := by
  unfold drain
  rw [empty]
  change ({ s with inbox := [] } : Scheduler σ) = s
  rw [← empty]

theorem trigger_sweep (running : s.done = false) : (s.trigger .zero .all).value = s.renewImmediate true := by
  have hobeyed := s.trigger_obeyed .zero .all
  generalize (s.trigger .zero .all).value = after at hobeyed
  cases hobeyed with
  | ignored _ _ stopped =>
    rw [stopped] at running
    cases running
  | delayed _ _ _ later => cases later
  | sweep => rfl

theorem follow_quiet (running : s.done = false) {result : FiringResult} (idle : result.didFire = false) :
    s.follow result false = (.heartbeat, s.armHeartbeat) := by
  unfold follow
  rw [running, idle]
  rfl

namespace Resting

variable (rest : s.Resting)

include rest

theorem step_popDue {due : Option (TimerId × Wakeup)} {timers : TimerQueue Wakeup}
    (pop : s.timers.popDue s.now = (due, timers)) :
    s.step.value = due.elim ({ s with timers }, .nothing) fun (_, wakeup) =>
      (({ s with timers } : Scheduler σ).wake wakeup).value := by
  have hgoing : ¬s.halted = true := by simp [rest.going]
  rw [step_value, drain_empty rest.inbox, serve, if_neg hgoing, pop]
  cases due <;> rfl

theorem step_early {deadline : Instant} (armed : s.Armed deadline) (early : s.now < deadline) :
    ∃ timers, s.step.value = ({ s with timers }, .nothing) ∧ s.timers.Same timers := by
  obtain ⟨id, honly, -⟩ := armed
  obtain ⟨timers, hpop, hsame⟩ := honly.popDue_early early
  exact ⟨timers, rest.step_popDue hpop, hsame⟩

theorem step_due {deadline : Instant} (armed : s.Armed deadline) (due : deadline ≤ s.now) :
    ∃ timers, s.step.value = ((s.expire timers .heartbeat).renewImmediate true, .heartbeat) ∧ timers.Vacant := by
  obtain ⟨id, honly, -⟩ := armed
  obtain ⟨timers, hpop, hvacant⟩ := honly.popDue_due due
  refine ⟨timers, (rest.step_popDue hpop).trans ?_, hvacant⟩
  rw [← trigger_sweep (s := s.expire timers .heartbeat) rest.running]
  rfl

theorem step_asked (asked : s.Asked) :
    ∃ timers, s.step.value.1 = (({ s with timers } : Scheduler σ).loopOnce true).value.1 ∧
      s.step.value.2 = .cycle (({ s with timers } : Scheduler σ).loopOnce true).value.2 ∧ timers.Vacant := by
  obtain ⟨deadline, id, honly, hdue⟩ := asked
  obtain ⟨timers, hpop, hvacant⟩ := honly.popDue_due hdue
  have hstep := rest.step_popDue hpop
  exact ⟨timers, congrArg Prod.fst hstep, congrArg Prod.snd hstep, hvacant⟩

theorem sweepActors_idle :
    s.swept true = s.takePending.2 ∧
      (s.sweepActors true).2 = { touched := s.registry.enabled, total := .idle, failed := [] } := by
  have hdue : s.due true = s.registry.enabled := List.filter_eq_self.mpr fun _ _ => rfl
  -- A firing without an eligible action leaves the registry as it was, so that each of them starts from `s.registry`.
  have hvolley := s.registry.volley_idle rest.distinct rest.idle
  have hidle : ∀ f ∈ s.registry.volley s.registry.enabled, f.outcome = .ok .idle ∧ f.before.eligible f.id = false := by
    intro f hf
    rw [hvolley] at hf
    obtain ⟨id, hid, rfl⟩ := List.mem_map.mp hf
    exact ⟨Registry.fireActor_idle (s.registry.enabled_sublist.mem hid) (rest.idle id hid), rest.idle id hid⟩
  have hregistry := (Registry.fireAll_idle rest.distinct fun f hf => (hidle f hf).2).1
  have hfailing : s.registry.failing s.registry.enabled = [] := by
    rw [Registry.failing, List.map_eq_nil_iff, List.filter_eq_nil_iff]
    intro f hf
    rw [(hidle f hf).1]
    exact Bool.noConfusion
  have htotal : FiringResult.collect (s.registry.results s.registry.enabled) = .idle := by
    refine FiringResult.collect_idle fun result hresult => ?_
    obtain ⟨f, hf, hok⟩ := List.mem_filterMap.mp hresult
    rw [Firing.result?_eq_some, (hidle f hf).1] at hok
    exact (Outcome.ok.inj hok).symm
  have hsweep := (s.sweepActors_volley true).2
  have hstate := s.sweepActors_state true
  rw [hdue, htotal, hfailing] at hsweep
  rw [hdue, hregistry, hfailing] at hstate
  refine ⟨?_, hsweep⟩
  rw [swept, hsweep, hstate, ← s.takePending_registry, ← s.takePending_stats]
  rfl

theorem clear_idle : s.clear = s := by
  unfold clear
  rw [← rest.nobody, ← rest.addressed]

theorem closeCycle_idle (vacant : s.timers.Vacant) (cycle : Nat) :
    (s.closeCycle cycle true false).1 = ({ s with immediate := none } : Scheduler σ).armHeartbeat ∧
      (s.closeCycle cycle true false).2.Uneventful s.registry.enabled := by
  have hnone : s.hasImmediateCycle = false := by
    refine eq_false_of_ne_true fun hhas => ?_
    obtain ⟨id, -, hmem⟩ := s.hasImmediateCycle_iff.mp hhas
    rw [vacant.pending] at hmem
    exact Std.ExtTreeMap.not_mem_empty hmem
  obtain ⟨hswept, hsweep⟩ := rest.sweepActors_idle
  have htaken : s.swept true = { s with immediate := none } := by
    rw [hswept, takePending_snd, hnone, rest.clear_idle]
    rfl
  have hidle : (s.sweepActors true).2.total.didFire = false := by
    rw [hsweep]
    rfl
  have hfollow : (s.swept true).follow (s.sweepActors true).2.total false = (.heartbeat, (s.swept true).armHeartbeat) :=
    follow_quiet (by rw [htaken]; exact rest.running) hidle
  constructor
  · rw [← htaken]
    exact congrArg Prod.snd hfollow
  · exact ⟨rfl, congrArg Sweep.touched hsweep, congrArg Sweep.failed hsweep, congrArg Sweep.total hsweep, rfl,
      congrArg Prod.fst hfollow⟩

theorem ready_idle (all : Bool) :
    s.ready all = { s.beginCycle all with polls := s.polls + 1 } ∧ (s.beginCycle all).pollMonitor.1 = false := by
  have hpoll := rest.silent s.polls (Nat.le_refl _)
  have hopened : s.openCycle all = { s.beginCycle all with polls := s.polls + 1 } := by
    change { s.beginCycle all with polls := s.polls + 1, inbox := s.inbox ++ (s.monitor s.polls).send } = _
    rw [hpoll]
    exact congrArg (fun inbox => { s.beginCycle all with polls := s.polls + 1, inbox }) (List.append_nil s.inbox)
  refine ⟨?_, congrArg Poll.active hpoll⟩
  rw [← hopened]
  apply drain_empty
  rw [hopened]
  exact rest.inbox

/-- A full sweep leaves nothing behind but the heartbeat. -/
theorem loopOnce_idle (vacant : s.timers.Vacant) :
    s.Undisturbed (s.loopOnce true).value.1 ∧ (s.loopOnce true).value.1.now = s.now ∧
      (s.loopOnce true).value.1.Armed (s.now.after s.config.heartbeat) ∧
        (s.loopOnce true).value.2.Uneventful s.registry.enabled := by
  obtain ⟨hready, hactive⟩ := rest.ready_idle true
  have hsame : s.Undisturbed { s.beginCycle true with polls := s.polls + 1 } := ⟨rfl, Nat.le_succ _⟩
  obtain ⟨hafter, hreport⟩ := (rest.undisturbed hsame).closeCycle_idle vacant (s.beginCycle true).cycle
  rw [loopOnce_ready, hready, hactive, hafter]
  obtain ⟨timers, heartbeat, stats, hframe⟩ :=
    armHeartbeat_frame { s.beginCycle true with polls := s.polls + 1, immediate := none }
  refine ⟨?_, ?_, armHeartbeat_armed vacant, hreport⟩
  · rw [hframe]
    exact ⟨rfl, Nat.le_succ _⟩
  · rw [hframe]
    rfl

end Resting

end Scheduler

end ActorNet
