import ActorNet.Proofs.Cycles

set_option autoImplicit false

/-!
# What only firings and journals look at

The registry, the count of failed firings, and whether triggers are traced may be changed in a scheduler. What it does
with its commands, its timers and its records goes the same way, and the change can as well be made afterwards.
-/
namespace ActorNet

variable {σ : Type}

structure Revision (σ : Type) where
  registry : Registry σ → Registry σ := id
  fireErrors : Nat → Nat := id
  traceTriggers : Bool → Bool := id

namespace Scheduler

def revised (s : Scheduler σ) (revision : Revision σ) : Scheduler σ := { s with
  registry := revision.registry s.registry
  config := { s.config with traceTriggers := revision.traceTriggers s.config.traceTriggers }
  stats := { s.stats with fireErrors := revision.fireErrors s.stats.fireErrors } }

variable (s : Scheduler σ) (revision : Revision σ)

theorem cancel_revised (timer : Option TimerId) :
    (s.revised revision).cancel timer = (s.cancel timer).revised revision := by
  cases timer <;> rfl

theorem dropImmediate_revised : (s.revised revision).dropImmediate = s.dropImmediate.revised revision := by
  unfold dropImmediate
  rw [cancel_revised]
  rfl

theorem renewImmediate_revised (all : Bool) :
    (s.revised revision).renewImmediate all = (s.renewImmediate all).revised revision := by
  unfold renewImmediate
  rw [dropImmediate_revised]
  rfl

theorem scheduleImmediate_revised (all : Bool) :
    (s.revised revision).scheduleImmediate all = (s.scheduleImmediate all).revised revision := by
  rw [scheduleImmediate_eq, scheduleImmediate_eq, renewImmediate_revised]
  exact (apply_ite (revised · revision) _ _ _).symm

theorem cancelHeartbeat_revised : (s.revised revision).cancelHeartbeat = s.cancelHeartbeat.revised revision := by
  unfold cancelHeartbeat
  rw [cancel_revised]
  rfl

theorem armHeartbeat_revised : (s.revised revision).armHeartbeat = s.armHeartbeat.revised revision := by
  rw [armHeartbeat_eq, armHeartbeat_eq, cancelHeartbeat_revised]
  rfl

theorem requestActors_revised (ids : Std.ExtTreeSet (Option ActorId) compare) :
    ((s.revised revision).requestActors ids).value = (s.requestActors ids).value.revised revision := by
  have hjoin : (s.revised revision).join ids = (s.join ids).revised revision := rfl
  have hmarker : ((s.join ids).revised revision).isMarkerOnly = (s.join ids).isMarkerOnly := rfl
  rw [requestActors_value, requestActors_value, hjoin, hmarker, scheduleImmediate_revised]
  split <;> rfl

theorem trigger_revised (delay : Duration) (targets : Targets) :
    ((s.revised revision).trigger delay targets).value = (s.trigger delay targets).value.revised revision := by
  have hdone : (s.revised revision).done = s.done := rfl
  unfold trigger
  rw [Logged.value_bind, Logged.value_bind, hdone]
  cases s.done with
  | true => rfl
  | false =>
    cases delay.isZero with
    | false => rfl
    | true =>
      cases targets with
      | all => exact s.scheduleImmediate_revised revision true
      | actors ids => exact s.requestActors_revised revision ids

theorem stop_revised : (s.revised revision).stop.value = s.stop.value.revised revision := by
  have hdone : (s.revised revision).done = s.done := rfl
  unfold stop
  rw [hdone]
  cases s.done <;> rfl

theorem obey_revised (command : Command) :
    ((s.revised revision).obey command).value = (s.obey command).value.revised revision := by
  cases command with
  | trigger delay targets => exact s.trigger_revised revision delay targets
  | stop => exact s.stop_revised revision

theorem drain_revised : (s.revised revision).drain.value = s.drain.value.revised revision := by
  have hfold : ∀ (commands : List Command) (s : Scheduler σ),
      (commands.foldlM obey (s.revised revision)).value = (commands.foldlM obey s).value.revised revision := by
    intro commands
    induction commands with
    | nil => exact fun _ => rfl
    | cons command commands ih =>
      intro s
      rw [List.foldlM_cons, List.foldlM_cons, Logged.value_bind, Logged.value_bind, obey_revised]
      exact ih _
  exact hfold s.inbox { s with inbox := [] }

theorem takePending_revised :
    (s.revised revision).takePending = (s.takePending.1, s.takePending.2.revised revision) := by
  have himmediate : (s.revised revision).hasImmediateCycle = s.hasImmediateCycle := rfl
  have hsweep : (s.revised revision).immediateSweep = s.immediateSweep := rfl
  refine Prod.ext_iff.mpr ⟨?_, ?_⟩
  · rw [takePending_fst, takePending_fst]
    rfl
  · rw [takePending_snd, takePending_snd, himmediate, hsweep]
    split
    · rfl
    · split
      · exact s.clear.dropImmediate_revised revision
      · rfl

theorem countFiring_revised (didFire : Bool) :
    (s.revised revision).countFiring didFire = (s.countFiring didFire).revised revision := by
  cases didFire <;> rfl

theorem follow_revised (result : FiringResult) (active : Bool) :
    (s.revised revision).follow result active =
      ((s.follow result active).1, (s.follow result active).2.revised revision) := by
  have hdone : (s.revised revision).done = s.done := rfl
  unfold follow
  rw [hdone, cancelHeartbeat_revised, armHeartbeat_revised, scheduleImmediate_revised]
  cases s.done with
  | true => rfl
  | false =>
    cases result.didFire with
    | true =>
      let gathered := s.cancelHeartbeat.gather result.affected
      exact congrArg (Prod.mk _) (gathered.scheduleImmediate_revised revision false)
    | false => cases active <;> rfl

end Scheduler

end ActorNet
