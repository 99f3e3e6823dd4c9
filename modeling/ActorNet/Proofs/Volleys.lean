import ActorNet.Proofs.Confluence
import ActorNet.Proofs.Isolation
import ActorNet.Proofs.Outcomes
import ActorNet.Proofs.Reports
import Mathlib.Logic.Function.Iterate

set_option autoImplicit false

/-!
# Volleys

A volley fires actors one after the other, each in the registry that the one before has left. What a sweep reports is
read off the outcomes of a volley.
-/
namespace ActorNet

variable {σ : Type}

structure Firing (σ : Type) where
  before : Registry σ
  id : ActorId

def Firing.outcome (f : Firing σ) : Outcome FiringError FiringResult := (f.before.fireActor f.id).value.2

def Firing.result? (f : Firing σ) : Option FiringResult :=
  match f.outcome with
  | .ok result => some result
  | .error _ | .panic _ => none

theorem Firing.result?_eq_some {f : Firing σ} {result : FiringResult} :
    f.result? = some result ↔ f.outcome = .ok result := by
  unfold Firing.result?
  cases f.outcome <;> simp

namespace Registry

def volley : Registry σ → List ActorId → List (Firing σ)
  | _, [] => []
  | r, id :: ids => ⟨r, id⟩ :: volley (r.fireActor id).value.1 ids

theorem volley_ids (r : Registry σ) (ids : List ActorId) : (r.volley ids).map Firing.id = ids := by
  induction ids generalizing r with
  | nil => rfl
  | cons id ids ih => rw [volley, List.map_cons, ih]

theorem fireActor_distinct {r : Registry σ} (distinct : r.ids.Nodup) (id : ActorId) :
    (r.fireActor id).value.1.ids.Nodup := by
  rw [ids_fireActor]
  exact distinct

theorem mem_volley_wired {r : Registry σ} (wired : r.Wired) (distinct : r.ids.Nodup) {ids : List ActorId}
    {f : Firing σ} (h : f ∈ r.volley ids) : f.before.Wired ∧ f.before.ids.Nodup ∧ f.id ∈ ids := by
  induction ids generalizing r with
  | nil => cases h
  | cons id ids ih =>
    rcases List.mem_cons.mp h with rfl | hrest
    · exact ⟨wired, distinct, List.mem_cons_self⟩
    · obtain ⟨hwired, hdistinct, hmem⟩ :=
        ih (wired.alike (r.fireActor_alike id)) (fireActor_distinct distinct id) hrest
      exact ⟨hwired, hdistinct, List.mem_cons_of_mem id hmem⟩

def results (r : Registry σ) (ids : List ActorId) : List FiringResult := (r.volley ids).filterMap Firing.result?

def failing (r : Registry σ) (ids : List ActorId) : List ActorId :=
  ((r.volley ids).filter (·.outcome.isFault)).map Firing.id

theorem failing_cons (r : Registry σ) (id : ActorId) (ids : List ActorId) :
    r.failing (id :: ids) =
      (if (r.fireActor id).value.2.isFault then [id] else []) ++ (r.fireActor id).value.1.failing ids := by
  unfold failing
  rw [volley, List.filter_cons]
  change (if (r.fireActor id).value.2.isFault = true then _ else _ : List (Firing σ)).map Firing.id = _
  split <;> rfl

end Registry

namespace Sweep

def through (sweep : Sweep) (firings : List (Firing σ)) : Sweep :=
  firings.foldl (fun sweep f => sweep.record f.id f.outcome) sweep

theorem through_eq (sweep : Sweep) (firings : List (Firing σ)) :
    sweep.through firings =
      { total := (firings.filterMap Firing.result?).foldl .merge sweep.total
        touched := sweep.touched ++ firings.map Firing.id
        failed := sweep.failed ++ (firings.filter (·.outcome.isFault)).map Firing.id } := by
  induction firings generalizing sweep with
  | nil => simp [through]
  | cons f firings ih =>
    change (sweep.record f.id f.outcome).through firings = _
    rw [ih]
    cases houtcome : f.outcome with
    | ok result => simp [record, houtcome, Firing.result?, Outcome.isFault]
    | error | panic => simp [record, houtcome, Firing.result?, Outcome.isFault]

end Sweep

namespace Scheduler

/-- Those that come up and are not passed over are fired, and nobody else. -/
theorem fireEach_volley (only : Option ActorSet) (ids : List ActorId) (s : Scheduler σ) (sweep : Sweep) :
    (fireEach only ids (s, sweep)).value.1.registry =
        s.registry.fireAll (ids.filter fun id => only.all (·.contains id)) ∧
      (fireEach only ids (s, sweep)).value.2 =
        sweep.through (s.registry.volley (ids.filter fun id => only.all (·.contains id))) := by
  induction ids generalizing s sweep with
  | nil => exact ⟨rfl, rfl⟩
  | cons id ids ih =>
    rw [fireEach]
    split
    case isTrue hdue =>
      obtain ⟨hregistry, hsweep⟩ := ih (s.fireOne sweep id).value.1 (s.fireOne sweep id).value.2
      rw [fireOne_registry] at hregistry hsweep
      rw [Logged.value_bind, List.filter_cons, if_pos hdue, hregistry, hsweep, fireOne_sweep]
      exact ⟨rfl, rfl⟩
    case isFalse hpassed =>
      rw [List.filter_cons, if_neg hpassed]
      exact ih s sweep

theorem fireOne_count (s : Scheduler σ) (sweep : Sweep) (id : ActorId) :
    (s.fireOne sweep id).value.1.stats.fireErrors =
      if (s.registry.fireActor id).value.2.isFault then countUp s.stats.fireErrors else s.stats.fireErrors := by
  unfold fireOne
  rw [Logged.value_bind]
  rcases (s.registry.fireActor id).value with ⟨registry, outcome⟩
  cases outcome <;> rfl

theorem fireEach_count (only : Option ActorSet) (ids : List ActorId) (s : Scheduler σ) (sweep : Sweep) :
    (fireEach only ids (s, sweep)).value.1.stats.fireErrors =
      countUp^[(s.registry.failing (ids.filter fun id => only.all (·.contains id))).length] s.stats.fireErrors := by
  induction ids generalizing s sweep with
  | nil => rfl
  | cons id ids ih =>
    rw [fireEach]
    split
    case isTrue hdue =>
      have hrest := ih (s.fireOne sweep id).value.1 (s.fireOne sweep id).value.2
      rw [fireOne_registry, fireOne_count] at hrest
      rw [Logged.value_bind, List.filter_cons, if_pos hdue, hrest, Registry.failing_cons]
      split <;> rfl
    case isFalse hpassed =>
      rw [List.filter_cons, if_neg hpassed]
      exact ih s sweep

def due (s : Scheduler σ) (all : Bool) : List ActorId :=
  s.registry.enabled.filter fun id => (s.scope all).all (·.contains id)

theorem sweepActors_volley (s : Scheduler σ) (all : Bool) :
    (s.sweepActors all).1.registry = s.registry.fireAll (s.due all) ∧
      (s.sweepActors all).2 =
        { total := .collect (s.registry.results (s.due all))
          touched := s.due all
          failed := s.registry.failing (s.due all) } := by
  have h := fireEach_volley (s.scope all) s.registry.enabled s.takePending.2 {}
  rw [s.takePending_registry, Sweep.through_eq, Registry.volley_ids] at h
  exact h

theorem takePending_stats (s : Scheduler σ) : s.takePending.2.stats = s.stats := by
  rw [s.takePending_taken.frame]
  rfl

theorem sweepActors_state (s : Scheduler σ) (all : Bool) :
    (s.sweepActors all).1 =
      s.takePending.2.recast (s.registry.fireAll (s.due all))
        (countUp^[(s.registry.failing (s.due all)).length] s.stats.fireErrors) := by
  have hstate := fireEach_recast (s.scope all) s.registry.enabled s.takePending.2 {}
  have hcount := fireEach_count (s.scope all) s.registry.enabled s.takePending.2 {}
  have hregistry := (s.sweepActors_volley all).1
  rw [s.takePending_registry, s.takePending_stats] at hcount
  refine hstate.trans ?_
  rw [hcount]
  exact congrArg (s.takePending.2.recast · _) hregistry

theorem closeCycle_volley (s : Scheduler σ) (cycle : Nat) (all active : Bool) :
    (s.closeCycle cycle all active).2.touched = s.due all ∧
      (s.closeCycle cycle all active).2.failed = s.registry.failing (s.due all) ∧
      (s.closeCycle cycle all active).2.result = .collect (s.registry.results (s.due all)) := by
  obtain ⟨-, hsweep⟩ := s.sweepActors_volley all
  exact ⟨congrArg Sweep.touched hsweep, congrArg Sweep.failed hsweep, congrArg Sweep.total hsweep⟩

theorem due_sublist (s : Scheduler σ) (all : Bool) : (s.due all).Sublist s.registry.ids :=
  List.filter_sublist.trans s.registry.enabled_sublist

end Scheduler

end ActorNet
