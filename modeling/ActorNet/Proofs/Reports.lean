import ActorNet.Proofs.Cycles
import ActorNet.Proofs.Selection
import ActorNet.Proofs.Wiring

set_option autoImplicit false

/-!
# Errors that a cycle reports

A cycle calls the hook for firing errors with the errors of its firings and with nothing else. It fires registered
actors only, so that none of these errors tells of an actor that is unknown.
-/
namespace ActorNet

variable {σ : Type}

namespace Registry

theorem mem_ids {r : Registry σ} {id : ActorId} : id ∈ r.ids ↔ r.contains id = true := by
  rw [ids, List.mem_map, contains, entry?, List.find?_isSome]
  simp only [decide_eq_true_eq]

theorem enabled_sublist (r : Registry σ) : r.enabled.Sublist r.ids := List.filter_sublist.map _

end Registry

def Entry.fireError? : Entry → Option FiringError
  | .hook _ (.fireError e) => some e
  | _ => none

namespace Logged

variable {α β : Type}

def fireErrors (x : Logged α) : List FiringError := x.journal.filterMap Entry.fireError?

@[simp] theorem fireErrors_pure (value : α) : (pure value : Logged α).fireErrors = [] := rfl

@[simp] theorem fireErrors_bind (x : Logged α) (f : α → Logged β) :
    (x >>= f).fireErrors = x.fireErrors ++ (f x.value).fireErrors := List.filterMap_append

@[simp] theorem fireErrors_note (event : Event) : (note event).fireErrors = [] := rfl

@[simp] theorem fireErrors_notes (events : List Event) : (notes events).fireErrors = [] := by
  refine List.filterMap_eq_nil_iff.mpr fun entry hentry => ?_
  obtain ⟨event, -, rfl⟩ := List.mem_map.mp hentry
  rfl

end Logged

theorem Actor.fire_fireErrors (actor : Actor σ) : actor.fire.fireErrors = [] := by
  unfold fire
  rw [Logged.fireErrors_bind, Logged.fireErrors_notes, List.nil_append]
  rcases (Action.select actor.ports actor.state actor.kind.actions).2 with _ | ⟨action, control⟩
  · rfl
  · dsimp only
    rcases actor.run action control with ⟨actor', (_ | production) | e | payload⟩ <;> rfl

def FiringError.Known (e : FiringError) : Prop := ∀ id, e ≠ .unknownActor id

theorem Actor.recover_known (actor : Actor σ) (failure : Failure σ) {e : FiringError}
    (h : (actor.recover failure).2 = .error e) : e.Known := by
  unfold recover at h
  split at h
  · cases h
    cases failure.cause <;> nofun
  · dsimp only at h
    split at h
    · cases h
    · split at h <;> cases h
      nofun
    · cases h
      nofun
    · cases h

theorem Actor.run_known (actor : Actor σ) (action : Action σ) (control : Option TokenKind) {e : FiringError}
    (h : (actor.run action control).2 = .error e) : e.Known := by
  unfold run at h
  dsimp only at h
  split at h
  · cases h
  · exact recover_known _ _ h

theorem Actor.perform_known (actor : Actor σ) (action : Action σ) (control : Option TokenKind) {e : FiringError}
    (h : (actor.perform action control).value.2 = .error e) : e.Known := by
  rcases hrun : actor.run action control with ⟨actor', (_ | production) | e' | payload⟩ <;>
    rw [perform, hrun] at h <;> cases h
  exact actor.run_known action control (by rw [hrun])

theorem Actor.fire_known (actor : Actor σ) {e : FiringError} (h : actor.fire.value.2 = .error e) : e.Known := by
  rw [fire_eq, Logged.value_bind] at h
  cases hchosen : actor.selected.2 with
  | none =>
    rw [hchosen] at h
    cases h
  | some chosen =>
    rw [hchosen] at h
    exact actor.perform_known chosen.1 chosen.2 h

theorem Registry.fireActor_fireErrors (r : Registry σ) (id : ActorId) : (r.fireActor id).fireErrors = [] := by
  unfold fireActor
  rcases r.actor? id with _ | actor
  · rfl
  · dsimp only
    rw [Logged.fireErrors_bind, actor.fire_fireErrors, List.nil_append]
    rcases actor.fire.value with ⟨actor', result | e | payload⟩
    · dsimp only
      split <;> rfl
    · rfl
    · rfl

theorem Registry.fireActor_known {r : Registry σ} {id : ActorId} (registered : r.contains id = true) {e : FiringError}
    (h : (r.fireActor id).value.2 = .error e) : e.Known := by
  obtain ⟨actor, hactor⟩ := contains_iff.mp registered
  rw [fireActor_value, firing, hactor, Option.map_some] at h
  cases houtcome : actor.fire.value.2 with
  | ok result =>
    rw [houtcome] at h
    dsimp only at h
    split at h <;> cases h
  | error e' =>
    rw [houtcome] at h
    cases h
    exact actor.fire_known houtcome
  | panic payload =>
    rw [houtcome] at h
    cases h

theorem Registry.Alike.contains {r r' : Registry σ} (h : r.Alike r') (id : ActorId) :
    r'.contains id = r.contains id := by
  have hregistered : ∀ r : Registry σ, r.contains id = (r.outline? id).isSome := by
    intro r
    rw [Registry.contains, outline?, actor?, Option.isSome_map, Option.isSome_map]
  rw [hregistered, hregistered, h.outline]

namespace Scheduler

theorem obey_fireErrors (s : Scheduler σ) (command : Command) : (s.obey command).fireErrors = [] := by
  cases command with
  | stop =>
    change s.stop.fireErrors = []
    unfold stop
    split <;> rfl
  | trigger delay targets =>
    have hannounced : (s.announce delay targets).fireErrors = [] := by
      unfold announce
      split <;> rfl
    change (s.trigger delay targets).fireErrors = []
    unfold trigger
    rw [Logged.fireErrors_bind, hannounced, List.nil_append]
    split
    · rfl
    · split
      · rfl
      · cases targets with
        | all => rfl
        | actors ids =>
          dsimp only
          unfold requestActors
          dsimp only
          split <;> rfl

theorem drain_fireErrors (s : Scheduler σ) : s.drain.fireErrors = [] := by
  suffices h : ∀ (commands : List Command) (s : Scheduler σ), (commands.foldlM obey s).fireErrors = [] from
    h s.inbox { s with inbox := [] }
  intro commands
  induction commands with
  | nil => exact fun _ => rfl
  | cons command commands ih =>
    intro s
    rw [List.foldlM_cons, Logged.fireErrors_bind, obey_fireErrors, ih, List.nil_append]

theorem fireOne_fireErrors (s : Scheduler σ) (sweep : Sweep) (id : ActorId) :
    (s.fireOne sweep id).fireErrors =
      match outcomeOf id (s.registry.fireActor id).value.2 with
      | .ok _ => []
      | .error e => [e] := by
  unfold fireOne
  rw [Logged.fireErrors_bind, Registry.fireActor_fireErrors, List.nil_append]
  dsimp only
  rcases outcomeOf id (s.registry.fireActor id).value.2 with e | result <;> rfl

theorem loopOnce_fireErrors (s : Scheduler σ) (all : Bool) :
    (s.loopOnce all).fireErrors =
      (fireEach ((s.openCycle all).drain.value.scope all) s.registry.enabled
        ((s.openCycle all).drain.value.takePending.2, {})).fireErrors := by
  have hregistry := (s.openCycle all).drain.value.takePending_registry.trans (s.openCycle all).drain_registry
  change _ = (fireEach _ (s.openCycle all).registry.enabled _).fireErrors
  rw [← hregistry, scope, ← takePending_fst, ← takePending_config]
  unfold loopOnce
  simp only [Logged.fireErrors_bind, Logged.fireErrors_note, Logged.fireErrors_pure, List.append_nil]
  change [] ++ ((s.openCycle all).drain.fireErrors ++ _) = _
  rw [drain_fireErrors]
  rfl

theorem fireOne_known {s : Scheduler σ} {id : ActorId} (registered : s.registry.contains id = true) (sweep : Sweep) :
    ∀ e ∈ (s.fireOne sweep id).fireErrors, e.Known := by
  have hfired := @Registry.fireActor_known _ _ _ registered
  intro e he
  rw [fireOne_fireErrors] at he
  cases houtcome : (s.registry.fireActor id).value.2 with
  | ok result =>
    rw [houtcome] at he
    cases he
  | error e' =>
    rw [houtcome] at he
    rw [List.mem_singleton.mp he]
    exact hfired houtcome
  | panic payload =>
    rw [houtcome] at he
    rw [List.mem_singleton.mp he]
    exact nofun

theorem fireEach_known (only : Option ActorSet) (ids : List ActorId) (state : Scheduler σ × Sweep)
    (registered : ∀ id ∈ ids, state.1.registry.contains id = true) :
    ∀ e ∈ (fireEach only ids state).fireErrors, e.Known := by
  induction ids generalizing state with
  | nil => exact fun _ he => absurd he List.not_mem_nil
  | cons id ids ih =>
    obtain ⟨s, sweep⟩ := state
    have hrest := fun other hother => registered other (List.mem_cons_of_mem id hother)
    intro e he
    rw [fireEach] at he
    split at he
    · rw [Logged.fireErrors_bind] at he
      rcases List.mem_append.mp he with hfirst | hlater
      · exact fireOne_known (registered id List.mem_cons_self) sweep e hfirst
      · refine ih _ (fun other hother => ?_) e hlater
        rw [fireOne_registry, (s.registry.fireActor_alike id).contains]
        exact hrest other hother
    · rw [Logged.fireErrors_bind, Logged.fireErrors_note, List.nil_append] at he
      exact ih (s, sweep) hrest e he

/-- No cycle reports that an actor is unknown. -/
theorem loopOnce_known (s : Scheduler σ) (all : Bool) : ∀ e ∈ (s.loopOnce all).fireErrors, e.Known := by
  have hregistry := (s.openCycle all).drain.value.takePending_registry.trans (s.openCycle all).drain_registry
  rw [loopOnce_fireErrors]
  refine fireEach_known _ _ _ fun id hid => ?_
  rw [hregistry]
  exact Registry.mem_ids.mp (s.registry.enabled_sublist.subset hid)

end Scheduler

end ActorNet
