import ActorNet.Proofs.Wiring

set_option autoImplicit false

/-!
# Which actors have something to do

An actor at rest selects no action. Whether it is at rest depends on its fields and on what waits in its
inputs, so firing an actor disturbs only that actor and those that it reaches, and these are what its result
calls affected. A firing that affects nobody found the actor at rest, or failed, or was absorbed.
-/
namespace ActorNet

variable {σ : Type}

namespace Action

theorem standing_congr {action : Action σ} {ports ports' : Ports}
    (same : ∀ name ∈ action.condition.inputs, ports'.peek? name = ports.peek? name) (state : σ) :
    action.standing ports' state = action.standing ports state := by
  have hheads : action.condition.peek? ports' = action.condition.peek? ports := by
    unfold Condition.peek?
    generalize action.condition.inputs = names at same
    induction names with
    | nil => rfl
    | cons name names ih =>
      rw [List.mapM_cons, List.mapM_cons, same name List.mem_cons_self,
        ih fun other hother => same other (List.mem_cons_of_mem _ hother)]
  unfold standing
  rw [hheads]

theorem select_congr {actions : List (Action σ)} {ports ports' : Ports}
    (same : ∀ action ∈ actions, ∀ name ∈ action.condition.inputs, ports'.peek? name = ports.peek? name)
    (state : σ) : select ports' state actions = select ports state actions := by
  induction actions with
  | nil => rfl
  | cons action actions ih =>
    rw [select, select, standing_congr (same action List.mem_cons_self),
      ih fun other hother => same other (List.mem_cons_of_mem _ hother)]

end Action

namespace Actor

variable {actor actor' : Actor σ} {outcome : Outcome FiringError FiringResult}

def AtRest (actor : Actor σ) : Prop := actor.chosen = none

theorem AtRest.fire (rest : actor.AtRest) : actor.fire.value = (actor, .ok .idle) := by
  rcases hvalue : actor.fire.value with ⟨actor', outcome⟩
  have hfired := actor.fire_fired
  rw [hvalue] at hfired
  cases hfired with
  | idle => rfl
  | produced action control production state h
  | absorbed action control state h
  | failed action control state e h
  | panicked action control state payload h =>
    rw [AtRest, h] at rest
    cases rest

theorem Fits.chosen_setQueue (fits : actor.Fits) {name : String} {port : Port}
    (hport : actor.ports[name]? = some port) (output : port.direction = .output) (queue : List Token) :
    ({ actor with ports := actor.ports.setQueue name queue } : Actor σ).chosen = actor.chosen := by
  refine congrArg Prod.snd (Action.select_congr (fun action haction other hother => ?_) actor.state)
  obtain ⟨-, hinputs, -⟩ := actor.kind.valid.2.2.2 action haction
  -- An action looks at inputs only, so the port that changes is none that it looks at.
  have hne : name ≠ other := by
    rintro rfl
    rw [fits.input (hinputs name hother) hport] at output
    cases output
  unfold Ports.peek?
  rw [Ports.setQueue_getElem?]
  cases actor.ports[other]? <;> simp [hne]

/-- A firing would select an action, and then fail or be absorbed. -/
def balks (actor : Actor σ) : Bool :=
  match actor.fire.value.2 with
  | .ok result => actor.chosen.isSome && !result.didFire
  | .error _ | .panic _ => true

end Actor

def affectedBy : Outcome FiringError FiringResult → ActorSet
  | .ok result => result.affected
  | .error _ | .panic _ => ∅

theorem affectedBy_addAffected {result : FiringResult} {ids : List ActorId} {id : ActorId} :
    id ∈ affectedBy (.ok (result.addAffected ids)) ↔ id ∈ result.affected ∨ id ∈ ids := by
  simp [affectedBy, FiringResult.addAffected, Std.ExtTreeSet.mem_insertMany_list]

theorem Actor.fire_cases (actor : Actor σ) :
    (∃ result, actor.fire.value.2 = .ok result ∧ result.didFire = true ∧ actor.id ∈ result.affected) ∨
      (∀ result, actor.fire.value.2 = .ok result → result = .idle) ∧ (actor.balks = true ∨ actor.AtRest) := by
  have hfired := actor.fire_fired
  rcases hvalue : actor.fire.value with ⟨actor', outcome⟩
  rw [hvalue] at hfired
  cases hfired with
  | idle h => exact .inr ⟨fun result hresult => (Outcome.ok.inj hresult).symm, .inr h⟩
  | produced action control production state h =>
    refine .inl ⟨_, rfl, rfl, ?_⟩
    simp [emit, FiringResult.fired]
  | absorbed action control state h =>
    refine .inr ⟨fun result hresult => (Outcome.ok.inj hresult).symm, .inl ?_⟩
    rw [balks, hvalue, h]
    rfl
  | failed action control state e h | panicked action control state payload h =>
    refine .inr ⟨nofun, .inl ?_⟩
    rw [balks, hvalue]

namespace Registry

theorem entry?_modify_of_ne (r : Registry σ) {id other : ActorId} {f : Entrant σ → Entrant σ}
    (named : ∀ e, e.actor.id = id → (f e).actor.id = id) (hne : other ≠ id) :
    entry? (r.modify id f) other = r.entry? other := by
  rw [r.entry?_modify named]
  simp [hne]

theorem entry?_modifyPorts_of_ne (r : Registry σ) {id other : ActorId} (f : Ports → Ports) (hne : other ≠ id) :
    entry? (r.modifyPorts id f) other = r.entry? other :=
  r.entry?_modify_of_ne (fun _ h => h) hne

theorem entry?_setActor (r : Registry σ) {id : ActorId} {actor : Actor σ} (named : actor.id = id)
    (other : ActorId) :
    entry? (r.setActor id actor) other =
      (r.entry? other).map fun e => if other = id then { e with actor } else e :=
  r.entry?_modify (fun _ _ => named) other

theorem send_unreached (tokens : List Token) (targets : List PortAddr) (r : Registry σ) {id : ActorId}
    (h : id ∉ (send tokens targets r).2) : entry? (send tokens targets r).1 id = r.entry? id := by
  induction targets generalizing r with
  | nil => rfl
  | cons target targets ih =>
    rw [send] at h ⊢
    split at h
    · exact ih r h
    · obtain ⟨hne, hrest⟩ := not_or.mp (mt List.mem_cons.mpr h)
      apply (ih _ hrest).trans
      exact r.entry?_modifyPorts_of_ne _ hne

theorem sendEach_unreached (source : ActorId) (outgoing : List (String × List Token)) (r : Registry σ)
    (reached : List ActorId) {id : ActorId} (h : id ∉ (sendEach source outgoing (r, reached)).2) :
    id ∉ reached ∧ entry? (sendEach source outgoing (r, reached)).1 id = r.entry? id := by
  induction outgoing generalizing r reached with
  | nil => exact ⟨h, rfl⟩
  | cons head outgoing ih =>
    rw [sendEach, List.foldl_cons] at h
    obtain ⟨hreached, hentry⟩ := ih _ _ h
    obtain ⟨hbefore, hmore⟩ := not_or.mp (mt List.mem_append.mpr hreached)
    refine ⟨hbefore, ?_⟩
    rw [sendEach, List.foldl_cons]
    exact hentry.trans (send_unreached _ _ r hmore)

theorem deliver_unreached (r : Registry σ) {source id : ActorId} (hne : id ≠ source)
    (h : id ∉ (r.deliver source).2) : entry? (r.deliver source).1 id = r.entry? id := by
  rw [deliver_eq] at h ⊢
  apply (sendEach_unreached _ _ _ _ h).2.trans
  exact r.entry?_modifyPorts_of_ne _ hne

theorem fireActor_unknown {r : Registry σ} {source : ActorId} (h : r.actor? source = none) :
    (r.fireActor source).value = (r, .error (.unknownActor source)) := by
  rw [fireActor_value, firing, h]
  rfl

theorem fireActor_fired {r : Registry σ} {source : ActorId} {actor : Actor σ} (h : r.actor? source = some actor)
    {result : FiringResult} (hresult : actor.fire.value.2 = .ok result) (fires : result.didFire = true) :
    (r.fireActor source).value =
      (((r.setActor source actor.fire.value.1).deliver source).1,
        .ok (result.addAffected ((r.setActor source actor.fire.value.1).deliver source).2)) := by
  rw [fireActor_value, firing, h, Option.map_some, hresult]
  dsimp only
  rw [if_pos fires]

theorem fireActor_unfired {r : Registry σ} {source : ActorId} {actor : Actor σ}
    (h : r.actor? source = some actor) (idle : ∀ result, actor.fire.value.2 = .ok result → result = .idle) :
    (r.fireActor source).value = (r.setActor source actor.fire.value.1, actor.fire.value.2) := by
  rw [fireActor_value, firing, h, Option.map_some]
  cases houtcome : actor.fire.value.2 with
  | ok result =>
    rw [idle result houtcome]
    rfl
  | error e | panic payload => rfl

theorem fireActor_other (r : Registry σ) {source id : ActorId} (hne : id ≠ source)
    (h : id ∉ affectedBy (r.fireActor source).value.2) :
    entry? (r.fireActor source).value.1 id = r.entry? id := by
  rcases hactor : r.actor? source with _ | actor
  · rw [fireActor_unknown hactor]
  · have hkept : entry? (r.setActor source actor.fire.value.1) id = r.entry? id := by
      rw [r.entry?_setActor (actor.fire_fired.id.trans (actor?_id hactor))]
      simp [hne]
    rcases actor.fire_cases with ⟨result, hresult, hfires, -⟩ | ⟨hidle, -⟩
    · rw [fireActor_fired hactor hresult hfires] at h ⊢
      have hreached := mt (Or.inr (a := id ∈ result.affected)) (mt affectedBy_addAffected.mpr h)
      exact (deliver_unreached _ hne hreached).trans hkept
    · rw [fireActor_unfired hactor hidle]
      exact hkept

theorem fireActor_self (r : Registry σ) {source : ActorId} {e : Entrant σ}
    (h : entry? (r.fireActor source).value.1 source = some e) :
    source ∈ affectedBy (r.fireActor source).value.2 ∨ e.actor.AtRest ∨
      (r.actor? source).any Actor.balks = true := by
  rcases hactor : r.actor? source with _ | actor
  · rw [fireActor_unknown hactor] at h
    rw [actor?, show r.entry? source = some e from h] at hactor
    cases hactor
  · rcases actor.fire_cases with ⟨result, hresult, hfires, haffected⟩ | ⟨hidle, hbalks | hrest⟩
    · left
      rw [fireActor_fired hactor hresult hfires, affectedBy_addAffected]
      exact .inl (actor?_id hactor ▸ haffected)
    · exact .inr (.inr hbalks)
    · rw [fireActor_unfired hactor hidle, hrest.fire, r.entry?_setActor (actor?_id hactor)] at h
      obtain ⟨old, -, rfl⟩ := Option.map_eq_some_iff.mp h
      rw [if_pos rfl]
      exact .inr (.inl hrest)

theorem fireActor_didFire (r : Registry σ) {source id : ActorId} {result : FiringResult}
    (h : (r.fireActor source).value.2 = .ok result) (affected : id ∈ result.affected) :
    result.didFire = true := by
  rcases hactor : r.actor? source with _ | actor
  · rw [fireActor_unknown hactor] at h
    cases h
  · rcases actor.fire_cases with ⟨fired, hfired, hfires, -⟩ | ⟨hidle, -⟩
    · rw [fireActor_fired hactor hfired hfires] at h
      cases h
      exact hfires
    · rw [fireActor_unfired hactor hidle] at h
      rw [hidle result h, FiringResult.idle] at affected
      exact absurd affected Std.ExtTreeSet.not_mem_empty

end Registry

/-- The actor that a change adds, enables, or gives a token. -/
def Edit.wakes : Edit σ → Option ActorId
  | .add actor => some actor.id
  | .resume id | .completeMigration id => some id
  | .push target _ => some target.actor
  | .remove _ | .pause _ | .terminate _ | .beginMigration _ | .connect .. | .drain _ => none

namespace Registry

variable {r r' : Registry σ}

theorem entry?_enroll_of_ne (r : Registry σ) {actor : Actor σ} {id : ActorId} (h : id ≠ actor.id) :
    entry? (r.enroll actor) id = r.entry? id := by
  unfold entry? enroll
  rw [List.find?_append]
  simp [Ne.symm h]

theorem modify_cases {id other : ActorId} {f : Entrant σ → Entrant σ} {e : Entrant σ}
    (h : entry? (r.modify other f) id = some e) (named : ∀ e, e.actor.id = other → (f e).actor.id = other) :
    (id = other ∧ ∃ old, r.entry? id = some old ∧ f old = e) ∨ r.entry? id = some e := by
  rw [r.entry?_modify named] at h
  obtain ⟨old, hold, hchanged⟩ := Option.map_eq_some_iff.mp h
  by_cases hid : id = other
  · rw [if_pos hid] at hchanged
    exact .inl ⟨hid, old, hold, hchanged⟩
  · rw [if_neg hid] at hchanged
    exact .inr (hchanged ▸ hold)

/-- An actor keeps its choice by a change, unless the change wakes it or leaves it disabled. -/
theorem Changed.chosen {change : Edit σ} {answer : Except ActorError (Reply σ)}
    (h : r.Changed change (r', answer)) (wired : r.Wired) {id : ActorId} {e : Entrant σ}
    (he : r'.entry? id = some e) (enabled : e.status.isEnabled = true) :
    (answer.isOk = true ∧ change.wakes = some id) ∨
      ∃ old, r.entry? id = some old ∧ old.status.isEnabled = true ∧ e.actor.chosen = old.actor.chosen := by
  have hsame : r.entry? id = some e → ∃ old, r.entry? id = some old ∧ old.status.isEnabled = true ∧
      e.actor.chosen = old.actor.chosen := fun hold => ⟨e, hold, enabled, rfl⟩
  cases h with
  | refused | connected | connectedBefore => exact .inr (hsame he)
  | added actor fresh =>
    by_cases hid : id = actor.id
    · exact .inl ⟨rfl, congrArg some hid.symm⟩
    · rw [r.entry?_enroll_of_ne hid] at he
      exact .inr (hsame he)
  | removed other =>
    rw [r.entry?_without] at he
    by_cases hid : id = other
    · rw [if_pos hid] at he
      cases he
    · rw [if_neg hid] at he
      exact .inr (hsame he)
  | resumed other =>
    rcases modify_cases he fun _ hid => hid with ⟨rfl, -⟩ | hold
    · exact .inl ⟨rfl, rfl⟩
    · exact .inr (hsame hold)
  | arrived other entrant actor hentry hstatus hanswer =>
    rcases modify_cases he fun _ _ => didMigrate_named hentry hanswer with ⟨rfl, -⟩ | hold
    · exact .inl ⟨rfl, rfl⟩
    · exact .inr (hsame hold)
  | paused other | terminated other | left other =>
    rcases modify_cases he fun _ hid => hid with ⟨-, old, -, rfl⟩ | hold
    · cases enabled
    · exact .inr (hsame hold)
  -- The hooks may have changed the fields of the actor, but it goes on migrating.
  | turnedBack other entrant actor refusal hentry hstatus hanswer =>
    rcases modify_cases he fun _ _ => didMigrate_named hentry hanswer with ⟨rfl, old, hold, rfl⟩ | hold
    · rw [hentry] at hold
      cases hold
      rw [hstatus] at enabled
      cases enabled
    · exact .inr (hsame hold)
  | pushed target token =>
    rcases modify_cases he fun _ hid => hid with ⟨rfl, -⟩ | hold
    · exact .inl ⟨rfl, rfl⟩
    · exact .inr (hsame hold)
  | drained source port hport output =>
    rcases modify_cases he fun _ hid => hid with ⟨rfl, old, hold, rfl⟩ | hold
    · have hactor : r.actor? source.actor = some old.actor := by
        rw [actor?, hold]
        rfl
      rw [portAt, hactor] at hport
      exact .inr ⟨old, hold, enabled, (wired.fits _ _ hactor).chosen_setQueue hport output []⟩
    · exact .inr (hsame hold)

end Registry

end ActorNet
