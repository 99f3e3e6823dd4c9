import ActorNet.Proofs.Restriction
import ActorNet.Proofs.Volleys

set_option autoImplicit false

/-!
# What a cycle touches and what it reports

A cycle fires each of the actors that it touches once. A result tells addresses of its own actor only, so that no two
results of a cycle share an address and their total does not depend on the order in which they are collected.
-/
namespace ActorNet

variable {σ : Type}

namespace Actor

variable {actor : Actor σ}

def Fires (actor : Actor σ) : Prop :=
  ∃ action control ran production, actor.chosen = some (action, control) ∧
    actor.run action control = (ran, .ok (some production))

theorem Fires.result (h : actor.Fires) :
    ∃ result, actor.fire.value.2 = .ok result ∧ result.didFire = true ∧ result.affected = {actor.id} ∧
      ∀ addr : PortAddr, (result.production[addr]?).isSome = true → addr.actor = actor.id := by
  obtain ⟨action, control, ran, production, hchosen, hrun⟩ := h
  have hid : ran.id = actor.id := by
    obtain ⟨state, hstate⟩ := actor.run_frame action control
    rw [hrun] at hstate
    have hsame := congrArg (fun ran : Actor σ => ran.id) hstate
    exact hsame
  refine ⟨(ran.emit action.condition.outputs production).2, ?_, rfl, ?_, fun addr haddr => ?_⟩
  · rw [fire_value, hchosen]
    dsimp only
    rw [hrun]
  · rw [← hid]
    rfl
  · by_contra hother
    rw [emit_production, hid, if_neg hother] at haddr
    cases haddr

theorem idle_of_not_fires (h : ¬actor.Fires) {result : FiringResult} (ok : actor.fire.value.2 = .ok result) :
    result = .idle := by
  rw [fire_value] at ok
  cases hchosen : actor.chosen with
  | none =>
    rw [hchosen] at ok
    exact (Outcome.ok.inj ok).symm
  | some choice =>
    obtain ⟨action, control⟩ := choice
    rw [hchosen] at ok
    dsimp only at ok
    rcases hrun : actor.run action control with ⟨ran, (_ | production) | e | payload⟩
    · rw [hrun] at ok
      exact (Outcome.ok.inj ok).symm
    · exact absurd ⟨action, control, ran, production, hchosen, hrun⟩ h
    · rw [hrun] at ok
      cases ok
    · rw [hrun] at ok
      cases ok

end Actor

namespace Registry

variable {r : Registry σ} {id : ActorId} {actor : Actor σ}

theorem shipments_fire (h : r.actor? id = some actor) :
    r.shipments (.fire id) =
      (r.cargo actor).map fun (name, tokens) => ⟨⟨id, name⟩, tokens, r.targets ⟨id, name⟩⟩ := by
  have hfiring : r.firing id = some (r.setActor id actor.fire.value.1, actor.fire.value.2) := by
    rw [firing, h]
    rfl
  rw [shipments, hfiring, cargo]
  cases actor.fire.value.2 with
  | ok result =>
    dsimp only
    rw [outgoing_setActor h (actor.fire_fired.id.trans (actor?_id h))]
    split <;> rfl
  | error | panic => rfl

theorem cargo_nonempty {name : String} {tokens : List Token} (h : (name, tokens) ∈ r.cargo actor) :
    tokens ≠ [] := by
  have hstock : (name, tokens) ∈ r.stock actor.fire.value.1 := by
    unfold cargo at h
    split at h
    · split at h
      · exact h
      · cases h
    · cases h
    · cases h
  obtain ⟨other, hother, heq⟩ := List.mem_map.mp hstock
  cases heq
  obtain ⟨⟨name, port⟩, hentry, rfl⟩ := List.mem_map.mp (List.mem_filter.mp hother).1
  obtain ⟨hport, hwaits⟩ := List.mem_filter.mp hentry
  rw [Std.ExtTreeMap.mem_toList_iff_getElem?_eq_some] at hport
  have hqueue : actor.fire.value.1.ports.queueOf name = port.queue := by
    rw [Ports.queueOf, hport]
    rfl
  rw [hqueue]
  exact (of_decide_eq_true hwaits).2

theorem mem_reached (wired : r.Wired) (h : r.actor? id = some actor) (other : ActorId) :
    other ∈ r.reached id (r.cargo actor) ↔ ∃ name, r.arrived ⟨other, name⟩ (.fire id) ≠ [] := by
  have harrived : ∀ addr, r.arrived addr (.fire id) = (r.cargo actor).flatMap fun (name, tokens) =>
      if addr ∈ r.targets ⟨id, name⟩ then tokens else [] := by
    intro addr
    change [] ++ _ = _
    rw [shipments_fire h, List.flatMap_map, List.nil_append]
  constructor
  · intro hreached
    obtain ⟨⟨name, tokens⟩, hcargo, htargets⟩ := List.mem_flatMap.mp hreached
    obtain ⟨target, htarget, rfl⟩ := List.mem_map.mp htargets
    have hmem : target ∈ r.targets ⟨id, name⟩ := (List.mem_filter.mp htarget).1
    refine ⟨target.port, fun hnone => cargo_nonempty hcargo ?_⟩
    rw [harrived, List.flatMap_eq_nil_iff] at hnone
    exact (if_pos hmem).symm.trans (hnone _ hcargo)
  · rintro ⟨port, hsome⟩
    rw [harrived] at hsome
    obtain ⟨token, htoken⟩ := List.exists_mem_of_ne_nil _ hsome
    obtain ⟨⟨name, tokens⟩, hcargo, htoken⟩ := List.mem_flatMap.mp htoken
    dsimp only at htoken
    split at htoken
    case isFalse => cases htoken
    case isTrue htarget =>
      refine List.mem_flatMap.mpr ⟨(name, tokens), hcargo, List.mem_map.mpr ⟨⟨other, port⟩, ?_, rfl⟩⟩
      obtain ⟨found, hfound, -⟩ := Option.map_eq_some_iff.mp (target_input wired htarget)
      exact List.mem_filter.mpr ⟨htarget, by rw [hfound]; rfl⟩

end Registry

namespace Firing

variable {f : Firing σ}

def Fires (f : Firing σ) : Prop := ∃ actor, f.before.actor? f.id = some actor ∧ actor.Fires

def Reaches (f : Firing σ) (id : ActorId) : Prop := ∃ name, f.before.arrived ⟨id, name⟩ (.fire f.id) ≠ []

structure Told (f : Firing σ) (result : FiringResult) : Prop where
  owned : ∀ addr : PortAddr, (result.production[addr]?).isSome = true → addr.actor = f.id
  didFire : result.didFire = true ↔ f.Fires
  affected : ∀ id, id ∈ result.affected ↔ (f.Fires ∧ f.id = id) ∨ f.Reaches id

theorem Fires.outcome (distinct : f.before.ids.Nodup) (h : f.Fires) : ∃ result, f.outcome = .ok result := by
  obtain ⟨actor, hactor, hfires⟩ := h
  obtain ⟨result, hresult, -⟩ := hfires.result
  rw [Firing.outcome, Registry.fireActor_snd distinct hactor, hresult]
  exact ⟨_, rfl⟩

theorem Reaches.fires (wired : f.before.Wired) {id : ActorId} (h : f.Reaches id) : f.Fires := by
  cases hactor : f.before.actor? f.id with
  | none =>
    obtain ⟨name, hsome⟩ := h
    have hnothing : f.before.firing f.id = none := Option.map_eq_none_iff.mpr hactor
    simp [Registry.arrived, Registry.pushed, Registry.shipments, hnothing] at hsome
  | some actor =>
    refine ⟨actor, hactor, ?_⟩
    by_contra hidle
    have hreached := (Registry.mem_reached wired hactor id).mpr h
    rw [Registry.cargo_of_unfired fun _ => actor.idle_of_not_fires hidle] at hreached
    cases hreached

theorem told (wired : f.before.Wired) (distinct : f.before.ids.Nodup) {result : FiringResult}
    (h : f.outcome = .ok result) : f.Told result := by
  rw [Firing.outcome] at h
  cases hactor : f.before.actor? f.id with
  | none =>
    rw [Registry.fireActor_unknown hactor] at h
    cases h
  | some actor =>
    rw [Registry.fireActor_snd distinct hactor] at h
    by_cases hfires : actor.Fires
    · have hf : f.Fires := ⟨actor, hactor, hfires⟩
      obtain ⟨fired, hfired, hdid, haffected, howned⟩ := hfires.result
      rw [hfired] at h
      dsimp only at h
      rw [if_pos hdid] at h
      cases h
      rw [Registry.actor?_id hactor] at haffected howned
      refine ⟨howned, iff_of_true hdid hf, fun id => ?_⟩
      change id ∈ affectedBy (.ok _) ↔ _
      rw [affectedBy_addAffected, Registry.mem_reached wired hactor, haffected]
      simp [hf, Reaches]
    · have hf : ¬f.Fires := by
        rintro ⟨other, hother, hothers⟩
        rw [hactor] at hother
        cases hother
        exact hfires hothers
      have hnobody : ∀ id, ¬f.Reaches id := fun id hreaches => hf (hreaches.fires wired)
      cases houtcome : actor.fire.value.2 with
      | ok idle =>
        rw [houtcome, actor.idle_of_not_fires hfires houtcome] at h
        cases h
        refine ⟨nofun, iff_of_false nofun hf, fun id => ?_⟩
        simp [hf, hnobody, FiringResult.idle]
      | error | panic =>
        rw [houtcome] at h
        cases h

end Firing

namespace Registry

variable {r : Registry σ} (wired : r.Wired) (distinct : r.ids.Nodup) (ids : List ActorId)

include wired distinct

theorem volley_told {f : Firing σ} (hf : f ∈ r.volley ids) {result : FiringResult} (h : f.outcome = .ok result) :
    f.Told result := by
  obtain ⟨hwired, hdistinct, -⟩ := mem_volley_wired wired distinct hf
  exact f.told hwired hdistinct h

theorem results_apart {ids : List ActorId} (once : ids.Nodup) : (r.results ids).Pairwise FiringResult.Apart := by
  have hnames : (r.volley ids).Pairwise fun f g => f.id ≠ g.id := by
    rw [← volley_ids r ids, List.nodup_iff_pairwise_ne, List.pairwise_map] at once
    exact once
  rw [results, List.pairwise_filterMap]
  -- An address that two results share belongs to both actors, but nobody is fired twice.
  refine hnames.imp_of_mem fun {f g} hf hg hne result hresult other hother addr => ?_
  have hfirst := volley_told wired distinct ids hf (Firing.result?_eq_some.mp hresult)
  have hsecond := volley_told wired distinct ids hg (Firing.result?_eq_some.mp hother)
  cases hleft : result.production[addr]? with
  | none => exact .inl rfl
  | some tokens =>
    refine .inr (Option.not_isSome_iff_eq_none.mp fun hright => hne ?_)
    rw [← hfirst.owned addr (by rw [hleft]; rfl), ← hsecond.owned addr hright]

theorem collect_results_affected (id : ActorId) :
    id ∈ (FiringResult.collect (r.results ids)).affected ↔
      ∃ f ∈ r.volley ids, (f.Fires ∧ f.id = id) ∨ f.Reaches id := by
  rw [FiringResult.mem_collect_affected]
  constructor
  · rintro ⟨result, hresult, hid⟩
    obtain ⟨f, hf, hresult⟩ := List.mem_filterMap.mp hresult
    have htold := volley_told wired distinct ids hf (Firing.result?_eq_some.mp hresult)
    exact ⟨f, hf, (htold.affected id).mp hid⟩
  · rintro ⟨f, hf, hid⟩
    obtain ⟨hwired, hdistinct, -⟩ := mem_volley_wired wired distinct hf
    have hfires : f.Fires := hid.elim And.left (Firing.Reaches.fires hwired)
    obtain ⟨result, hresult⟩ := hfires.outcome hdistinct
    exact ⟨result, List.mem_filterMap.mpr ⟨f, hf, Firing.result?_eq_some.mpr hresult⟩,
      ((f.told hwired hdistinct hresult).affected id).mpr hid⟩

theorem collect_results_didFire :
    (FiringResult.collect (r.results ids)).didFire = true ↔ ∃ f ∈ r.volley ids, f.Fires := by
  rw [FiringResult.collect_didFire]
  constructor
  · rintro ⟨result, hresult, hdid⟩
    obtain ⟨f, hf, hresult⟩ := List.mem_filterMap.mp hresult
    exact ⟨f, hf, (volley_told wired distinct ids hf (Firing.result?_eq_some.mp hresult)).didFire.mp hdid⟩
  · rintro ⟨f, hf, hfires⟩
    obtain ⟨hwired, hdistinct, -⟩ := mem_volley_wired wired distinct hf
    obtain ⟨result, hresult⟩ := hfires.outcome hdistinct
    exact ⟨result, List.mem_filterMap.mpr ⟨f, hf, Firing.result?_eq_some.mpr hresult⟩,
      (f.told hwired hdistinct hresult).didFire.mpr hfires⟩

end Registry

namespace Scheduler

variable {s : Scheduler σ}

theorem firingEach_fires (only : Option ActorSet) (ids : List ActorId) (s : Scheduler σ) (sweep : Sweep) :
    (firingEach only ids (s, sweep)).filterMap Moment.fires? = ids.filter fun id => only.all (·.contains id) := by
  induction ids generalizing s sweep with
  | nil => rfl
  | cons id ids ih =>
    rw [firingEach]
    split
    case isTrue hdue =>
      rw [List.filter_cons, if_pos hdue, ← ih (s.fireOne sweep id).value.1 (s.fireOne sweep id).value.2]
      rfl
    case isFalse hpassed =>
      rw [List.filter_cons, if_neg hpassed]
      exact ih s sweep

theorem cycling_fires (s : Scheduler σ) (all : Bool) :
    (s.cycling all).filterMap Moment.fires? = (s.ready all).due all := by
  have hobeyed : (s.openCycle all).draining.filterMap Moment.fires? = [] := by
    refine List.filterMap_eq_nil_iff.mpr fun m hm => ?_
    obtain ⟨command, hmark⟩ := mark_of_mem_obeyingEach hm
    rw [Moment.fires?, hmark]
  unfold cycling closing
  rw [List.cons_append, List.filterMap_cons, List.filterMap_append, List.filterMap_append, hobeyed, firingEach_fires]
  exact List.append_nil _

theorem due_eq (s : Scheduler σ) (all : Bool) :
    s.due all = s.registry.enabled.filter fun id =>
      all || !s.config.restrictToTriggered || s.pending.contains id := by
  refine List.filter_congr fun id _ => ?_
  unfold scope
  cases all <;> cases s.config.restrictToTriggered <;> rfl

theorem ready_config (s : Scheduler σ) (all : Bool) : (s.ready all).config = s.config :=
  (s.openCycle all).drain_config

/-- What a cycle touches, and what it reports of the firings. The commands that it obeys first add to the pending set
but leave the registry alone. -/
structure Coverage (s : Scheduler σ) (all : Bool) (after : Scheduler σ) (report : CycleReport) : Prop where
  eligible : report.eligible = (s.ready all).pending
  touched : report.touched = s.registry.enabled.filter fun id =>
    all || !s.config.restrictToTriggered || report.eligible.contains id
  once : report.touched.Nodup
  fired : (s.cycling all).filterMap Moment.fires? = report.touched
  registry : after.registry = s.registry.fireAll report.touched
  failed : report.failed = s.registry.failing report.touched
  owned : ∀ f ∈ s.registry.volley report.touched, ∀ result, f.outcome = .ok result →
    ∀ addr : PortAddr, (result.production[addr]?).isSome = true → addr.actor = f.id
  apart : (s.registry.results report.touched).Pairwise FiringResult.Apart
  result : ∀ results, results.Perm (s.registry.results report.touched) → report.result = .collect results
  affected : ∀ id, id ∈ report.result.affected ↔
    ∃ f ∈ s.registry.volley report.touched, (f.Fires ∧ f.id = id) ∨ f.Reaches id
  didFire : report.result.didFire = true ↔ ∃ f ∈ s.registry.volley report.touched, f.Fires

theorem loopOnce_coverage (wired : s.registry.Wired) (distinct : s.registry.ids.Nodup) (all : Bool) :
    s.Coverage all (s.loopOnce all).value.1 (s.loopOnce all).value.2 := by
  have hregistry := s.ready_registry all
  have honce : ((s.ready all).due all).Nodup := by
    refine List.Nodup.sublist ((s.ready all).due_sublist all) ?_
    rwa [hregistry]
  have htouched := (s.ready all).due_eq all
  rw [s.ready_config, hregistry] at htouched
  have hfired := s.cycling_fires all
  obtain ⟨hdue, hfailed, hresult⟩ := (s.ready all).closeCycle_volley (s.beginCycle all).cycle all
    (s.beginCycle all).pollMonitor.1
  have hafter := (s.ready all).closeCycle_registry (s.beginCycle all).cycle all (s.beginCycle all).pollMonitor.1
  rw [((s.ready all).sweepActors_volley all).1] at hafter
  rw [← loopOnce_ready] at hdue hfailed hresult hafter
  rw [hregistry] at hfailed hresult hafter
  rw [← hdue] at honce htouched hfired hfailed hresult hafter
  have heligible : (s.loopOnce all).value.2.eligible = (s.ready all).pending := by
    rw [loopOnce_ready]
    rfl
  rw [← heligible] at htouched
  have hapart := Registry.results_apart wired distinct honce
  refine ⟨heligible, htouched, honce, hfired, hafter, hfailed, ?_, hapart, ?_, ?_, ?_⟩
  · exact fun f hf result hok => (Registry.volley_told wired distinct _ hf hok).owned
  · intro results hperm
    rw [hresult]
    exact (FiringResult.collect_perm hperm.symm hapart).symm
  · rw [hresult]
    exact Registry.collect_results_affected wired distinct _
  · rw [hresult]
    exact Registry.collect_results_didFire wired distinct _

end Scheduler

/-- Each cycle touches those that it should, fires each of them once, and reports what has come of that. -/
theorem Scheduler.touches_each_once (operations : List (Registry.Operation σ)) (s : Scheduler σ) (all : Bool) :
    let begun : Scheduler σ := { s with registry := Registry.empty.after operations }
    begun.Coverage all (begun.loopOnce all).value.1 (begun.loopOnce all).value.2 :=
  loopOnce_coverage (Registry.wired_empty.after operations)
    (Registry.after_distinct (r := Registry.empty) List.nodup_nil operations) all

end ActorNet
