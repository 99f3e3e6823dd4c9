import ActorNet.Proofs.Coverage

set_option autoImplicit false

/-!
# Independent firings commute

Actors are independent when none of them is wired to another of them and no two of them are wired to the same input.
What the firing of one of them brings reaches neither the others nor what they reach, so each of them fires the same
whether others have been fired or not, and what they do to the registry commutes. A cycle over such actors comes to
the same in whatever order they are registered.
-/
namespace ActorNet

variable {σ : Type}

theorem Actor.extend_nothing (actor : Actor σ) : (actor.extend fun _ => []) = actor := by
  unfold Actor.extend
  rw [Ports.extend_nothing]

namespace Registry

variable {r : Registry σ} {ids : List ActorId}

/-- No wire leads from one of the actors to another of them, and no input is wired to two of them. An actor may be
wired to itself. -/
structure Independent (r : Registry σ) (ids : List ActorId) : Prop where
  unwired : ∀ wire ∈ r.wires, wire.source.actor ∈ ids → wire.target.actor ∈ ids →
    wire.target.actor = wire.source.actor
  writer : ∀ wire ∈ r.wires, ∀ other ∈ r.wires, wire.source.actor ∈ ids → other.source.actor ∈ ids →
    wire.target = other.target → wire.source.actor = other.source.actor

namespace Independent

theorem of_wires {r' : Registry σ} (h : r.Independent ids) (wires : r'.wires = r.wires) : r'.Independent ids where
  unwired := wires ▸ h.unwired
  writer := wires ▸ h.writer

theorem subset (h : r.Independent ids) {some : List ActorId} (within : ∀ id ∈ some, id ∈ ids) :
    r.Independent some where
  unwired wire hwire hsource htarget := h.unwired wire hwire (within _ hsource) (within _ htarget)
  writer wire hwire other hother hsource hsource' :=
    h.writer wire hwire other hother (within _ hsource) (within _ hsource')

section Two

variable (h : r.Independent ids) {id other : ActorId} (hid : id ∈ ids) (hother : other ∈ ids) (hne : id ≠ other)

include h hid hother hne

theorem brought_other (cargo : List (String × List Token)) (name : String) :
    r.brought other cargo ⟨id, name⟩ = [] := by
  by_contra hbrought
  obtain ⟨wire, hwire, hsource, htarget⟩ := brought_wire hbrought
  have hhere : wire.target.actor = id := congrArg PortAddr.actor htarget
  have hsame := h.unwired wire hwire (hsource ▸ hother) (hhere ▸ hid)
  exact hne (hhere.symm.trans (hsame.trans hsource))

theorem brought_apart (cargo cargo' : List (String × List Token)) (addr : PortAddr) :
    r.brought id cargo addr = [] ∨ r.brought other cargo' addr = [] := by
  by_contra hboth
  obtain ⟨hfirst, hsecond⟩ := not_or.mp hboth
  obtain ⟨wire, hwire, hsource, htarget⟩ := brought_wire hfirst
  obtain ⟨wire', hwire', hsource', htarget'⟩ := brought_wire hsecond
  have hsame := h.writer wire hwire wire' hwire' (hsource ▸ hid) (hsource' ▸ hother) (htarget.trans htarget'.symm)
  exact hne (hsource.symm.trans (hsame.trans hsource'))

theorem actor?_fireActor (distinct : r.ids.Nodup) : (r.fireActor other).value.1.actor? id = r.actor? id := by
  cases hactor : r.actor? other with
  | none => rw [fireActor_unknown hactor]
  | some actor =>
    rw [fireActor_fst distinct hactor, actor?_extend, r.actor?_setActor (spent_id hactor)]
    simp only [if_neg hne, h.brought_other hid hother hne, Actor.extend_nothing, Option.map_id']

theorem fireActor_snd (distinct : r.ids.Nodup) :
    ((r.fireActor other).value.1.fireActor id).value.2 = (r.fireActor id).value.2 := by
  have hsame := h.actor?_fireActor hid hother hne distinct
  have halike := r.fireActor_alike other
  cases hactor : r.actor? id with
  | none =>
    rw [hactor] at hsame
    rw [fireActor_unknown hactor, fireActor_unknown hsame]
  | some actor =>
    rw [hactor] at hsame
    have hreached : ∀ cargo, (r.fireActor other).value.1.reached id cargo = r.reached id cargo := by
      intro cargo
      unfold reached
      simp only [targets_of_wires halike.wires, halike.exists]
    rw [Registry.fireActor_snd (fireActor_distinct distinct other) hsame, Registry.fireActor_snd distinct hactor,
      cargo_of_wires halike.wires]
    simp only [hreached]

theorem fireActor_fireActor (distinct : r.ids.Nodup) {actor actor' : Actor σ} (hactor : r.actor? id = some actor)
    (hactor' : r.actor? other = some actor') :
    ((r.fireActor other).value.1.fireActor id).value.1 =
      (((r.setActor other (r.spent actor')).setActor id (r.spent actor)).extend
        (r.brought other (r.cargo actor'))).extend (r.brought id (r.cargo actor)) := by
  have hsame := (h.actor?_fireActor hid hother hne distinct).trans hactor
  have hwires := (r.fireActor_alike other).wires
  have hbrought : (r.fireActor other).value.1.brought id (r.cargo actor) = r.brought id (r.cargo actor) :=
    funext fun addr => brought_of_wires hwires id (r.cargo actor) addr
  have hkept : (r.spent actor).extend (fun name => r.brought other (r.cargo actor') ⟨id, name⟩) = r.spent actor := by
    simp only [h.brought_other hid hother hne, Actor.extend_nothing]
  rw [fireActor_fst (fireActor_distinct distinct other) hsame, spent_of_wires hwires, cargo_of_wires hwires,
    hbrought, fireActor_fst distinct hactor']
  -- Nothing is brought to the second actor, so that its update moves in front of the first one's delivery.
  conv_lhs => rw [← hkept]
  rw [setActor_extend _ (spent_id hactor)]

end Two

theorem fireActor_comm (h : r.Independent ids) {id other : ActorId} (hid : id ∈ ids) (hother : other ∈ ids)
    (hne : id ≠ other) (distinct : r.ids.Nodup) :
    ((r.fireActor other).value.1.fireActor id).value.1 = ((r.fireActor id).value.1.fireActor other).value.1 := by
  cases hactor : r.actor? id with
  | none =>
    have hgone := (h.actor?_fireActor hid hother hne distinct).trans hactor
    rw [fireActor_unknown hactor, fireActor_unknown hgone]
  | some actor =>
    cases hactor' : r.actor? other with
    | none =>
      have hgone := (h.actor?_fireActor hother hid hne.symm distinct).trans hactor'
      rw [fireActor_unknown hactor', fireActor_unknown hgone]
    | some actor' =>
      rw [h.fireActor_fireActor hid hother hne distinct hactor hactor',
        h.fireActor_fireActor hother hid hne.symm distinct hactor' hactor,
        r.setActor_comm (spent_id hactor') (spent_id hactor) hne.symm]
      exact extend_comm _ fun addr => h.brought_apart hother hid hne.symm _ _ addr

end Independent

namespace Independent

theorem fireActor (h : r.Independent ids) (id : ActorId) : (r.fireActor id).value.1.Independent ids :=
  h.of_wires (r.fireActor_alike id).wires

theorem volley_outcome (h : r.Independent ids) (distinct : r.ids.Nodup) {order : List ActorId} (once : order.Nodup)
    (within : ∀ id ∈ order, id ∈ ids) {f : Firing σ} (hf : f ∈ r.volley order) :
    f.outcome = (r.fireActor f.id).value.2 := by
  induction order generalizing r with
  | nil => cases hf
  | cons id order ih =>
    obtain ⟨hfresh, honce⟩ := List.nodup_cons.mp once
    rcases List.mem_cons.mp hf with rfl | hrest
    · rfl
    · have hmem : f.id ∈ order := by
        rw [← volley_ids (r.fireActor id).value.1 order]
        exact List.mem_map_of_mem hrest
      have hne : f.id ≠ id := fun hsame => hfresh (hsame ▸ hmem)
      have hwithin : ∀ other ∈ order, other ∈ ids := fun other hother => within other (List.mem_cons_of_mem id hother)
      rw [ih (h.fireActor id) (fireActor_distinct distinct id) honce hwithin hrest]
      exact h.fireActor_snd (within _ (List.mem_cons_of_mem id hmem)) (within _ List.mem_cons_self) hne distinct

theorem fireAll_perm (h : r.Independent ids) (distinct : r.ids.Nodup) {order others : List ActorId}
    (perm : order.Perm others) (once : order.Nodup) (within : ∀ id ∈ order, id ∈ ids) :
    r.fireAll order = r.fireAll others := by
  induction perm generalizing r with
  | nil => rfl
  | cons id _ ih =>
    rw [fireAll_cons, fireAll_cons]
    exact ih (h.fireActor id) (fireActor_distinct distinct id) once.of_cons fun other hother =>
      within other (List.mem_cons_of_mem id hother)
  | swap id other rest =>
    have hne : id ≠ other := fun hsame => (List.nodup_cons.mp once).1 (hsame ▸ List.mem_cons_self)
    have hsecond := within id (List.mem_cons_of_mem other List.mem_cons_self)
    have hfirst := within other List.mem_cons_self
    rw [fireAll_cons, fireAll_cons, fireAll_cons, fireAll_cons, h.fireActor_comm hsecond hfirst hne distinct]
  | trans hperm _ ih ih' =>
    rw [ih h distinct once within]
    exact ih' h distinct (hperm.nodup once) fun id hid => within id (hperm.mem_iff.mpr hid)

theorem results_eq (h : r.Independent ids) (distinct : r.ids.Nodup) {order : List ActorId} (once : order.Nodup)
    (within : ∀ id ∈ order, id ∈ ids) : r.results order = order.filterMap fun id => (⟨r, id⟩ : Firing σ).result? := by
  conv_rhs => rw [← volley_ids r order]
  rw [List.filterMap_map, results]
  refine List.filterMap_congr fun f hf => ?_
  rw [Function.comp_apply, Firing.result?, h.volley_outcome distinct once within hf]
  rfl

theorem failing_eq (h : r.Independent ids) (distinct : r.ids.Nodup) {order : List ActorId} (once : order.Nodup)
    (within : ∀ id ∈ order, id ∈ ids) : r.failing order = order.filter fun id => (r.fireActor id).value.2.isFault := by
  conv_rhs => rw [← volley_ids r order]
  rw [List.filter_map, failing]
  congr 1
  refine List.filter_congr fun f hf => ?_
  rw [Function.comp_apply, h.volley_outcome distinct once within hf]

end Independent

/-- The same actors with the same wires, registered in another order. -/
structure Reordered (r r' : Registry σ) : Prop where
  entries : r'.entries.Perm r.entries
  wires : r'.wires = r.wires

namespace Reordered

variable {r' : Registry σ} (h : r.Reordered r') (distinct : r.ids.Nodup)

include h

theorem ids_perm : r'.ids.Perm r.ids := h.entries.map _

theorem enabled : r'.enabled.Perm r.enabled := (h.entries.filter _).map _

theorem setActor (id : ActorId) (actor : Actor σ) : (r.setActor id actor).Reordered (r'.setActor id actor) :=
  ⟨h.entries.map _, h.wires⟩

theorem extend (more : PortAddr → List Token) : (r.extend more).Reordered (r'.extend more) :=
  ⟨h.entries.map _, h.wires⟩

include distinct

theorem entry? (id : ActorId) : r'.entry? id = r.entry? id := by
  have hdistinct : r'.ids.Nodup := h.ids_perm.nodup_iff.mpr distinct
  cases hfound : r.entry? id with
  | some e =>
    have hmem := h.entries.mem_iff.mpr (List.mem_of_find?_eq_some hfound)
    rw [← entry?_id hfound]
    exact entry?_of_mem hdistinct hmem
  | none =>
    refine List.find?_eq_none.mpr fun e he => ?_
    exact List.find?_eq_none.mp hfound e (h.entries.mem_iff.mp he)

theorem actor? (id : ActorId) : r'.actor? id = r.actor? id := by
  rw [Registry.actor?, Registry.actor?, h.entry? distinct]

theorem fireActor_snd (id : ActorId) : (r'.fireActor id).value.2 = (r.fireActor id).value.2 := by
  have hdistinct : r'.ids.Nodup := h.ids_perm.nodup_iff.mpr distinct
  have hactor' := h.actor? distinct id
  cases hactor : r.actor? id with
  | none =>
    rw [hactor] at hactor'
    rw [fireActor_unknown hactor, fireActor_unknown hactor']
  | some actor =>
    rw [hactor] at hactor'
    have hreached : ∀ cargo, r'.reached id cargo = r.reached id cargo := by
      intro cargo
      unfold reached portAt
      simp only [targets_of_wires h.wires, h.actor? distinct]
    rw [Registry.fireActor_snd distinct hactor, Registry.fireActor_snd hdistinct hactor', cargo_of_wires h.wires]
    simp only [hreached]

theorem result? (id : ActorId) : (⟨r', id⟩ : Firing σ).result? = (⟨r, id⟩ : Firing σ).result? := by
  rw [Firing.result?, Firing.outcome, h.fireActor_snd distinct]
  rfl

theorem fireActor (id : ActorId) : (r.fireActor id).value.1.Reordered (r'.fireActor id).value.1 := by
  have hdistinct : r'.ids.Nodup := h.ids_perm.nodup_iff.mpr distinct
  have hactor' := h.actor? distinct id
  cases hactor : r.actor? id with
  | none =>
    rw [hactor] at hactor'
    rw [fireActor_unknown hactor, fireActor_unknown hactor']
    exact h
  | some actor =>
    rw [hactor] at hactor'
    have hbrought : r'.brought id (r.cargo actor) = r.brought id (r.cargo actor) :=
      funext fun addr => brought_of_wires h.wires id (r.cargo actor) addr
    rw [fireActor_fst distinct hactor, fireActor_fst hdistinct hactor', spent_of_wires h.wires,
      cargo_of_wires h.wires, hbrought]
    exact (h.setActor id _).extend _

theorem fireAll (order : List ActorId) : (r.fireAll order).Reordered (r'.fireAll order) := by
  induction order generalizing r r' with
  | nil => exact h
  | cons id order ih =>
    exact ih (h.fireActor distinct id) (fireActor_distinct distinct id)

end Reordered

end Registry

namespace Scheduler

variable {s : Scheduler σ} {registry : Registry σ} {ids : List ActorId}

/-- Two cycles agree but for the order in which actors come up. -/
structure Agreement (first second : Scheduler σ × CycleReport) : Prop where
  result : second.2.result = first.2.result
  touched : second.2.touched.Perm first.2.touched
  failed : second.2.failed.Perm first.2.failed
  report : second.2 = { first.2 with touched := second.2.touched, failed := second.2.failed }
  registry : first.1.registry.Reordered second.1.registry
  state : second.1 = first.1.recast second.1.registry first.1.stats.fireErrors

section Reordered

variable (all : Bool) (wired : s.registry.Wired) (distinct : s.registry.ids.Nodup)
  (reordered : s.registry.Reordered registry) (independent : s.registry.Independent (s.due all))

include wired distinct reordered independent

theorem sweepActors_reordered {other : Scheduler σ} (recast : other = s.recast registry s.stats.fireErrors) :
    (other.sweepActors all).2.touched.Perm (s.sweepActors all).2.touched ∧
      (other.sweepActors all).2.failed.Perm (s.sweepActors all).2.failed ∧
      (s.sweepActors all).1.registry.Reordered (other.sweepActors all).1.registry ∧
      other.sweepActors all =
        ((s.sweepActors all).1.recast (other.sweepActors all).1.registry (s.sweepActors all).1.stats.fireErrors,
          { (s.sweepActors all).2 with
            touched := (other.sweepActors all).2.touched
            failed := (other.sweepActors all).2.failed }) := by
  have hregistry : other.registry = registry := congrArg (·.registry) recast
  have hdue : (other.due all).Perm (s.due all) := by
    rw [recast]
    exact reordered.enabled.filter _
  have honce : (s.due all).Nodup := distinct.sublist (s.due_sublist all)
  have honce' : (other.due all).Nodup := hdue.nodup_iff.mpr honce
  have hdistinct : registry.ids.Nodup := reordered.ids_perm.nodup_iff.mpr distinct
  have hindependent : registry.Independent (s.due all) := independent.of_wires reordered.wires
  have hwithin : ∀ id ∈ other.due all, id ∈ s.due all := fun _ hid => hdue.mem_iff.mp hid
  have hresults : (registry.results (other.due all)).Perm (s.registry.results (s.due all)) := by
    rw [independent.results_eq distinct honce fun _ hid => hid, hindependent.results_eq hdistinct honce' hwithin]
    simp only [reordered.result? distinct]
    exact hdue.filterMap _
  have hfailing : (registry.failing (other.due all)).Perm (s.registry.failing (s.due all)) := by
    rw [independent.failing_eq distinct honce fun _ hid => hid, hindependent.failing_eq hdistinct honce' hwithin]
    simp only [reordered.fireActor_snd distinct]
    exact hdue.filter _
  have htotal := FiringResult.collect_perm hresults.symm (Registry.results_apart wired distinct honce)
  have hafter : (s.registry.fireAll (s.due all)).Reordered (registry.fireAll (other.due all)) := by
    rw [← independent.fireAll_perm distinct hdue honce' hwithin]
    exact reordered.fireAll distinct _
  obtain ⟨hfired, hsweep⟩ := s.sweepActors_volley all
  obtain ⟨hfired', hsweep'⟩ := other.sweepActors_volley all
  have hstate := s.sweepActors_state all
  have hstate' := other.sweepActors_state all
  have htaken : other.takePending.2 = s.takePending.2.recast registry s.stats.fireErrors := by
    rw [recast, takePending_revised]
  have hstats : other.stats.fireErrors = s.stats.fireErrors := by
    rw [recast]
    rfl
  rw [hregistry] at hfired' hsweep' hstate'
  refine ⟨?_, ?_, ?_, Prod.ext ?_ ?_⟩
  · rw [hsweep, hsweep']
    exact hdue
  · rw [hsweep, hsweep']
    exact hfailing
  · rw [hfired, hfired']
    exact hafter
  · rw [hfired', hstate, hstate', hfailing.length_eq, htaken, hstats]
    rfl
  · rw [hsweep, hsweep', htotal]

end Reordered

theorem closeCycle_fireErrors (s : Scheduler σ) (cycle : Nat) (all active : Bool) :
    (s.closeCycle cycle all active).1.stats.fireErrors = (s.sweepActors all).1.stats.fireErrors := by
  have hsame : s.sweepActors all =
      ((s.sweepActors all).1.recast (s.sweepActors all).1.registry (s.sweepActors all).1.stats.fireErrors,
        { (s.sweepActors all).2 with
          touched := (s.sweepActors all).2.touched
          failed := (s.sweepActors all).2.failed }) := rfl
  exact congrArg (fun closed => closed.1.stats.fireErrors) (closeCycle_recast all rfl hsame cycle active)

theorem ready_fireErrors (s : Scheduler σ) (all : Bool) : (s.ready all).stats.fireErrors = s.stats.fireErrors :=
  congrArg (·.stats.fireErrors) (s.ready_recast s.registry s.stats.fireErrors all)

theorem loopOnce_reordered (all : Bool) (wired : s.registry.Wired) (distinct : s.registry.ids.Nodup)
    (reordered : s.registry.Reordered registry)
    (independent : s.registry.Independent (s.loopOnce all).value.2.touched) :
    Agreement (s.loopOnce all).value (({ s with registry } : Scheduler σ).loopOnce all).value := by
  let cycle := (s.beginCycle all).cycle
  let active := (s.beginCycle all).pollMonitor.1
  let other := (s.ready all).recast registry s.stats.fireErrors
  have hother : (({ s with registry } : Scheduler σ).loopOnce all).value = other.closeCycle cycle all active := by
    have hready := s.ready_recast registry s.stats.fireErrors all
    rw [loopOnce_ready]
    exact congrArg (closeCycle · cycle all active) hready
  rw [loopOnce_ready, ((s.ready all).closeCycle_volley cycle all active).1] at independent
  rw [loopOnce_ready, hother]
  have hrecast : other = (s.ready all).recast registry (s.ready all).stats.fireErrors := by
    rw [ready_fireErrors]
  rw [← s.ready_registry all] at wired distinct reordered independent
  obtain ⟨htouched, hfailed, hregistry, hsweep⟩ :=
    sweepActors_reordered all wired distinct reordered independent hrecast
  have hpending : other.pending = (s.ready all).pending := rfl
  have hclosed := closeCycle_recast all hpending hsweep cycle active
  have hregistries : ((s.ready all).closeCycle cycle all active).1.registry.Reordered
      (other.closeCycle cycle all active).1.registry := by
    rw [closeCycle_registry, closeCycle_registry]
    exact hregistry
  have htotal : (other.closeCycle cycle all active).2.result = ((s.ready all).closeCycle cycle all active).2.result :=
    congrArg (fun closed => closed.2.result) hclosed
  refine ⟨htotal, htouched, hfailed, congrArg Prod.snd hclosed, hregistries, ?_⟩
  rw [closeCycle_registry other, closeCycle_fireErrors, hclosed]

end Scheduler

/-- What it means that firings commute. -/
structure Registry.Commutes (r : Registry σ) (ids : List ActorId) : Prop where
  outcomes : ∀ order : List ActorId, order.Perm ids → ∀ f ∈ r.volley order, f.outcome = (r.fireActor f.id).value.2
  registry : ∀ order : List ActorId, order.Perm ids → r.fireAll order = r.fireAll ids
  cycles : ∀ (s : Scheduler σ) (all : Bool), s.registry = r → (∀ id ∈ (s.loopOnce all).value.2.touched, id ∈ ids) →
    ∀ registry, r.Reordered registry →
      Scheduler.Agreement (s.loopOnce all).value (({ s with registry } : Scheduler σ).loopOnce all).value

/-- Independent actors fire in any order with the same outcomes, and leave the same registry. -/
theorem Registry.independent_firings_commute (operations : List (Operation σ)) (ids : List ActorId) (once : ids.Nodup)
    (independent : ((empty : Registry σ).after operations).Independent ids) :
    ((empty : Registry σ).after operations).Commutes ids := by
  have hwired := wired_empty.after operations
  have hdistinct := after_distinct (r := empty) List.nodup_nil operations
  generalize (empty : Registry σ).after operations = r at *
  refine ⟨fun order hperm f hf => ?_, fun order hperm => ?_, fun s all hr htouched registry hreordered => ?_⟩
  · exact independent.volley_outcome hdistinct (hperm.nodup_iff.mpr once) (fun _ hid => hperm.mem_iff.mp hid) hf
  · exact independent.fireAll_perm hdistinct hperm (hperm.nodup_iff.mpr once) fun _ hid => hperm.mem_iff.mp hid
  · subst hr
    exact Scheduler.loopOnce_reordered all hwired hdistinct hreordered (independent.subset htouched)

def relay : ActorType Unit where
  name := "relay"
  inputs := ["in"]
  outputs := ["out"]
  actions := [⟨"pass", ⟨["in"], ["out"]⟩, none, fun state tokens => (state, .ok tokens)⟩]
  handler := none
  hooks := .none
  valid := by
    refine ⟨nofun, by decide, List.nodup_singleton _, ?_⟩
    simp [Declaration.Accepts]

def relaying : List (Registry.Operation Unit) :=
  [.edit (.add (.new ⟨"a"⟩ relay ())) (Actor.fits_new _ _ _),
    .edit (.add (.new ⟨"s"⟩ sink ())) (Actor.fits_new _ _ _),
    .edit (.add (.new ⟨"c"⟩ relay ())) (Actor.fits_new _ _ _),
    .edit (.add (.new ⟨"d"⟩ relay ())) (Actor.fits_new _ _ _),
    .edit (.connect ⟨⟨"a"⟩, "out"⟩ ⟨⟨"a"⟩, "in"⟩) trivial,
    .edit (.connect ⟨⟨"c"⟩, "out"⟩ ⟨⟨"d"⟩, "in"⟩) trivial,
    .edit (.push ⟨⟨"a"⟩, "in"⟩ (.data .null)) trivial,
    .edit (.push ⟨⟨"s"⟩, "in"⟩ .endOfStream) trivial,
    .edit (.push ⟨⟨"c"⟩, "in"⟩ (.data .null)) trivial]

theorem Registry.independent_firings_commute_relaying :
    (Registry.empty.after relaying).Independent [⟨"a"⟩, ⟨"s"⟩, ⟨"c"⟩] ∧
      (Registry.empty.after relaying).Commutes [⟨"a"⟩, ⟨"s"⟩, ⟨"c"⟩] ∧
      (Registry.empty.after relaying).failing [⟨"c"⟩, ⟨"s"⟩, ⟨"a"⟩] = [⟨"s"⟩] ∧
      ((Registry.empty.after relaying).results [⟨"c"⟩, ⟨"s"⟩, ⟨"a"⟩]).length = 2 := by
  have hindependent : (Registry.empty.after relaying).Independent [⟨"a"⟩, ⟨"s"⟩, ⟨"c"⟩] := ⟨by decide, by decide⟩
  exact ⟨hindependent, Registry.independent_firings_commute relaying _ (by decide) hindependent, rfl, rfl⟩

end ActorNet
