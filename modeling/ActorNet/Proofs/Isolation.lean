import ActorNet.Proofs.Conservation
import ActorNet.Proofs.History
import ActorNet.Proofs.Reaction
import ActorNet.Proofs.Revision

set_option autoImplicit false

/-!
# Failures are isolated

A cycle in which some firings fail is compared with the same cycle from the same state, in which those actors
have been paused. The two runs go side by side: where the first one fires an actor in vain, the second one
skips it. All that differs is what the failed firings did to their own actors, and that they are reported.
-/
namespace ActorNet

variable {σ : Type}

def Outcome.isFault {ε α : Type} : Outcome ε α → Bool
  | .ok _ => false
  | .error _ | .panic _ => true

def Moment.Fails (m : Moment σ) (id : ActorId) : Prop :=
  m.mark = .fired id ∧ (m.before.registry.fireActor id).value.2.isFault = true

/-- What a failed firing consumes from a port. -/
def Moment.forfeits (m : Moment σ) (addr : PortAddr) : List Token :=
  match m.mark with
  | .fired id =>
    if (m.before.registry.fireActor id).value.2.isFault then m.before.registry.consumed addr (.fire id) else []
  | _ => []

def forfeited (moments : List (Moment σ)) (addr : PortAddr) : List Token :=
  moments.flatMap fun m => m.forfeits addr

namespace Registry

variable {r r' : Registry σ} {failed : List ActorId} {owed : PortAddr → List Token} {id : ActorId}

/-- The second registry is the first one, except for certain actors. Their inputs have in front what is owed to
them, and their outputs agree; their fields and statuses may differ. -/
structure Restored (failed : List ActorId) (owed : PortAddr → List Token) (r r' : Registry σ) : Prop where
  wires : r'.wires = r.wires
  ids : r'.ids = r.ids
  others : ∀ id ∉ failed, r'.entry? id = r.entry? id
  ports : ∀ addr, addr.actor ∈ failed → r'.portAt addr = (r.portAt addr).map fun port =>
    { port with queue := (if port.direction = .input then owed addr else []) ++ port.queue }

section Beside

variable {actor : Actor σ}

theorem cargo_of_wires (h : r'.wires = r.wires) (actor : Actor σ) : r'.cargo actor = r.cargo actor := by
  unfold cargo stock
  simp only [targets_of_wires h]

theorem spent_of_wires (h : r'.wires = r.wires) (actor : Actor σ) : r'.spent actor = r.spent actor := by
  rw [spent, spent, cargo_of_wires h]

theorem portAt_setActor_of_ne (r : Registry σ) {addr : PortAddr} (named : actor.id = id) (hne : addr.actor ≠ id) :
    (r.setActor id actor).portAt addr = r.portAt addr := by
  unfold portAt
  rw [r.actor?_setActor named]
  simp [hne]

namespace Restored

theorem actor? (h : r.Restored failed owed r') (hid : id ∉ failed) : r'.actor? id = r.actor? id := by
  unfold Registry.actor?
  rw [h.others id hid]

theorem isSome (h : r.Restored failed owed r') (addr : PortAddr) :
    (r'.portAt addr).isSome = (r.portAt addr).isSome := by
  by_cases haddr : addr.actor ∈ failed
  · rw [h.ports addr haddr, Option.isSome_map]
  · rw [portAt, h.actor? haddr]
    rfl

theorem setActor (h : r.Restored failed owed r') (hid : id ∉ failed) (named : actor.id = id) :
    (r.setActor id actor).Restored failed owed (r'.setActor id actor) where
  wires := h.wires
  ids := by
    rw [ids_setActor _ named, ids_setActor _ named]
    exact h.ids
  others other hother := by
    rw [entry?_setActor _ named, entry?_setActor _ named, h.others other hother]
  ports addr haddr := by
    have hne : addr.actor ≠ id := fun hsame => hid (hsame ▸ haddr)
    rw [portAt_setActor_of_ne _ named hne, portAt_setActor_of_ne _ named hne]
    exact h.ports addr haddr

theorem extend (h : r.Restored failed owed r') (more : PortAddr → List Token) :
    (r.extend more).Restored failed owed (r'.extend more) where
  wires := h.wires
  ids := by
    rw [ids_extend, ids_extend]
    exact h.ids
  others other hother := by
    rw [entry?_extend, entry?_extend, h.others other hother]
  ports addr haddr := by
    rw [portAt_extend, portAt_extend, h.ports addr haddr, Option.map_map, Option.map_map]
    congr 1
    funext port
    simp

theorem fireActor_snd (h : r.Restored failed owed r') (distinct : r.ids.Nodup) (hid : id ∉ failed) :
    (r'.fireActor id).value.2 = (r.fireActor id).value.2 := by
  have hactor' := h.actor? hid
  cases hactor : r.actor? id with
  | none =>
    rw [hactor] at hactor'
    rw [fireActor_unknown hactor, fireActor_unknown hactor']
  | some actor =>
    rw [hactor] at hactor'
    have hreached : ∀ cargo, r'.reached id cargo = r.reached id cargo := by
      intro cargo
      unfold reached
      simp only [targets_of_wires h.wires, h.isSome]
    rw [Registry.fireActor_snd distinct hactor, Registry.fireActor_snd (h.ids ▸ distinct) hactor',
      cargo_of_wires h.wires]
    simp only [hreached]

theorem fireActor (h : r.Restored failed owed r') (distinct : r.ids.Nodup) (hid : id ∉ failed) :
    (r.fireActor id).value.1.Restored failed owed (r'.fireActor id).value.1 := by
  have hactor' := h.actor? hid
  cases hactor : r.actor? id with
  | none =>
    rw [hactor] at hactor'
    rw [fireActor_unknown hactor, fireActor_unknown hactor']
    exact h
  | some actor =>
    rw [hactor] at hactor'
    have hbrought : r'.brought id (r.cargo actor) = r.brought id (r.cargo actor) :=
      funext fun addr => brought_of_wires h.wires id (r.cargo actor) addr
    rw [fireActor_fst distinct hactor, fireActor_fst (h.ids ▸ distinct) hactor', spent_of_wires h.wires,
      cargo_of_wires h.wires, hbrought]
    exact (h.setActor hid (spent_id hactor)).extend _

end Restored

end Beside

theorem fireActor_fault (wired : r.Wired) (fault : (r.fireActor id).value.2.isFault = true) {addr : PortAddr}
    {port : Port} (hport : r.portAt addr = some port) :
    ∃ queue, (r.fireActor id).value.1.portAt addr = some { port with queue } ∧
      port.queue = (if port.direction = .input then r.consumed addr (.fire id) else []) ++ queue := by
  rw [fireActor_value] at fault ⊢
  rcases hfiring : r.firing id with _ | ⟨fired, outcome⟩
  · have hunknown : r.actor? id = none := Option.map_eq_none_iff.mp hfiring
    exact ⟨port.queue, hport, by simp [consumed, hunknown]⟩
  · rw [hfiring] at fault
    obtain ⟨queue, hfired, houtput, hinput⟩ := firing_portAt wired hfiring hport
    have hqueue : Actor.producedBy outcome addr = [] →
        port.queue = (if port.direction = .input then r.consumed addr (.fire id) else []) ++ queue := by
      intro hnothing
      cases hdirection : port.direction with
      | input => exact (hinput hdirection).symm
      | output => simp [houtput hdirection, hnothing]
    cases outcome with
    | ok result =>
      dsimp only at fault
      split at fault <;> cases fault
    | error | panic => exact ⟨queue, hfired, hqueue rfl⟩

theorem Restored.fault (h : r.Restored failed owed r') (wired : r.Wired) (hid : id ∈ failed)
    (fault : (r.fireActor id).value.2.isFault = true) :
    (r.fireActor id).value.1.Restored failed (fun addr => owed addr ++ r.consumed addr (.fire id)) r' where
  wires := h.wires.trans (r.fireActor_alike id).wires.symm
  ids := h.ids.trans (r.ids_fireActor id).symm
  others other hother := by
    have hunaffected : other ∉ affectedBy (r.fireActor id).value.2 := by
      cases houtcome : (r.fireActor id).value.2 with
      | ok result =>
        rw [houtcome] at fault
        cases fault
      | error | panic => exact Std.ExtTreeSet.not_mem_empty
    have hne : other ≠ id := by
      rintro rfl
      exact hother hid
    rw [r.fireActor_other hne hunaffected]
    exact h.others other hother
  ports addr haddr := by
    rw [h.ports addr haddr]
    cases hport : r.portAt addr with
    | none =>
      have hgone := (r.fireActor_alike id).exists addr
      rw [hport] at hgone
      rw [Option.isNone_iff_eq_none.mp (Option.isSome_eq_false_iff.mp hgone)]
      rfl
    | some port =>
      obtain ⟨queue, hfired, hqueue⟩ := fireActor_fault wired fault hport
      rw [hfired, Option.map_some, Option.map_some, hqueue]
      cases port.direction <;> simp

def pausing (id : ActorId) : Operation σ := .edit (.pause id) trivial

def suspend (e : Entrant σ) : Entrant σ := { e with status := .paused }

theorem operate_pausing (r : Registry σ) (id : ActorId) : r.operate (pausing id) = r.modify id suspend := by
  change (r.edit (.pause id)).value.1 = _
  rw [edit_value, change, pause, setStatus, entry]
  cases hentry : r.entry? id with
  | some e => rfl
  | none =>
    have hsame : (r.entries.map fun e => if e.actor.id = id then suspend e else e) = r.entries.map fun e => e := by
      refine List.map_congr_left fun e he => if_neg ?_
      simpa using List.find?_eq_none.mp hentry e he
    rw [List.map_id'] at hsame
    exact congrArg (Registry.mk · r.wires) hsame.symm

theorem enabled_pausing (r : Registry σ) (id : ActorId) :
    (r.operate (pausing id)).enabled = r.enabled.filter (· ≠ id) := by
  have hname : ∀ e : Entrant σ, (if e.actor.id = id then suspend e else e).actor.id = e.actor.id := by
    intro e
    split <;> rfl
  have hstatus : ∀ e : Entrant σ, (if e.actor.id = id then suspend e else e).status.isEnabled =
      (decide (e.actor.id ≠ id) && e.status.isEnabled) := by
    intro e
    by_cases hid : e.actor.id = id
    · simp [hid, suspend, Status.isEnabled]
    · simp [hid]
  rw [operate_pausing]
  unfold enabled modify
  simp only [List.filter_map, List.map_map, List.filter_filter, Function.comp_def, hname, hstatus]

theorem enabled_after_pausing (r : Registry σ) (ids : List ActorId) :
    (r.after (ids.map pausing)).enabled = r.enabled.filter (· ∉ ids) := by
  induction ids generalizing r with
  | nil => simp [after]
  | cons id ids ih =>
    change ((r.operate (pausing id)).after (ids.map pausing)).enabled = _
    rw [ih, enabled_pausing, List.filter_filter]
    congr 1
    funext other
    simp [Bool.and_comm]

theorem Restored.pause (h : r.Restored failed owed r') (hid : id ∈ failed) :
    r.Restored failed owed (r'.operate (pausing id)) := by
  have hname : ∀ e : Entrant σ, e.actor.id = id → (suspend e).actor.id = id := fun _ h => h
  have hactor : ∀ e : Entrant σ, (suspend e).actor = e.actor := fun _ => rfl
  rw [operate_pausing]
  constructor
  case wires => exact h.wires
  case ids =>
    rw [r'.ids_modify hname]
    exact h.ids
  case others =>
    intro other hother
    have hne : other ≠ id := by
      rintro rfl
      exact hother hid
    rw [r'.entry?_modify_of_ne hname hne]
    exact h.others other hother
  case ports =>
    intro addr haddr
    rw [← h.ports addr haddr, portAt, r'.actor?_modify (fun actor => actor) hactor fun _ h => h]
    simp [portAt]

theorem Restored.pausing (r : Registry σ) (failed : List ActorId) :
    r.Restored failed (fun _ => []) (r.after (failed.map pausing)) := by
  suffices h : ∀ (ids : List ActorId) (r' : Registry σ), (∀ id ∈ ids, id ∈ failed) →
      r.Restored failed (fun _ => []) r' → r.Restored failed (fun _ => []) (r'.after (ids.map Registry.pausing)) by
    refine h failed r (fun _ hid => hid) ⟨rfl, rfl, fun _ _ => rfl, fun addr _ => ?_⟩
    simp
  intro ids
  induction ids with
  | nil => exact fun _ _ h => h
  | cons id ids ih =>
    intro r' hids h
    exact ih _ (fun other hother => hids other (List.mem_cons_of_mem _ hother)) (h.pause (hids id List.mem_cons_self))

end Registry

/-- The same scheduler over another registry, with another count of failed firings. -/
abbrev Scheduler.recast (s : Scheduler σ) (registry : Registry σ) (fireErrors : Nat) : Scheduler σ :=
  s.revised { registry := fun _ => registry, fireErrors := fun _ => fireErrors }

/-! ## Sweeps side by side -/

namespace Sweep

def record (sweep : Sweep) (id : ActorId) : Outcome FiringError FiringResult → Sweep
  | .ok result => { sweep with touched := sweep.touched ++ [id], total := sweep.total.merge result }
  | .error _ | .panic _ => { sweep with touched := sweep.touched ++ [id], failed := sweep.failed ++ [id] }

def spared (sweep : Sweep) (failed : List ActorId) : Sweep :=
  { sweep with touched := sweep.touched.filter (· ∉ failed), failed := [] }

variable {failed : List ActorId} {id : ActorId} {outcome : Outcome FiringError FiringResult}

theorem mem_record_failed (sweep : Sweep) {other : ActorId} :
    other ∈ (sweep.record id outcome).failed ↔ other ∈ sweep.failed ∨ (other = id ∧ outcome.isFault = true) := by
  cases outcome <;> simp [record, Outcome.isFault]

theorem spared_record_fault (sweep : Sweep) (hid : id ∈ failed) (fault : outcome.isFault = true) :
    (sweep.record id outcome).spared failed = sweep.spared failed := by
  cases outcome with
  | ok result => cases fault
  | error | panic => simp [record, spared, hid]

theorem spared_record (sweep : Sweep) (hid : id ∉ failed) (fine : outcome.isFault = false) :
    (sweep.record id outcome).spared failed = (sweep.spared failed).record id outcome := by
  cases outcome with
  | ok result => simp [record, spared, hid]
  | error | panic => cases fine

end Sweep

namespace Scheduler

variable {s s' : Scheduler σ} {sweep : Sweep} {failed : List ActorId} {owed : PortAddr → List Token}

theorem fireOne_sweep (s : Scheduler σ) (sweep : Sweep) (id : ActorId) :
    (s.fireOne sweep id).value.2 = sweep.record id (s.registry.fireActor id).value.2 := by
  unfold fireOne
  rw [Logged.value_bind]
  rcases (s.registry.fireActor id).value with ⟨registry, outcome⟩
  cases outcome <;> rfl

theorem fireOne_fine {id : ActorId} (fine : (s.registry.fireActor id).value.2.isFault = false) :
    (s.fireOne sweep id).value.1.stats = s.stats := by
  unfold fireOne
  rw [Logged.value_bind]
  rcases hvalue : (s.registry.fireActor id).value with ⟨registry, outcome⟩
  rw [hvalue] at fine
  cases outcome with
  | ok result => rfl
  | error | panic => cases fine

section Firing

variable {id : ActorId} {after : Scheduler σ}

theorem fails_firing {other : ActorId} :
    (⟨s, .fired id, after⟩ : Moment σ).Fails other ↔
      other = id ∧ (s.registry.fireActor id).value.2.isFault = true := by
  constructor
  · rintro ⟨hmark, hfault⟩
    cases hmark
    exact ⟨rfl, hfault⟩
  · rintro ⟨rfl, hfault⟩
    exact ⟨rfl, hfault⟩

theorem forfeited_fault (fault : (s.registry.fireActor id).value.2.isFault = true) (moments : List (Moment σ))
    (addr : PortAddr) :
    forfeited (⟨s, .fired id, after⟩ :: moments) addr =
      s.registry.consumed addr (.fire id) ++ forfeited moments addr :=
  congrArg (· ++ forfeited moments addr) (if_pos fault)

theorem forfeited_fine (fine : (s.registry.fireActor id).value.2.isFault = false) (moments : List (Moment σ))
    (addr : PortAddr) : forfeited (⟨s, .fired id, after⟩ :: moments) addr = forfeited moments addr :=
  congrArg (· ++ forfeited moments addr) (if_neg (ne_true_of_eq_false fine))

end Firing

theorem mem_fireEach_failed (only : Option ActorSet) (ids : List ActorId) (s : Scheduler σ) (sweep : Sweep)
    (id : ActorId) :
    id ∈ (fireEach only ids (s, sweep)).value.2.failed ↔
      id ∈ sweep.failed ∨ ∃ m ∈ firingEach only ids (s, sweep), m.Fails id := by
  induction ids generalizing s sweep with
  | nil => simp [fireEach, firingEach]
  | cons head ids ih =>
    rw [fireEach, firingEach]
    split
    · have hone : id ∈ (s.fireOne sweep head).value.2.failed ↔
          id ∈ sweep.failed ∨ (id = head ∧ (s.registry.fireActor head).value.2.isFault = true) := by
        rw [fireOne_sweep]
        exact sweep.mem_record_failed
      rw [Logged.value_bind, ih, hone, List.exists_mem_cons_iff, fails_firing, or_assoc]
    · exact ih s sweep

/-- Before the rest of a sweep each actor is registered once, and each of those to be fired is named once and
has not failed yet. -/
structure Orderly (todo : List ActorId) (s : Scheduler σ) (sweep : Sweep) : Prop where
  wired : s.registry.Wired
  distinct : s.registry.ids.Nodup
  once : todo.Nodup
  fresh : ∀ id ∈ todo, id ∉ sweep.failed

namespace Orderly

variable {id : ActorId} {todo : List ActorId}

theorem start (wired : s.registry.Wired) (distinct : s.registry.ids.Nodup) : Orderly s.registry.enabled s {} where
  wired := wired
  distinct := distinct
  once := distinct.sublist (List.filter_sublist.map _)
  fresh _ _ := List.not_mem_nil

theorem skip (h : Orderly (id :: todo) s sweep) : Orderly todo s sweep where
  wired := h.wired
  distinct := h.distinct
  once := (List.nodup_cons.mp h.once).2
  fresh other hother := h.fresh other (List.mem_cons_of_mem _ hother)

theorem fire (h : Orderly (id :: todo) s sweep) :
    Orderly todo (s.fireOne sweep id).value.1 (s.fireOne sweep id).value.2 where
  wired := by
    rw [fireOne_registry]
    exact h.wired.alike (s.registry.fireActor_alike id)
  distinct := by
    rw [fireOne_registry, Registry.ids_fireActor]
    exact h.distinct
  once := h.skip.once
  fresh other hother hfailed := by
    rw [fireOne_sweep, Sweep.mem_record_failed] at hfailed
    rcases hfailed with hbefore | ⟨rfl, -⟩
    · exact h.skip.fresh other hother hbefore
    · exact (List.nodup_cons.mp h.once).1 hother

theorem fine (h : Orderly (id :: todo) s sweep) (fine : (s.registry.fireActor id).value.2.isFault = false)
    (only : Option ActorSet) : id ∉ (fireEach only todo (s.fireOne sweep id).value).value.2.failed := by
  intro hfailed
  rw [mem_fireEach_failed, fireOne_sweep, Sweep.mem_record_failed, fine] at hfailed
  rcases hfailed with (hbefore | ⟨-, hfault⟩) | ⟨m, hm, hfails⟩
  · exact h.fresh id List.mem_cons_self hbefore
  · cases hfault
  · obtain ⟨other, hother, hmark⟩ := mark_of_mem_firingEach hm
    rw [hfails.1] at hmark
    cases hmark
    exact (List.nodup_cons.mp h.once).1 hother

end Orderly

/-- Two sweeps side by side, the second one without those that fail in the first one. Each of them is fired
once, so that it either fails or does the same in both. -/
theorem fireEach_restored (only : Option ActorSet) (todo : List ActorId) (orderly : Orderly todo s sweep)
    (h : s.registry.Restored failed owed s'.registry)
    (fails : (fireEach only todo (s, sweep)).value.2.failed = failed) :
    let first := (fireEach only todo (s, sweep)).value
    let second := (fireEach only (todo.filter (· ∉ failed)) (s', sweep.spared failed)).value
    first.1.registry.Restored failed (fun addr => owed addr ++ forfeited (firingEach only todo (s, sweep)) addr)
        second.1.registry ∧
      second.2 = first.2.spared failed ∧ second.1.stats = s'.stats := by
  induction todo generalizing s s' sweep owed with
  | nil =>
    refine ⟨?_, rfl, rfl⟩
    simp only [firingEach, forfeited, List.flatMap_nil, List.append_nil]
    exact h
  | cons id todo ih =>
    by_cases honly : only.all (·.contains id) = true
    case neg =>
      rw [fireEach, if_neg honly] at fails ⊢
      rw [firingEach, if_neg honly]
      by_cases hid : id ∈ failed
      · rw [List.filter_cons_of_neg (by simpa using hid)]
        exact ih orderly.skip h fails
      · rw [List.filter_cons_of_pos (by simpa using hid), fireEach, if_neg honly]
        exact ih orderly.skip h fails
    case pos =>
      have hsweep := s.fireOne_sweep sweep id
      rw [fireEach, if_pos honly, Logged.value_bind] at fails ⊢
      rw [firingEach, if_pos honly]
      cases hfault : (s.registry.fireActor id).value.2.isFault with
      | true =>
        -- The second sweep leaves the actor out, and what it loses in the first one is owed to it.
        have hid : id ∈ failed := by
          rw [← fails, mem_fireEach_failed, hsweep, Sweep.mem_record_failed]
          exact .inl (.inr ⟨rfl, hfault⟩)
        have hbeside := h.fault orderly.wired hid hfault
        rw [← s.fireOne_registry sweep id] at hbeside
        have hrest := ih orderly.fire hbeside fails
        rw [hsweep, sweep.spared_record_fault hid hfault, ← hsweep] at hrest
        rw [List.filter_cons_of_neg (by simpa using hid)]
        simp only [forfeited_fault hfault, ← List.append_assoc]
        exact hrest
      | false =>
        -- Both sweeps fire the actor, with the same outcome.
        have hid : id ∉ failed := fails ▸ orderly.fine hfault only
        have houtcome := h.fireActor_snd orderly.distinct hid
        have hbeside := h.fireActor orderly.distinct hid
        rw [← s.fireOne_registry sweep id, ← s'.fireOne_registry (sweep.spared failed) id] at hbeside
        have hrest := ih orderly.fire hbeside fails
        have hsweep' := s'.fireOne_sweep (sweep.spared failed) id
        rw [houtcome, ← sweep.spared_record hid hfault, ← hsweep] at hsweep'
        rw [← hsweep', fireOne_fine (houtcome ▸ hfault)] at hrest
        rw [List.filter_cons_of_pos (by simpa using hid), fireEach, if_pos honly, Logged.value_bind]
        simp only [forfeited_fine hfault]
        exact hrest

/-! ## Cycles side by side -/

def firings (s : Scheduler σ) (all : Bool) : List (Moment σ) :=
  firingEach (s.scope all) s.registry.enabled (s.takePending.2, {})

def ready (s : Scheduler σ) (all : Bool) : Scheduler σ := (s.openCycle all).drain.value

theorem cycling_firings (s : Scheduler σ) (all : Bool) :
    ∃ opening closing, s.cycling all = opening ++ (s.ready all).firings all ++ closing ∧
      ∀ m ∈ opening ++ closing, ∀ id, m.mark ≠ .fired id := by
  refine ⟨s.opening all :: (s.openCycle all).draining, [_], (List.append_assoc _ _ _).symm, ?_⟩
  intro m hm id hfired
  rcases List.mem_append.mp hm with hopening | hclosing
  · rcases List.mem_cons.mp hopening with rfl | hobeyed
    · cases hfired
    · obtain ⟨command, hmark⟩ := mark_of_mem_obeyingEach hobeyed
      rw [hmark] at hfired
      cases hfired
  · rw [List.mem_singleton.mp hclosing] at hfired
    cases hfired

theorem exists_fails_cycling (s : Scheduler σ) (all : Bool) (id : ActorId) :
    (∃ m ∈ s.cycling all, m.Fails id) ↔ ∃ m ∈ (s.ready all).firings all, m.Fails id := by
  obtain ⟨opening, closing, hcycling, hnone⟩ := s.cycling_firings all
  rw [hcycling]
  constructor
  · rintro ⟨m, hm, hfails⟩
    simp only [List.mem_append] at hm hnone
    rcases hm with (hm | hm) | hm
    · exact absurd hfails.1 (hnone m (.inl hm) id)
    · exact ⟨m, hm, hfails⟩
    · exact absurd hfails.1 (hnone m (.inr hm) id)
  · rintro ⟨m, hm, hfails⟩
    exact ⟨m, List.mem_append_left _ (List.mem_append_right _ hm), hfails⟩

theorem forfeited_cycling (s : Scheduler σ) (all : Bool) :
    forfeited (s.cycling all) = forfeited ((s.ready all).firings all) := by
  obtain ⟨opening, closing, hcycling, hnone⟩ := s.cycling_firings all
  have hnothing : ∀ m ∈ opening ++ closing, ∀ addr, m.forfeits addr = [] := by
    intro m hm addr
    unfold Moment.forfeits
    split
    case h_1 id hmark => exact absurd hmark (hnone m hm id)
    case h_2 => rfl
  funext addr
  have hopening : forfeited opening addr = [] :=
    List.flatMap_eq_nil_iff.mpr fun m hm => hnothing m (List.mem_append_left _ hm) addr
  have hclosing : forfeited closing addr = [] :=
    List.flatMap_eq_nil_iff.mpr fun m hm => hnothing m (List.mem_append_right _ hm) addr
  rw [hcycling, forfeited, List.flatMap_append, List.flatMap_append]
  change forfeited opening addr ++ _ ++ forfeited closing addr = _
  rw [hopening, hclosing, List.append_nil]
  rfl

theorem fireEach_recast (only : Option ActorSet) (ids : List ActorId) (s : Scheduler σ) (sweep : Sweep) :
    (fireEach only ids (s, sweep)).value.1 =
      s.recast (fireEach only ids (s, sweep)).value.1.registry
        (fireEach only ids (s, sweep)).value.1.stats.fireErrors := by
  obtain ⟨registry, fireErrors, hframe⟩ := fireEach_frame only ids s sweep
  rw [hframe]
  rfl

theorem sweepActors_restored (all : Bool) {registry : Registry σ} (fireErrors : Nat) (wired : s.registry.Wired)
    (distinct : s.registry.ids.Nodup) (h : s.registry.Restored failed (fun _ => []) registry)
    (enabled : registry.enabled = s.registry.enabled.filter (· ∉ failed))
    (fails : (s.sweepActors all).2.failed = failed) :
    let first := s.sweepActors all
    let second := (s.recast registry fireErrors).sweepActors all
    first.1.registry.Restored failed (forfeited (s.firings all)) second.1.registry ∧
      second = (first.1.recast second.1.registry fireErrors, first.2.spared failed) := by
  let start := s.takePending.2
  let left := s.registry.enabled.filter (· ∉ failed)
  have hstart : start.registry = s.registry := s.takePending_registry
  have hbeside : start.registry.Restored failed (fun _ => []) (start.recast registry fireErrors).registry :=
    hstart ▸ h
  have hsecond : (s.recast registry fireErrors).sweepActors all =
      (fireEach (s.scope all) left (start.recast registry fireErrors, {})).value := by
    change (fireEach (s.scope all) registry.enabled ((s.recast registry fireErrors).takePending.2, {})).value = _
    rw [enabled, takePending_revised]
  have horderly : Orderly s.registry.enabled start {} := by
    rw [← hstart]
    exact .start (hstart ▸ wired) (hstart ▸ distinct)
  obtain ⟨hregistry, hsweep, hstats⟩ := fireEach_restored (s.scope all) s.registry.enabled horderly hbeside fails
  have hstate := fireEach_recast (s.scope all) left (start.recast registry fireErrors) {}
  have herrors : (fireEach (s.scope all) left (start.recast registry fireErrors, {})).value.1.stats.fireErrors =
      fireErrors := congrArg Stats.fireErrors hstats
  have hfirst : (s.sweepActors all).1 = start.recast _ _ := fireEach_recast (s.scope all) s.registry.enabled start {}
  dsimp only
  rw [hsecond]
  refine ⟨hregistry, Prod.ext ?_ hsweep⟩
  rw [herrors] at hstate
  rw [hfirst]
  exact hstate

theorem closeCycle_failed (s : Scheduler σ) (cycle : Nat) (all active : Bool) :
    (s.closeCycle cycle all active).2.failed = (s.sweepActors all).2.failed := rfl

theorem closeCycle_recast {registry : Registry σ} {fireErrors : Nat} {touched failed : List ActorId} (all : Bool)
    (pending : s'.pending = s.pending)
    (h : s'.sweepActors all =
      ((s.sweepActors all).1.recast registry fireErrors, { (s.sweepActors all).2 with touched, failed }))
    (cycle : Nat) (active : Bool) :
    s'.closeCycle cycle all active =
      ((s.closeCycle cycle all active).1.recast registry fireErrors,
        { (s.closeCycle cycle all active).2 with touched, failed }) := by
  unfold closeCycle
  rw [h, pending]
  dsimp only
  rw [countFiring_revised, follow_revised]

theorem closeCycle_spared {registry : Registry σ} {fireErrors : Nat} (all : Bool) (pending : s'.pending = s.pending)
    (h : s'.sweepActors all = ((s.sweepActors all).1.recast registry fireErrors, (s.sweepActors all).2.spared failed))
    (cycle : Nat) (active : Bool) :
    s'.closeCycle cycle all active =
      ((s.closeCycle cycle all active).1.recast registry fireErrors,
        { (s.closeCycle cycle all active).2 with
          touched := (s.closeCycle cycle all active).2.touched.filter (· ∉ failed)
          failed := [] }) := closeCycle_recast all pending h cycle active

theorem closeCycle_restored (wired : s.registry.Wired) (distinct : s.registry.ids.Nodup) (fireErrors cycle : Nat)
    (all active : Bool) :
    let first := s.closeCycle cycle all active
    let paused := s.registry.after (first.2.failed.map Registry.pausing)
    let second := (s.recast paused fireErrors).closeCycle cycle all active
    first.1.registry.Restored first.2.failed (forfeited (s.firings all)) second.1.registry ∧
      second = (first.1.recast second.1.registry fireErrors,
        { first.2 with touched := first.2.touched.filter (· ∉ first.2.failed), failed := [] }) := by
  dsimp only
  rw [closeCycle_failed, closeCycle_registry]
  generalize hfailed : (s.sweepActors all).2.failed = failed
  let paused := s.registry.after (failed.map Registry.pausing)
  obtain ⟨hrestored, hsweep⟩ := sweepActors_restored all fireErrors wired distinct
    (Registry.Restored.pausing s.registry failed) (Registry.enabled_after_pausing s.registry failed) hfailed
  have hpending : (s.recast paused fireErrors).pending = s.pending := rfl
  have hclosed := closeCycle_spared all hpending hsweep cycle active
  rw [hclosed]
  exact ⟨hrestored, rfl⟩

theorem ready_recast (s : Scheduler σ) (registry : Registry σ) (fireErrors : Nat) (all : Bool) :
    (s.recast registry fireErrors).ready all = (s.ready all).recast registry fireErrors :=
  (s.openCycle all).drain_revised _

theorem ready_registry (s : Scheduler σ) (all : Bool) : (s.ready all).registry = s.registry :=
  congrArg (·.registry) (s.ready_recast s.registry s.stats.fireErrors all)

def withPaused (s : Scheduler σ) (ids : List ActorId) : Scheduler σ :=
  { s with registry := s.registry.after (ids.map Registry.pausing) }

theorem loopOnce_ready (s : Scheduler σ) (all : Bool) :
    (s.loopOnce all).value =
      (s.ready all).closeCycle (s.beginCycle all).cycle all (s.beginCycle all).pollMonitor.1 :=
  s.loopOnce_value all

theorem loopOnce_withPaused (s : Scheduler σ) (ids : List ActorId) (all : Bool) :
    ((s.withPaused ids).loopOnce all).value =
      ((s.ready all).recast ((s.ready all).registry.after (ids.map Registry.pausing)) s.stats.fireErrors).closeCycle
        (s.beginCycle all).cycle all (s.beginCycle all).pollMonitor.1 := by
  rw [loopOnce_value, ready_registry, ← ready_recast]
  rfl

/-- How a cycle compares with the same cycle from the same state, in which the actors that fail in the first one
are paused. The second one reports nobody as failed and counts no failure; otherwise it reports and decides the
same, and it leaves the same behind but for what the failed firings have taken from the inputs of their actors. -/
structure Isolation (s : Scheduler σ) (all : Bool) (first second : Scheduler σ × CycleReport) : Prop where
  failed : ∀ id, id ∈ first.2.failed ↔ ∃ m ∈ s.cycling all, m.Fails id
  report : second.2 = { first.2 with touched := first.2.touched.filter (· ∉ first.2.failed), failed := [] }
  state : second.1 = first.1.recast second.1.registry s.stats.fireErrors
  registry : first.1.registry.Restored first.2.failed (forfeited (s.cycling all)) second.1.registry

/-- In a cycle, those that fail make no difference to anybody else. -/
def Isolated (s : Scheduler σ) (all : Bool) : Prop :=
  let first := (s.loopOnce all).value
  s.Isolation all first ((s.withPaused first.2.failed).loopOnce all).value

theorem loopOnce_isolated (wired : s.registry.Wired) (distinct : s.registry.ids.Nodup) (all : Bool) :
    s.Isolated all := by
  rw [← s.ready_registry all] at wired distinct
  obtain ⟨hrestored, hsecond⟩ := closeCycle_restored wired distinct s.stats.fireErrors (s.beginCycle all).cycle all
    (s.beginCycle all).pollMonitor.1
  rw [← loopOnce_ready, ← loopOnce_withPaused] at hrestored hsecond
  obtain ⟨hstate, hreport⟩ := Prod.ext_iff.mp hsecond
  refine ⟨fun id => ?_, hreport, hstate, ?_⟩
  · rw [exists_fails_cycling, loopOnce_ready, closeCycle_failed]
    exact (mem_fireEach_failed _ _ _ {} id).trans (or_iff_right List.not_mem_nil)
  · rw [forfeited_cycling]
    exact hrestored

end Scheduler

/-- In every cycle, from every state over a registry that has come about, failures are isolated. -/
theorem Scheduler.failures_isolated (operations : List (Registry.Operation σ)) (s : Scheduler σ) (all : Bool) :
    ({ s with registry := Registry.empty.after operations } : Scheduler σ).Isolated all :=
  loopOnce_isolated (Registry.wired_empty.after operations)
    (Registry.after_distinct (r := Registry.empty) List.nodup_nil operations) all

def sink : ActorType Unit where
  name := "sink"
  inputs := ["in"]
  outputs := []
  actions := [⟨"take", ⟨["in"], []⟩, none, fun state _ => (state, .ok [])⟩]
  handler := none
  hooks := .none
  valid := by
    refine ⟨nofun, by decide, List.nodup_singleton _, ?_⟩
    simp [Declaration.Accepts]

def sinking : Scheduler Unit where
  config := {}
  registry := Registry.empty.after
    [.edit (.add (.new ⟨"a"⟩ sink ())) (Actor.fits_new _ _ _),
      .edit (.add (.new ⟨"b"⟩ sink ())) (Actor.fits_new _ _ _),
      .edit (.add (.new ⟨"c"⟩ sink ())) (Actor.fits_new _ _ _),
      .edit (.push ⟨⟨"a"⟩, "in"⟩ (.data .null)) trivial,
      .edit (.push ⟨⟨"b"⟩, "in"⟩ .endOfStream) trivial,
      .edit (.push ⟨⟨"c"⟩, "in"⟩ (.data .null)) trivial]

example :
    (sinking.loopOnce true).value.2.touched = [⟨"a"⟩, ⟨"b"⟩, ⟨"c"⟩] ∧
      (sinking.loopOnce true).value.2.failed = [⟨"b"⟩] ∧
      forfeited (sinking.cycling true) ⟨⟨"b"⟩, "in"⟩ = [.endOfStream] ∧
      ((sinking.withPaused [⟨"b"⟩]).loopOnce true).value.2.touched = [⟨"a"⟩, ⟨"c"⟩] :=
  ⟨rfl, rfl, rfl, rfl⟩

end ActorNet
