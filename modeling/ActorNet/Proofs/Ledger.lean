import ActorNet.Proofs.Conservation
import ActorNet.Proofs.Reaction
import ActorNet.Proofs.Reports

set_option autoImplicit false

/-!
# The books of a registry

A registry keeps books: who is registered, the order in which they have registered, and for each wired output the
inputs that it leads to. Each book is kept on its own as the operations enter in it, and the books stay consistent with
each other and with the ports of the actors. So a delivery finds every port that it sends to, and a cycle every actor
that it fires.
-/
namespace ActorNet

variable {σ : Type}

/-- Outputs, each with the inputs that it leads to. -/
abbrev Connections := Std.ExtTreeMap PortAddr (List PortAddr) compare

namespace Connections

def connect (connections : Connections) (wire : Wire) : Connections :=
  let targets := (connections[wire.source]?).getD []
  connections.insert wire.source (if wire.target ∈ targets then targets else targets ++ [wire.target])

/-- An actor's own outputs go, and so do the ones that lead to no other actor. -/
def forget (connections : Connections) (id : ActorId) : Connections :=
  connections.filterMap fun source targets =>
    let kept := targets.filter (·.actor ≠ id)
    if source.actor ≠ id ∧ kept ≠ [] then some kept else none

theorem connect_getElem? (connections : Connections) (wire : Wire) (source : PortAddr) :
    (connections.connect wire)[source]? =
      if wire.source = source then
        some (if wire.target ∈ (connections[source]?).getD [] then (connections[source]?).getD []
          else (connections[source]?).getD [] ++ [wire.target])
      else connections[source]? := by
  rw [connect, Std.ExtTreeMap.getElem?_insert]
  by_cases hsource : wire.source = source <;> simp [hsource]

theorem forget_getElem? (connections : Connections) (id : ActorId) (source : PortAddr) :
    (connections.forget id)[source]? = (connections[source]?).bind fun targets =>
      if source.actor ≠ id ∧ targets.filter (·.actor ≠ id) ≠ [] then some (targets.filter (·.actor ≠ id))
      else none := Std.ExtTreeMap.getElem?_filterMap'

end Connections

inductive Record where
  | joined (id : ActorId)
  | left (id : ActorId)
  | wired (wire : Wire)
deriving DecidableEq

@[ext]
structure Ledger where
  actors : ActorSet := ∅
  order : List ActorId := []
  connections : Connections := ∅

def Ledger.enter (ledger : Ledger) : Record → Ledger
  | .joined id => { ledger with actors := ledger.actors.insert id, order := ledger.order ++ [id] }
  | .left id =>
    { actors := ledger.actors.erase id
      order := ledger.order.filter (· ≠ id)
      connections := ledger.connections.forget id }
  | .wired wire => { ledger with connections := ledger.connections.connect wire }

/-- Those who have joined and not left since, in the order in which they joined. -/
def survivors : List Record → List ActorId
  | [] => []
  | .joined id :: records => if .left id ∈ records then survivors records else id :: survivors records
  | .left _ :: records | .wired _ :: records => survivors records

theorem survivors_joined (records : List Record) (id : ActorId) :
    survivors (records ++ [.joined id]) = survivors records ++ [id] := by
  induction records with
  | nil => simp [survivors]
  | cons record records ih =>
    cases record with
    | joined other =>
      rw [List.cons_append, survivors, survivors, ih]
      by_cases hleft : .left other ∈ records <;> simp [hleft]
    | left | wired => exact ih

theorem survivors_left (records : List Record) (id : ActorId) :
    survivors (records ++ [.left id]) = (survivors records).filter (· ≠ id) := by
  induction records with
  | nil => rfl
  | cons record records ih =>
    cases record with
    | joined other =>
      rw [List.cons_append, survivors, survivors, ih]
      by_cases hleft : .left other ∈ records
      · simp [hleft]
      · by_cases hother : other = id
        · subst hother
          simp [hleft]
        · simp [hleft, hother]
    | left | wired => exact ih

theorem survivors_wired (records : List Record) (wire : Wire) :
    survivors (records ++ [.wired wire]) = survivors records := by
  induction records with
  | nil => rfl
  | cons record records ih =>
    cases record with
    | joined other =>
      rw [List.cons_append, survivors, survivors, ih]
      simp
    | left | wired => exact ih

theorem order_foldl (records : List Record) : (records.foldl Ledger.enter {}).order = survivors records := by
  induction records using List.reverseRecOn with
  | nil => rfl
  | append_singleton records record ih =>
    rw [List.foldl_append, List.foldl_cons, List.foldl_nil]
    cases record with
    | joined id =>
      rw [survivors_joined, ← ih]
      rfl
    | left id =>
      rw [survivors_left, ← ih]
      rfl
    | wired wire =>
      rw [survivors_wired, ← ih]
      rfl

namespace Registry

def connections (r : Registry σ) : Connections := r.wires.foldl Connections.connect ∅

def ledger (r : Registry σ) : Ledger where
  actors := .ofList r.ids compare
  order := r.ids
  connections := r.connections

theorem connections_getElem? {r : Registry σ} (distinct : r.wires.Nodup) (source : PortAddr) :
    r.connections[source]? = if r.targets source = [] then none else some (r.targets source) := by
  suffices h : ∀ wires : List Wire, wires.Nodup →
      (wires.foldl Connections.connect ∅)[source]? =
        if (wires.filter (·.source = source)).map (·.target) = [] then none
        else some ((wires.filter (·.source = source)).map (·.target)) from h r.wires distinct
  intro wires
  induction wires using List.reverseRecOn with
  | nil => exact fun _ => Std.ExtTreeMap.getElem?_empty
  | append_singleton wires wire ih =>
    intro hdistinct
    let targets := (wires.filter (·.source = source)).map (·.target)
    have hold : ((wires.foldl Connections.connect ∅)[source]?).getD [] = targets := by
      rw [ih hdistinct.of_append_left]
      change (if targets = [] then none else some targets).getD [] = targets
      by_cases hnone : targets = [] <;> simp [hnone]
    rw [List.foldl_append, List.foldl_cons, List.foldl_nil, Connections.connect_getElem?, hold,
      ih hdistinct.of_append_left, List.filter_append, List.map_append]
    by_cases hsource : wire.source = source
    · subst hsource
      have hfresh : wire.target ∉ targets := by
        intro hmem
        obtain ⟨other, hother, htarget⟩ := List.mem_map.mp hmem
        obtain ⟨hwire, hsame⟩ := List.mem_filter.mp hother
        have heq : other = wire := by
          cases other
          cases wire
          exact congr (congrArg Wire.mk (of_decide_eq_true hsame)) htarget
        exact List.disjoint_of_nodup_append hdistinct (heq ▸ hwire) List.mem_cons_self
      rw [if_pos rfl, if_neg hfresh]
      simp [targets]
    · simp [hsource]

theorem targets_without (r : Registry σ) (id : ActorId) (source : PortAddr) :
    (r.without id).targets source =
      if source.actor = id then [] else (r.targets source).filter (·.actor ≠ id) := by
  unfold targets without wiresWithout
  rw [List.filter_filter]
  by_cases hsource : source.actor = id
  · rw [if_pos hsource, List.map_eq_nil_iff, List.filter_eq_nil_iff]
    rintro wire -
    by_cases hwire : wire.source = source <;> simp [hwire, hsource]
  · rw [if_neg hsource, List.filter_map, List.filter_filter]
    refine congrArg _ (List.filter_congr fun wire _ => ?_)
    by_cases hwire : wire.source = source <;> simp [hwire, hsource]

theorem connections_without {r : Registry σ} (distinct : r.wires.Nodup) (id : ActorId) :
    (r.without id).connections = r.connections.forget id := by
  refine Std.ExtTreeMap.ext_getElem? fun source => ?_
  have hkept : (r.without id).wires.Nodup := distinct.filter _
  rw [connections_getElem? hkept, Connections.forget_getElem?, connections_getElem? distinct, targets_without]
  by_cases hsource : source.actor = id
  · simp [hsource]
  · rw [if_neg hsource]
    by_cases hnone : r.targets source = []
    · simp [hnone]
    · rw [if_neg hnone, Option.bind_some]
      by_cases hgone : (r.targets source).filter (·.actor ≠ id) = []
      · rw [if_pos hgone, if_neg fun hsome => hsome.2 hgone]
      · rw [if_neg hgone, if_pos ⟨hsource, hgone⟩]

theorem connections_known {r : Registry σ} (distinct : r.wires.Nodup) {wire : Wire} (known : wire ∈ r.wires) :
    r.connections.connect wire = r.connections := by
  refine Std.ExtTreeMap.ext_getElem? fun source => ?_
  rw [Connections.connect_getElem?, connections_getElem? distinct]
  by_cases hsource : wire.source = source
  · subst hsource
    have hmem : wire.target ∈ r.targets wire.source := mem_targets.mpr known
    have hsome : r.targets wire.source ≠ [] := List.ne_nil_of_mem hmem
    simp [hsome, hmem]
  · rw [if_neg hsource]

def entered? : Edit σ → Except ActorError (Reply σ) → Option Record
  | .add actor, .ok _ => some (.joined actor.id)
  | .remove id, .ok _ => some (.left id)
  | .connect source target, .ok _ => some (.wired ⟨source, target⟩)
  | _, _ => none

def record? (r : Registry σ) : Operation σ → Option Record
  | .fire _ => none
  | .edit change _ => entered? change (r.edit change).value.2

def records : Registry σ → List (Operation σ) → List Record
  | _, [] => []
  | r, operation :: operations => (r.record? operation).toList ++ records (r.operate operation) operations

theorem ledger_congr {r r' : Registry σ} (ids : r'.ids = r.ids) (wires : r'.wires = r.wires) :
    r'.ledger = r.ledger := by
  rw [ledger, ledger, connections, connections, ids, wires]

theorem ledger_enroll (r : Registry σ) (actor : Actor σ) :
    (r.enroll actor).ledger = r.ledger.enter (.joined actor.id) := by
  have hids : (r.enroll actor).ids = r.ids ++ [actor.id] := List.map_append
  refine Ledger.ext (Std.ExtTreeSet.ext_mem fun id => ?_) hids rfl
  simp [ledger, Ledger.enter, hids, or_comm, @eq_comm _ id]

theorem ledger_without {r : Registry σ} (distinct : r.wires.Nodup) (id : ActorId) :
    (r.without id).ledger = r.ledger.enter (.left id) := by
  have hids : (r.without id).ids = r.ids.filter (· ≠ id) := by
    simp [ids, without, List.filter_map, Function.comp_def]
  refine Ledger.ext (Std.ExtTreeSet.ext_mem fun other => ?_) hids (connections_without distinct id)
  simp [ledger, Ledger.enter, hids, and_comm, @eq_comm _ id]

theorem ledger_connected {r : Registry σ} (distinct : r.wires.Nodup) {wire : Wire} (known : wire ∈ r.wires) :
    r.ledger.enter (.wired wire) = r.ledger :=
  Ledger.ext rfl rfl (connections_known distinct known)

theorem ledger_operate {r : Registry σ} (distinct : r.wires.Nodup) (operation : Operation σ) :
    (r.operate operation).ledger = (r.record? operation).elim r.ledger r.ledger.enter := by
  cases operation with
  | fire id => exact ledger_congr (r.ids_fireActor id) (r.fireActor_alike id).wires
  | edit change fits =>
    rw [operate, record?, edit_value]
    have hchanged := r.change_changed change
    generalize r.change change = changed at hchanged ⊢
    obtain ⟨r', answer⟩ := changed
    cases hchanged with
    | refused change e => cases change <;> rfl
    | added actor => exact r.ledger_enroll actor
    | removed id => exact ledger_without distinct id
    | paused | resumed | terminated | left | pushed | drained =>
      exact ledger_congr (r.ids_modify fun _ hnamed => hnamed) rfl
    | arrived id e actor hentry _ hanswer =>
      exact ledger_congr (r.ids_modify fun _ _ => didMigrate_named hentry hanswer) rfl
    | turnedBack id e actor _ hentry _ hanswer =>
      exact ledger_congr (r.ids_modify fun _ _ => didMigrate_named hentry hanswer) rfl
    | connected source target => exact Ledger.ext rfl rfl List.foldl_append
    | connectedBefore source target known => exact (ledger_connected distinct known).symm

theorem ledger_after {r : Registry σ} (h : r.Wired) (operations : List (Operation σ)) :
    (r.after operations).ledger = (r.records operations).foldl Ledger.enter r.ledger := by
  induction operations generalizing r with
  | nil => rfl
  | cons operation operations ih =>
    rw [records, List.foldl_append]
    refine (ih (h.operate operation)).trans (congrArg (List.foldl _ · _) ?_)
    rw [ledger_operate h.distinct]
    cases r.record? operation <;> rfl

theorem Wired.deliver_snd {r : Registry σ} (h : r.Wired) (id : ActorId) :
    (r.deliver id).2 = (r.outgoing id).flatMap fun (name, _) => (r.targets ⟨id, name⟩).map (·.actor) := by
  rw [deliver_eq, sendEach_snd, List.nil_append]
  refine congrArg (List.flatMap · _) (funext fun ⟨name, tokens⟩ => congrArg _ (List.filter_eq_self.mpr ?_))
  intro target htarget
  obtain ⟨port, hport, -⟩ := Option.map_eq_some_iff.mp (target_input h htarget)
  rw [emptied_portAt, Option.isSome_map, hport]
  rfl

theorem infix_flatMap {α β : Type} {a : α} {as : List α} (h : a ∈ as) (f : α → List β) : f a <:+: as.flatMap f :=
  List.infix_of_mem_flatten (List.mem_map_of_mem h)

/-- All that is drained from an actor reaches each input that it is sent to. -/
structure Forwarded (r : Registry σ) (id : ActorId) : Prop where
  reached : (r.deliver id).2 = (r.outgoing id).flatMap fun (name, _) => (r.targets ⟨id, name⟩).map (·.actor)
  arrived : ∀ name tokens, (name, tokens) ∈ r.outgoing id → ∀ target ∈ r.targets ⟨id, name⟩,
    ∃ port, (r.deliver id).1.portAt target = some port ∧ port.direction = .input ∧ tokens <:+: port.queue

theorem Wired.forwarded {r : Registry σ} (h : r.Wired) (id : ActorId) : r.Forwarded id where
  reached := h.deliver_snd id
  arrived := by
    intro name tokens houtgoing target htarget
    obtain ⟨port, hport, hinput⟩ := Option.map_eq_some_iff.mp (target_input h htarget)
    have hsent : tokens <:+: r.brought id (r.outgoing id) target := by
      have hcopy := infix_flatMap htarget fun addr => if addr = target then tokens else []
      rw [if_pos rfl] at hcopy
      exact hcopy.trans (infix_flatMap houtgoing fun entry =>
        (r.targets ⟨id, entry.1⟩).flatMap fun addr => if addr = target then entry.2 else [])
    rw [deliver_portAt, hport]
    exact ⟨_, rfl, hinput, hsent.trans (List.suffix_append _ _).isInfix⟩

/-- The books tell who is registered and which ports are wired, and they are what has been entered in them. -/
structure Consistent (r : Registry σ) (entered : List Record) : Prop where
  kept : r.ledger = entered.foldl Ledger.enter {}
  order : r.ids = survivors entered
  once : r.ids.Nodup
  registered : ∀ id, (id ∈ r.ids ↔ r.contains id = true) ∧ (id ∈ r.ledger.actors ↔ r.contains id = true)
  wired : ∀ source targets, r.connections[source]? = some targets →
    (r.portAt source).map Port.direction = some .output ∧ targets ≠ [] ∧ targets.Nodup ∧
      ∀ target ∈ targets, (r.portAt target).map Port.direction = some .input
  targets : ∀ source, r.targets source = (r.connections[source]?).getD []
  enabled : r.enabled.Nodup
  forwarded : ∀ id actor result, r.actor? id = some actor → actor.fire.value.2 = .ok result → result.didFire = true →
    let fired := r.setActor id actor.fire.value.1
    (r.fireActor id).value = ((fired.deliver id).1, .ok (result.addAffected (fired.deliver id).2)) ∧ fired.Forwarded id

theorem Wired.consistent {r : Registry σ} (h : r.Wired) (once : r.ids.Nodup) {entered : List Record}
    (kept : r.ledger = entered.foldl Ledger.enter {}) : r.Consistent entered where
  kept := kept
  order := (congrArg Ledger.order kept).trans (order_foldl entered)
  once := once
  registered id := by
    refine ⟨mem_ids, Iff.trans ?_ mem_ids⟩
    rw [ledger, Std.ExtTreeSet.mem_ofList, List.contains_iff_mem]
  wired source targets htargets := by
    rw [connections_getElem? h.distinct] at htargets
    by_cases hnone : r.targets source = []
    · rw [if_pos hnone] at htargets
      cases htargets
    · rw [if_neg hnone] at htargets
      cases htargets
      obtain ⟨target, htarget⟩ := List.exists_mem_of_ne_nil _ hnone
      exact ⟨h.source _ (mem_targets.mp htarget), hnone, targets_distinct h source, fun _ => target_input h⟩
  targets source := by
    rw [connections_getElem? h.distinct]
    by_cases hnone : r.targets source = [] <;> simp [hnone]
  enabled := once.sublist r.enabled_sublist
  forwarded id actor result hactor hresult hfires := by
    have hfiring : r.firing id = some (r.setActor id actor.fire.value.1, actor.fire.value.2) := by
      rw [firing, hactor]
      rfl
    exact ⟨fireActor_fired hactor hresult hfires, (h.alike (firing_alike hfiring)).forwarded id⟩

/-- Whatever is done to a registry its books stay consistent, and no cycle meets an actor that is unknown. -/
theorem books_consistent (operations : List (Operation σ)) :
    ((empty : Registry σ).after operations).Consistent ((empty : Registry σ).records operations) ∧
      ∀ (s : Scheduler σ) (all : Bool), ∀ e ∈ (s.loopOnce all).fireErrors, e.Known :=
  ⟨(wired_empty.after operations).consistent (after_distinct (r := empty) List.nodup_nil operations)
    (ledger_after wired_empty operations), Scheduler.loopOnce_known⟩

end Registry

end ActorNet
