import ActorNet.Proofs.Firing
import ActorNet.Registry.Delivery

set_option autoImplicit false

/-!
# What registered actors find in their ports

A change of one actor leaves the others alone. A delivery empties the wired outputs of an actor and appends
what was in them to the targets of their wires, whole and in order.
-/
namespace ActorNet.Registry

variable {σ : Type}

def portAt (r : Registry σ) (addr : PortAddr) : Option Port :=
  (r.actor? addr.actor).bind (·.ports[addr.port]?)

theorem entry?_id {r : Registry σ} {id : ActorId} {e : Entrant σ} (h : r.entry? id = some e) :
    e.actor.id = id := by
  simpa using List.find?_some h

theorem actor?_id {r : Registry σ} {id : ActorId} {actor : Actor σ} (h : r.actor? id = some actor) :
    actor.id = id := by
  obtain ⟨e, he, rfl⟩ := Option.map_eq_some_iff.mp h
  exact entry?_id he

theorem contains_iff {r : Registry σ} {id : ActorId} : r.contains id = true ↔ ∃ actor, r.actor? id = some actor := by
  rw [contains, actor?]
  cases r.entry? id <;> simp

def enroll (r : Registry σ) (actor : Actor σ) : Registry σ :=
  { r with entries := r.entries ++ [⟨actor, .enabled⟩] }

def without (r : Registry σ) (id : ActorId) : Registry σ where
  entries := r.entries.filter (·.actor.id ≠ id)
  wires := wiresWithout id r.wires

theorem actor?_enroll {r : Registry σ} {actor : Actor σ} (fresh : r.contains actor.id = false) (other : ActorId) :
    (r.enroll actor).actor? other = if other = actor.id then some actor else r.actor? other := by
  have hfresh : r.entry? actor.id = none := by
    simpa [contains] using fresh
  unfold actor? entry? enroll
  rw [List.find?_append]
  by_cases h : other = actor.id
  · subst h
    rw [show r.entries.find? (·.actor.id = actor.id) = none from hfresh]
    simp
  · simp [h, Ne.symm h]

theorem entry?_without (r : Registry σ) (id other : ActorId) :
    entry? (r.without id) other = if other = id then none else r.entry? other := by
  unfold entry? without
  by_cases h : other = id
  · subst h
    simp
  · rw [if_neg h, List.find?_filter]
    congr 2
    funext e
    by_cases he : e.actor.id = other <;> simp [he, h]

theorem actor?_without (r : Registry σ) (id other : ActorId) :
    (r.without id).actor? other = if other = id then none else r.actor? other := by
  rw [actor?, entry?_without]
  split <;> rfl

theorem entry?_modify (r : Registry σ) {id : ActorId} {f : Entrant σ → Entrant σ}
    (named : ∀ e, e.actor.id = id → (f e).actor.id = id) (other : ActorId) :
    entry? (r.modify id f) other = (r.entry? other).map fun e => if other = id then f e else e := by
  unfold entry? modify
  induction r.entries with
  | nil => rfl
  | cons e entries ih =>
    rw [List.map_cons, List.find?_cons, List.find?_cons, ih]
    by_cases he : e.actor.id = id
    · by_cases hother : other = id
      · simp [he, hother, named e he]
      · simp [he, hother, named e he, Ne.symm hother]
    · by_cases hother : e.actor.id = other
      · simp [hother, hother ▸ he]
      · simp [he, hother]

theorem actor?_modify (r : Registry σ) (g : Actor σ → Actor σ) {id : ActorId} {f : Entrant σ → Entrant σ}
    (change : ∀ e, (f e).actor = g e.actor) (named : ∀ actor, actor.id = id → (g actor).id = id)
    (other : ActorId) :
    (r.modify id f).actor? other = (r.actor? other).map fun actor => if other = id then g actor else actor := by
  have hnamed : ∀ e, e.actor.id = id → (f e).actor.id = id := by
    intro e he
    rw [change]
    exact named e.actor he
  unfold actor?
  rw [r.entry?_modify hnamed, Option.map_map, Option.map_map]
  congr 1
  funext e
  by_cases h : other = id <;> simp [h, change]

theorem actor?_setActor (r : Registry σ) {id : ActorId} {actor : Actor σ} (named : actor.id = id)
    (other : ActorId) :
    (r.setActor id actor).actor? other =
      (r.actor? other).map fun old => if other = id then actor else old :=
  r.actor?_modify (fun _ => actor) (fun _ => rfl) (fun _ _ => named) other

theorem actor?_modifyPorts (r : Registry σ) (id : ActorId) (f : Ports → Ports) (other : ActorId) :
    (r.modifyPorts id f).actor? other =
      (r.actor? other).map fun actor => if other = id then { actor with ports := f actor.ports } else actor :=
  r.actor?_modify (fun actor => { actor with ports := f actor.ports }) (fun _ => rfl) (fun _ h => h) other

theorem portAt_modifyPorts (r : Registry σ) (id : ActorId) (f : Ports → Ports) (addr : PortAddr) :
    (r.modifyPorts id f).portAt addr =
      (r.actor? addr.actor).bind fun actor =>
        if addr.actor = id then (f actor.ports)[addr.port]? else actor.ports[addr.port]? := by
  unfold portAt
  rw [actor?_modifyPorts]
  cases r.actor? addr.actor with
  | none => rfl
  | some actor => by_cases h : addr.actor = id <;> simp [h]

theorem portAt_push (r : Registry σ) (target addr : PortAddr) (tokens : List Token) :
    (r.modifyPorts target.actor (·.push target.port tokens)).portAt addr =
      (r.portAt addr).map fun port =>
        { port with queue := port.queue ++ if target = addr then tokens else [] } := by
  rw [portAt_modifyPorts]
  unfold portAt
  cases r.actor? addr.actor with
  | none => rfl
  | some actor =>
    rcases target with ⟨actor', port'⟩
    rcases addr with ⟨id, name⟩
    by_cases hactor : id = actor'
    · subst hactor
      simp [Ports.push_getElem?]
    · simp [hactor, Ne.symm hactor]

theorem portAt_setQueue (r : Registry σ) (source addr : PortAddr) (queue : List Token) :
    (r.modifyPorts source.actor (·.setQueue source.port queue)).portAt addr =
      (r.portAt addr).map fun port =>
        { port with queue := if source = addr then queue else port.queue } := by
  rw [portAt_modifyPorts]
  unfold portAt
  cases r.actor? addr.actor with
  | none => rfl
  | some actor =>
    rcases source with ⟨actor', port'⟩
    rcases addr with ⟨id, name⟩
    by_cases hactor : id = actor'
    · subst hactor
      simp [Ports.setQueue_getElem?]
    · simp [hactor, Ne.symm hactor]

theorem send_wires (tokens : List Token) (targets : List PortAddr) (r : Registry σ) :
    (send tokens targets r).1.wires = r.wires := by
  induction targets generalizing r with
  | nil => rfl
  | cons target targets ih =>
    rw [send]
    split
    · exact ih r
    · exact ih _

theorem send_portAt (tokens : List Token) (targets : List PortAddr) (r : Registry σ) (addr : PortAddr) :
    (send tokens targets r).1.portAt addr =
      (r.portAt addr).map fun port => { port with
        queue := port.queue ++ targets.flatMap fun target => if target = addr then tokens else [] } := by
  induction targets generalizing r with
  | nil => simp [send]
  | cons target targets ih =>
    rw [send]
    split
    case h_1 hmissing =>
      have hnone : r.portAt target = none := hmissing
      rw [ih]
      by_cases htarget : target = addr
      · rw [← htarget, hnone]
        rfl
      · simp [htarget]
    case h_2 =>
      change (send tokens targets _).1.portAt addr = _
      rw [ih, portAt_push, Option.map_map]
      simp [Function.comp_def]

theorem targets_of_wires {r r' : Registry σ} (h : r'.wires = r.wires) (source : PortAddr) :
    r'.targets source = r.targets source := by
  rw [targets, h]
  rfl

def emptied (r : Registry σ) (id : ActorId) (outgoing : List (String × List Token)) : Registry σ :=
  r.modifyPorts id fun ports => outgoing.foldl (fun ports (name, _) => ports.setQueue name []) ports

theorem emptied_portAt (r : Registry σ) (id : ActorId) (outgoing : List (String × List Token))
    (addr : PortAddr) :
    (r.emptied id outgoing).portAt addr =
      (r.portAt addr).map fun port => { port with
        queue := if addr.actor = id ∧ addr.port ∈ outgoing.map Prod.fst then [] else port.queue } := by
  unfold emptied
  rw [portAt_modifyPorts]
  unfold portAt
  cases r.actor? addr.actor with
  | none => rfl
  | some actor =>
    by_cases hactor : addr.actor = id
    · subst hactor
      simp only [Option.bind_some, if_true, Ports.foldl_setQueue_getElem?, true_and]
    · simp [hactor]

def sendEach (id : ActorId) (outgoing : List (String × List Token)) (state : Registry σ × List ActorId) :
    Registry σ × List ActorId :=
  outgoing.foldl
    (fun (r, reached) (name, tokens) =>
      let (r, more) := send tokens (r.targets ⟨id, name⟩) r
      (r, reached ++ more))
    state

theorem deliver_eq (r : Registry σ) (id : ActorId) :
    r.deliver id = sendEach id (r.outgoing id) (r.emptied id (r.outgoing id), []) := rfl

/-- What a delivery brings to a port, output by output. -/
def brought (r : Registry σ) (id : ActorId) (outgoing : List (String × List Token)) (addr : PortAddr) :
    List Token :=
  outgoing.flatMap fun (name, tokens) =>
    (r.targets ⟨id, name⟩).flatMap fun target => if target = addr then tokens else []

theorem brought_of_wires {r r' : Registry σ} (h : r'.wires = r.wires) (id : ActorId)
    (outgoing : List (String × List Token)) (addr : PortAddr) :
    r'.brought id outgoing addr = r.brought id outgoing addr := by
  unfold brought
  simp only [targets_of_wires h]

theorem sendEach_portAt (id : ActorId) (outgoing : List (String × List Token)) (r : Registry σ)
    (reached : List ActorId) (addr : PortAddr) :
    (sendEach id outgoing (r, reached)).1.portAt addr =
      (r.portAt addr).map fun port => { port with queue := port.queue ++ r.brought id outgoing addr } := by
  induction outgoing generalizing r reached with
  | nil => simp [sendEach, brought]
  | cons head outgoing ih =>
    have hwires := send_wires head.2 (r.targets ⟨id, head.1⟩) r
    rw [sendEach, List.foldl_cons]
    apply (ih _ _).trans
    rw [send_portAt, brought_of_wires hwires, Option.map_map]
    simp [Function.comp_def, brought]

theorem deliver_portAt (r : Registry σ) (id : ActorId) (addr : PortAddr) :
    (r.deliver id).1.portAt addr =
      (r.portAt addr).map fun port => { port with
        queue := (if addr.actor = id ∧ addr.port ∈ (r.outgoing id).map Prod.fst then [] else port.queue) ++
          r.brought id (r.outgoing id) addr } := by
  have hwires : (r.emptied id (r.outgoing id)).wires = r.wires := rfl
  rw [deliver_eq, sendEach_portAt, emptied_portAt, brought_of_wires hwires, Option.map_map]
  rfl

/-- What a firing leaves before anything is delivered, and its outcome. -/
def firing (r : Registry σ) (id : ActorId) : Option (Registry σ × Outcome FiringError FiringResult) :=
  (r.actor? id).map fun actor => (r.setActor id actor.fire.value.1, actor.fire.value.2)

theorem fireActor_value (r : Registry σ) (id : ActorId) :
    (r.fireActor id).value =
      match r.firing id with
      | none => (r, .error (.unknownActor id))
      | some (fired, .ok result) =>
        if result.didFire then ((fired.deliver id).1, .ok (result.addAffected (fired.deliver id).2))
        else (fired, .ok result)
      | some (fired, outcome) => (fired, outcome) := by
  unfold fireActor firing
  cases r.actor? id with
  | none => rfl
  | some actor =>
    dsimp only [Option.map_some]
    rw [Logged.value_bind]
    rcases actor.fire.value with ⟨actor', result | e | payload⟩
    · dsimp only
      by_cases h : result.didFire = true
      · rw [if_pos h, if_pos h]
        rfl
      · rw [if_neg h, if_neg h]
        rfl
    · rfl
    · rfl

end ActorNet.Registry
