import ActorNet.Proofs.Readiness

set_option autoImplicit false

/-!
# What a firing does to the registry as a whole

A firing leaves something in the place of the actor that is fired, and appends what is shipped to the ports that
it is shipped to. Everybody else finds the same as before, with more at the end of some queues.
-/
namespace ActorNet

variable {σ : Type}

namespace Ports

def extend (ports : Ports) (more : String → List Token) : Ports :=
  ports.map fun name port => { port with queue := port.queue ++ more name }

theorem extend_getElem? (ports : Ports) (more : String → List Token) (name : String) :
    (ports.extend more)[name]? =
      ports[name]?.map fun port => { port with queue := port.queue ++ more name } :=
  Std.ExtTreeMap.getElem?_map

theorem extend_nothing (ports : Ports) : (ports.extend fun _ => []) = ports := by
  apply Std.ExtTreeMap.ext_getElem?
  intro name
  simp [extend_getElem?]

theorem extend_extend (ports : Ports) (more others : String → List Token) :
    (ports.extend more).extend others = ports.extend fun name => more name ++ others name := by
  apply Std.ExtTreeMap.ext_getElem?
  intro name
  simp [extend_getElem?, Function.comp_def]

theorem push_eq_extend (ports : Ports) (name : String) (tokens : List Token) :
    ports.push name tokens = ports.extend fun other => if name = other then tokens else [] := by
  apply Std.ExtTreeMap.ext_getElem?
  intro other
  rw [push_getElem?, extend_getElem?]

end Ports

def Actor.extend (actor : Actor σ) (more : String → List Token) : Actor σ :=
  { actor with ports := actor.ports.extend more }

namespace Registry

def extend (r : Registry σ) (more : PortAddr → List Token) : Registry σ :=
  { r with
    entries := r.entries.map fun e => { e with actor := e.actor.extend fun name => more ⟨e.actor.id, name⟩ } }

variable {r : Registry σ}

theorem extend_nothing (r : Registry σ) : (r.extend fun _ => []) = r := by
  unfold extend Actor.extend
  simp [Ports.extend_nothing]

theorem extend_extend (r : Registry σ) (more others : PortAddr → List Token) :
    (r.extend more).extend others = r.extend fun addr => more addr ++ others addr := by
  unfold extend Actor.extend
  simp [Ports.extend_extend, Function.comp_def]

theorem ids_extend (r : Registry σ) (more : PortAddr → List Token) : (r.extend more).ids = r.ids := by
  unfold ids extend
  rw [List.map_map]
  rfl

theorem entry?_extend (r : Registry σ) (more : PortAddr → List Token) (id : ActorId) :
    entry? (r.extend more) id =
      (r.entry? id).map fun e => { e with actor := e.actor.extend fun name => more ⟨id, name⟩ } := by
  unfold entry? extend
  induction r.entries with
  | nil => rfl
  | cons e entries ih =>
    rw [List.map_cons, List.find?_cons, List.find?_cons, ih]
    by_cases he : e.actor.id = id
    · simp [Actor.extend, he]
    · simp [Actor.extend, he]

theorem actor?_extend (r : Registry σ) (more : PortAddr → List Token) (id : ActorId) :
    (r.extend more).actor? id = (r.actor? id).map fun actor => actor.extend fun name => more ⟨id, name⟩ := by
  unfold actor?
  rw [entry?_extend, Option.map_map, Option.map_map]
  rfl

theorem portAt_extend (r : Registry σ) (more : PortAddr → List Token) (addr : PortAddr) :
    (r.extend more).portAt addr =
      (r.portAt addr).map fun port => { port with queue := port.queue ++ more addr } := by
  unfold portAt
  rw [actor?_extend]
  cases r.actor? addr.actor with
  | none => rfl
  | some actor => exact Ports.extend_getElem? _ _ _

theorem push_eq_extend (r : Registry σ) (target : PortAddr) (tokens : List Token) :
    r.modifyPorts target.actor (·.push target.port tokens) =
      r.extend fun addr => if target = addr then tokens else [] := by
  unfold modifyPorts modify extend Actor.extend
  congr 1
  refine List.map_congr_left fun e _ => ?_
  rcases target with ⟨actor, port⟩
  by_cases h : e.actor.id = actor
  · simp [h, Ports.push_eq_extend]
  · simp [h, Ne.symm h, Ports.extend_nothing]

theorem ids_modify (r : Registry σ) {id : ActorId} {f : Entrant σ → Entrant σ}
    (named : ∀ e, e.actor.id = id → (f e).actor.id = id) : (r.modify id f).ids = r.ids := by
  unfold ids modify
  rw [List.map_map]
  refine List.map_congr_left fun e _ => ?_
  by_cases h : e.actor.id = id
  · simp [h, named e h]
  · simp [h]

theorem ids_modifyPorts (r : Registry σ) (id : ActorId) (f : Ports → Ports) : (r.modifyPorts id f).ids = r.ids :=
  r.ids_modify fun _ h => h

theorem ids_setActor (r : Registry σ) {id : ActorId} {actor : Actor σ} (named : actor.id = id) :
    (r.setActor id actor).ids = r.ids := r.ids_modify fun _ _ => named

theorem entry?_of_mem (distinct : r.ids.Nodup) {e : Entrant σ} (h : e ∈ r.entries) :
    r.entry? e.actor.id = some e := by
  cases hfound : r.entry? e.actor.id with
  | none => exact absurd rfl (of_decide_eq_false (eq_false_of_ne_true (List.find?_eq_none.mp hfound e h)))
  | some found =>
    have hmem := List.mem_of_find?_eq_some hfound
    rw [List.inj_on_of_nodup_map distinct hmem h (entry?_id hfound)]

theorem extend_congr (distinct : r.ids.Nodup) {more others : PortAddr → List Token}
    (same : ∀ addr port, r.portAt addr = some port → more addr = others addr) : r.extend more = r.extend others := by
  unfold extend
  congr 1
  refine List.map_congr_left fun e he => ?_
  have hports : (e.actor.ports.extend fun name => more ⟨e.actor.id, name⟩) =
      e.actor.ports.extend fun name => others ⟨e.actor.id, name⟩ := by
    apply Std.ExtTreeMap.ext_getElem?
    intro name
    rw [Ports.extend_getElem?, Ports.extend_getElem?]
    cases hport : e.actor.ports[name]? with
    | none => rfl
    | some port =>
      have hat : r.portAt ⟨e.actor.id, name⟩ = some port := by
        rw [portAt, actor?, entry?_of_mem distinct he]
        exact hport
      rw [same _ port hat]
  rw [Actor.extend, Actor.extend, hports]

def roster (r : Registry σ) : List (ActorId × Status) := r.entries.map fun e => (e.actor.id, e.status)

theorem ids_eq (r : Registry σ) : r.ids = r.roster.map (·.1) := by
  rw [ids, roster, List.map_map]
  rfl

theorem roster_modify (r : Registry σ) {id : ActorId} {f : Entrant σ → Entrant σ}
    (same : ∀ e, e.actor.id = id → (f e).actor.id = id ∧ (f e).status = e.status) :
    (r.modify id f).roster = r.roster := by
  unfold roster modify
  rw [List.map_map]
  refine List.map_congr_left fun e _ => ?_
  by_cases h : e.actor.id = id
  · obtain ⟨hid, hstatus⟩ := same e h
    simp [h, hid, hstatus]
  · simp [h]

theorem roster_modifyPorts (r : Registry σ) (id : ActorId) (f : Ports → Ports) :
    (r.modifyPorts id f).roster = r.roster := r.roster_modify fun _ h => ⟨h, rfl⟩

theorem roster_setActor (r : Registry σ) {id : ActorId} {actor : Actor σ} (named : actor.id = id) :
    (r.setActor id actor).roster = r.roster := r.roster_modify fun _ _ => ⟨named, rfl⟩

theorem roster_send (tokens : List Token) (targets : List PortAddr) (r : Registry σ) :
    (send tokens targets r).1.roster = r.roster := by
  induction targets generalizing r with
  | nil => rfl
  | cons target targets ih =>
    rw [send]
    split
    · exact ih r
    · exact (ih _).trans (r.roster_modifyPorts _ _)

theorem roster_sendEach (id : ActorId) (outgoing : List (String × List Token)) (r : Registry σ)
    (reached : List ActorId) : (sendEach id outgoing (r, reached)).1.roster = r.roster := by
  induction outgoing generalizing r reached with
  | nil => rfl
  | cons head outgoing ih =>
    rw [sendEach, List.foldl_cons]
    exact (ih _ _).trans (roster_send _ _ r)

theorem roster_fireActor (r : Registry σ) (id : ActorId) : (r.fireActor id).value.1.roster = r.roster := by
  cases hactor : r.actor? id with
  | none => rw [fireActor_unknown hactor]
  | some actor =>
    have hset : (r.setActor id actor.fire.value.1).roster = r.roster :=
      r.roster_setActor (actor.fire_fired.id.trans (actor?_id hactor))
    rcases actor.fire_cases with ⟨result, hresult, hfires, -⟩ | ⟨hidle, -⟩
    · rw [fireActor_fired hactor hresult hfires, deliver_eq]
      exact (roster_sendEach _ _ _ _).trans ((roster_modifyPorts _ _ _).trans hset)
    · rw [fireActor_unfired hactor hidle]
      exact hset

theorem ids_fireActor (r : Registry σ) (id : ActorId) : (r.fireActor id).value.1.ids = r.ids := by
  rw [ids_eq, roster_fireActor, ← ids_eq]

theorem modify_distinct (distinct : r.ids.Nodup) {id : ActorId} {f : Entrant σ → Entrant σ}
    (named : ∀ e, e.actor.id = id → (f e).actor.id = id) : (r.modify id f).ids.Nodup := by
  rw [r.ids_modify named]
  exact distinct

theorem enroll_distinct (distinct : r.ids.Nodup) {actor : Actor σ} (fresh : r.contains actor.id = false) :
    (r.enroll actor).ids.Nodup := by
  have hnone : r.entry? actor.id = none := by simpa [contains] using fresh
  have hfresh : actor.id ∉ r.ids := by
    intro hmem
    obtain ⟨e, he, hid⟩ := List.mem_map.mp hmem
    simpa [hid] using List.find?_eq_none.mp hnone e he
  have hids : (r.enroll actor).ids = r.ids.concat actor.id := by simp [ids, enroll]
  rw [hids]
  exact distinct.concat hfresh

theorem Changed.distinct {r' : Registry σ} {change : Edit σ} {answer : Except ActorError (Reply σ)}
    (h : r.Changed change (r', answer)) (distinct : r.ids.Nodup) : r'.ids.Nodup := by
  cases h with
  | refused | connected | connectedBefore => exact distinct
  | added actor fresh => exact enroll_distinct distinct fresh
  | removed id => exact distinct.sublist (List.filter_sublist.map _)
  | paused | resumed | terminated | left | pushed | drained => exact modify_distinct distinct fun _ h => h
  | arrived id e actor hentry hstatus hanswer =>
    exact modify_distinct distinct fun _ _ => didMigrate_named hentry hanswer
  | turnedBack id e actor refusal hentry hstatus hanswer =>
    exact modify_distinct distinct fun _ _ => didMigrate_named hentry hanswer

theorem after_distinct (distinct : r.ids.Nodup) (operations : List (Operation σ)) :
    (r.after operations).ids.Nodup := by
  induction operations generalizing r with
  | nil => exact distinct
  | cons operation operations ih =>
    apply ih
    cases operation with
    | edit change fits =>
      rw [operate, edit_value]
      exact (r.change_changed change).distinct distinct
    | fire id =>
      rw [operate, ids_fireActor]
      exact distinct

/-- What a list of targets gets, a copy for each time that one is named. -/
def copies (tokens : List Token) (targets : List PortAddr) (addr : PortAddr) : List Token :=
  targets.flatMap fun target => if target = addr then tokens else []

theorem send_fst (distinct : r.ids.Nodup) (tokens : List Token) (targets : List PortAddr) :
    (send tokens targets r).1 = r.extend (copies tokens targets) := by
  induction targets generalizing r with
  | nil => exact r.extend_nothing.symm
  | cons target targets ih =>
    rw [send]
    split
    case h_1 hmissing =>
      rw [ih distinct]
      apply extend_congr distinct
      intro addr port hport
      have hother : target ≠ addr := by
        rintro rfl
        rw [show r.portAt target = none from hmissing] at hport
        cases hport
      simp [copies, hother]
    case h_2 =>
      have hids : (r.modifyPorts target.actor (·.push target.port tokens)).ids.Nodup := by
        rw [ids_modifyPorts]
        exact distinct
      change (send tokens targets _).1 = _
      rw [ih hids, push_eq_extend, extend_extend]
      rfl

theorem send_snd (tokens : List Token) (targets : List PortAddr) (r : Registry σ) :
    (send tokens targets r).2 = (targets.filter fun target => (r.portAt target).isSome).map (·.actor) := by
  induction targets generalizing r with
  | nil => rfl
  | cons target targets ih =>
    rw [send]
    split
    case h_1 hmissing =>
      have hnone : r.portAt target = none := hmissing
      rw [ih, List.filter_cons_of_neg (by simp [hnone])]
    case h_2 port hport =>
      have hsome : r.portAt target = some port := hport
      change target.actor :: (send tokens targets _).2 = _
      rw [ih, List.filter_cons_of_pos (by simp [hsome]), List.map_cons]
      simp only [portAt_push, Option.isSome_map]

theorem sendEach_fst (distinct : r.ids.Nodup) (id : ActorId) (outgoing : List (String × List Token))
    (reached : List ActorId) : (sendEach id outgoing (r, reached)).1 = r.extend (r.brought id outgoing) := by
  induction outgoing generalizing r reached with
  | nil => exact r.extend_nothing.symm
  | cons head outgoing ih =>
    have hids : (send head.2 (r.targets ⟨id, head.1⟩) r).1.ids.Nodup := by
      rw [ids_eq, roster_send, ← ids_eq]
      exact distinct
    rw [sendEach, List.foldl_cons]
    apply (ih hids _).trans
    rw [send_fst distinct, extend_extend]
    rfl

theorem sendEach_snd (id : ActorId) (outgoing : List (String × List Token)) (r : Registry σ)
    (reached : List ActorId) :
    (sendEach id outgoing (r, reached)).2 = reached ++ outgoing.flatMap fun (name, _) =>
      ((r.targets ⟨id, name⟩).filter fun target => (r.portAt target).isSome).map (·.actor) := by
  induction outgoing generalizing r reached with
  | nil => simp [sendEach]
  | cons head outgoing ih =>
    rw [sendEach, List.foldl_cons]
    apply (ih _ _).trans
    have hwires := send_wires head.2 (r.targets ⟨id, head.1⟩) r
    simp only [send_snd, targets_of_wires hwires, send_portAt, Option.isSome_map, List.flatMap_cons, List.append_assoc]

end Registry

/-- An actor whose outputs have been emptied of what is shipped. -/
def Actor.unloaded (actor : Actor σ) (cargo : List (String × List Token)) : Actor σ :=
  { actor with ports := cargo.foldl (fun ports (name, _) => ports.setQueue name []) actor.ports }

theorem Actor.unloaded_getElem? (actor : Actor σ) (cargo : List (String × List Token)) (name : String) :
    (actor.unloaded cargo).ports[name]? =
      actor.ports[name]?.map fun port =>
        { port with queue := if name ∈ cargo.map Prod.fst then [] else port.queue } :=
  Ports.foldl_setQueue_getElem? cargo actor.ports name

theorem Actor.unloaded_outline (actor : Actor σ) (cargo : List (String × List Token)) :
    (actor.unloaded cargo).outline = actor.outline := by
  refine actor.outline_ports (fun name => ?_) actor.state
  rw [Ports.foldl_setQueue_getElem?, Option.map_map]
  rfl

namespace Registry

variable {r : Registry σ}

def stock (r : Registry σ) (actor : Actor σ) : List (String × List Token) :=
  (actor.ports.pendingOutputs.filter fun name => r.targets ⟨actor.id, name⟩ ≠ []).map fun name =>
    (name, actor.ports.queueOf name)

def cargo (r : Registry σ) (actor : Actor σ) : List (String × List Token) :=
  match actor.fire.value.2 with
  | .ok result => if result.didFire then r.stock actor.fire.value.1 else []
  | .error _ | .panic _ => []

def spent (r : Registry σ) (actor : Actor σ) : Actor σ := actor.fire.value.1.unloaded (r.cargo actor)

def reached (r : Registry σ) (id : ActorId) (cargo : List (String × List Token)) : List ActorId :=
  cargo.flatMap fun (name, _) =>
    ((r.targets ⟨id, name⟩).filter fun target => (r.portAt target).isSome).map (·.actor)

theorem setActor_modifyPorts (r : Registry σ) {id : ActorId} {actor : Actor σ} (named : actor.id = id)
    (f : Ports → Ports) :
    (r.setActor id actor).modifyPorts id f = r.setActor id { actor with ports := f actor.ports } := by
  unfold setActor modifyPorts modify
  simp only [List.map_map]
  congr 1
  refine List.map_congr_left fun e _ => ?_
  by_cases h : e.actor.id = id <;> simp [h, named]

theorem outgoing_setActor {id : ActorId} {actor old : Actor σ} (h : r.actor? id = some old) (named : actor.id = id) :
    (r.setActor id actor).outgoing id = r.stock actor := by
  have hactor : (r.setActor id actor).actor? id = some actor := by
    rw [r.actor?_setActor named, h]
    simp
  unfold outgoing stock
  rw [hactor, named]
  rfl

theorem setActor_alike (r : Registry σ) {id : ActorId} {actor old : Actor σ} (h : r.actor? id = some old)
    (named : actor.id = id) (outline : actor.outline = old.outline) : r.Alike (r.setActor id actor) := by
  refine r.modify_alike (fun _ => actor) (fun _ => rfl) (fun _ _ => named) fun other hother => ?_
  rw [h] at hother
  cases hother
  exact outline

theorem Alike.exists {r' : Registry σ} (h : r.Alike r') (addr : PortAddr) :
    (r'.portAt addr).isSome = (r.portAt addr).isSome := by
  rw [← Option.isSome_map, h.direction, Option.isSome_map]

theorem deliver_setActor (distinct : r.ids.Nodup) {id : ActorId} {actor old : Actor σ} (h : r.actor? id = some old)
    (named : actor.id = id) (outline : actor.outline = old.outline) :
    (r.setActor id actor).deliver id =
      ((r.setActor id (actor.unloaded (r.stock actor))).extend (r.brought id (r.stock actor)),
        r.reached id (r.stock actor)) := by
  let emptied := r.setActor id (actor.unloaded (r.stock actor))
  have hemptied : (r.setActor id actor).emptied id (r.stock actor) = emptied := r.setActor_modifyPorts named _
  have hids : emptied.ids.Nodup := modify_distinct distinct fun _ _ => named
  have halike : r.Alike emptied := r.setActor_alike h named ((actor.unloaded_outline _).trans outline)
  rw [deliver_eq, outgoing_setActor h named, hemptied]
  refine Prod.ext ?_ ?_
  · exact sendEach_fst hids _ _ _
  · rw [sendEach_snd, List.nil_append]
    simp only [halike.exists]
    rfl

theorem spent_outline (r : Registry σ) (actor : Actor σ) : (r.spent actor).outline = actor.outline :=
  (actor.fire.value.1.unloaded_outline _).trans actor.fire_fired.outline

theorem spent_id {id : ActorId} {actor : Actor σ} (h : r.actor? id = some actor) : (r.spent actor).id = id :=
  actor.fire_fired.id.trans (actor?_id h)

theorem cargo_of_fired {actor : Actor σ} {result : FiringResult} (h : actor.fire.value.2 = .ok result)
    (fires : result.didFire = true) : r.cargo actor = r.stock actor.fire.value.1 := by
  rw [cargo, h]
  exact if_pos fires

theorem cargo_of_unfired {actor : Actor σ} (idle : ∀ result, actor.fire.value.2 = .ok result → result = .idle) :
    r.cargo actor = [] := by
  unfold cargo
  cases houtcome : actor.fire.value.2 with
  | ok result =>
    rw [idle result houtcome]
    rfl
  | error | panic => rfl

theorem fireActor_fst (distinct : r.ids.Nodup) {id : ActorId} {actor : Actor σ} (h : r.actor? id = some actor) :
    (r.fireActor id).value.1 = (r.setActor id (r.spent actor)).extend (r.brought id (r.cargo actor)) := by
  have hnamed := actor.fire_fired.id.trans (actor?_id h)
  rcases actor.fire_cases with ⟨result, hresult, hfires, -⟩ | ⟨hidle, -⟩
  · rw [fireActor_fired h hresult hfires, deliver_setActor distinct h hnamed actor.fire_fired.outline, spent,
      cargo_of_fired hresult hfires]
  · rw [fireActor_unfired h hidle, spent, cargo_of_unfired hidle]
    exact (extend_nothing _).symm

theorem fireActor_snd (distinct : r.ids.Nodup) {id : ActorId} {actor : Actor σ} (h : r.actor? id = some actor) :
    (r.fireActor id).value.2 =
      match actor.fire.value.2 with
      | .ok result => .ok (if result.didFire then result.addAffected (r.reached id (r.cargo actor)) else result)
      | outcome => outcome := by
  have hnamed := actor.fire_fired.id.trans (actor?_id h)
  rcases actor.fire_cases with ⟨result, hresult, hfires, -⟩ | ⟨hidle, -⟩
  · rw [fireActor_fired h hresult hfires, deliver_setActor distinct h hnamed actor.fire_fired.outline,
      cargo_of_fired hresult hfires, hresult]
    dsimp only
    rw [if_pos hfires]
  · rw [fireActor_unfired h hidle]
    cases houtcome : actor.fire.value.2 with
    | ok result =>
      rw [hidle result houtcome]
      rfl
    | error | panic => rfl

end Registry

end ActorNet
