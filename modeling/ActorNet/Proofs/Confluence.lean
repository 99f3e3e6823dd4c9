import ActorNet.Proofs.Conservation
import ActorNet.Proofs.Reaction
import Mathlib.Data.List.Perm.Subperm
import Mathlib.Order.Monotone.Basic

set_option autoImplicit false

/-!
# Networks in which the order of firings does not matter

When each actor has a single action and no two wires lead to the same input, firing one actor only appends to
the inputs of others. An actor that could fire before still can, with the same tokens at hand, and what two of
them do to the registry commutes. So the firings of one sequence that comes to rest are a bound for those of any
other, and whatever comes to rest ends in the same state.
-/
namespace ActorNet

variable {σ : Type}

/-! ## Tokens that come behind -/

namespace Ports

theorem peek?_extend {ports : Ports} {name : String} (ready : (ports.peek? name).isSome = true)
    (more : String → List Token) : (ports.extend more).peek? name = ports.peek? name := by
  unfold peek? at ready ⊢
  rw [extend_getElem?]
  cases hport : ports[name]? with
  | none => rfl
  | some port =>
    rw [hport] at ready
    obtain ⟨token, hhead⟩ := Option.isSome_iff_exists.mp ready
    have hhead : port.queue.head? = some token := hhead
    simp [hhead]

theorem pop_extend {ports : Ports} {name : String} (ready : (ports.peek? name).isSome = true)
    (more : String → List Token) : (ports.extend more).pop name = (ports.pop name).extend more := by
  apply Std.ExtTreeMap.ext_getElem?
  intro other
  rw [pop_getElem?, extend_getElem?, extend_getElem?, pop_getElem?, Option.map_map, Option.map_map]
  by_cases h : name = other
  · subst h
    cases hport : ports[name]? with
    | none => rfl
    | some port =>
      rw [peek?, hport] at ready
      obtain ⟨token, hhead⟩ := Option.isSome_iff_exists.mp ready
      obtain ⟨rest, hqueue⟩ := List.head?_eq_some_iff.mp hhead
      simp [hqueue]
  · simp [h, Function.comp_def]

theorem queueOf_extend {ports : Ports} {name : String} {more : String → List Token} (h : more name = []) :
    (ports.extend more).queueOf name = ports.queueOf name := by
  unfold queueOf
  rw [extend_getElem?]
  simp [h]

theorem pendingOutputs_output {ports : Ports} {name : String} (h : name ∈ ports.pendingOutputs) :
    ports[name]?.map Port.direction = some .output := by
  obtain ⟨⟨name, port⟩, hport, rfl⟩ := List.mem_map.mp h
  obtain ⟨hmem, houtput⟩ := List.mem_filter.mp hport
  rw [Std.ExtTreeMap.mem_toList_iff_getElem?_eq_some.mp hmem]
  exact congrArg some (of_decide_eq_true houtput).1

theorem pendingOutputs_extend {ports : Ports} {more : String → List Token}
    (inward : ∀ name : String, ports[name]?.map Port.direction = some .output → more name = []) :
    (ports.extend more).pendingOutputs = ports.pendingOutputs := by
  unfold pendingOutputs extend
  rw [Std.ExtTreeMap.toList_map, List.filter_map, List.map_map]
  refine congrArg (List.map Prod.fst) (List.filter_congr fun entry hentry => ?_)
  have hport := Std.ExtTreeMap.mem_toList_iff_getElem?_eq_some.mp hentry
  cases hdirection : entry.2.direction with
  | input => simp [hdirection]
  | output =>
    have hnone : more entry.1 = [] := by
      apply inward
      rw [hport, ← hdirection]
      rfl
    simp [hdirection, hnone]

end Ports

theorem Condition.takeEach_extend {names : List String} {ports : Ports} (distinct : names.Nodup)
    (ready : ∀ name ∈ names, (ports.peek? name).isSome = true) (more : String → List Token) :
    takeEach names (ports.extend more) = ((takeEach names ports).1, (takeEach names ports).2.extend more) := by
  induction names generalizing ports with
  | nil => rfl
  | cons name names ih =>
    obtain ⟨hfresh, hdistinct⟩ := List.nodup_cons.mp distinct
    have hhead := ready name List.mem_cons_self
    have hready : ∀ other ∈ names, ((ports.pop name).peek? other).isSome = true := by
      intro other hother
      have hne : name ≠ other := fun hsame => hfresh (hsame ▸ hother)
      have hpeek := ready other (List.mem_cons_of_mem _ hother)
      rw [Ports.peek?_eq] at hpeek
      rwa [Ports.peek?_eq, Ports.queueOf_pop, if_neg hne]
    rw [takeEach, takeEach, Ports.pop_extend hhead, Ports.peek?_extend hhead, ih hdistinct hready]

namespace Action

theorem standing_extend {action : Action σ} {ports : Ports} {state : σ} {control : Option TokenKind}
    (h : action.standing ports state = .ready control) (more : String → List Token) :
    action.standing (ports.extend more) state = .ready control := by
  obtain ⟨heads, hheads⟩ := standing_ready h
  rw [← h]
  exact standing_congr (fun name hname => Ports.peek?_extend (Condition.peek?_isSome hheads name hname) more) state

end Action

namespace Actor

variable {actor : Actor σ}

theorem chosen_extend (single : actor.kind.actions.length = 1) {action : Action σ} {control : Option TokenKind}
    (h : actor.chosen = some (action, control)) (more : String → List Token) :
    (actor.extend more).chosen = some (action, control) := by
  obtain ⟨only, hactions⟩ := List.length_eq_one_iff.mp single
  obtain ⟨hmem, hready⟩ := Action.select_mem h
  rw [hactions, List.mem_singleton] at hmem
  subst hmem
  have hstanding : action.standing (actor.extend more).ports (actor.extend more).state = .ready control :=
    Action.standing_extend hready more
  unfold chosen
  rw [show (actor.extend more).kind.actions = [action] from hactions, Action.select, hstanding]

theorem run_extend {action : Action σ} {control : Option TokenKind} (h : actor.chosen = some (action, control))
    (more : String → List Token) :
    (actor.extend more).run action control =
      ((actor.run action control).1.extend more, (actor.run action control).2) := by
  obtain ⟨hdistinct, -, -⟩ := chosen_accepted h
  obtain ⟨heads, hheads⟩ := Action.standing_ready (Action.select_mem h).2
  have hconsume : action.condition.consume (actor.ports.extend more) =
      ((action.condition.consume actor.ports).1, (action.condition.consume actor.ports).2.extend more) :=
    Condition.takeEach_extend hdistinct (Condition.peek?_isSome hheads) more
  unfold run
  rw [show (actor.extend more).ports = actor.ports.extend more from rfl, hconsume]
  rcases action.condition.consume actor.ports with ⟨args, ports⟩
  cases control with
  | some kind => rfl
  | none =>
    dsimp only [extend]
    rcases action.attempt actor.state args with ⟨state, answer⟩
    cases answer <;> rfl

/-- Nothing comes in at outputs. -/
def Inward (actor : Actor σ) (more : String → List Token) : Prop :=
  ∀ name : String, actor.ports[name]?.map Port.direction = some .output → more name = []

theorem Inward.congr {actor' : Actor σ} {more : String → List Token} (h : actor.Inward more)
    (outline : actor'.outline = actor.outline) : actor'.Inward more := by
  intro name hname
  rw [congrFun (Prod.mk.inj outline).2 name] at hname
  exact h name hname

theorem Inward.produced {more : String → List Token} (h : actor.Inward more) (fits : actor.Fits) {action : Action σ}
    {control : Option TokenKind} (chosen : actor.chosen = some (action, control)) :
    ∀ name ∈ action.condition.outputs, more name = [] := by
  intro name hname
  obtain ⟨-, -, houtputs⟩ := chosen_accepted chosen
  apply h
  rw [fits name, actor.kind.newPorts_output (houtputs name hname)]
  rfl

theorem emit_extend (actor : Actor σ) {outputs : List String} {more : String → List Token}
    (inward : ∀ name ∈ outputs, more name = []) (production : Production) :
    (actor.extend more).emit outputs production =
      ((actor.emit outputs production).1.extend more, (actor.emit outputs production).2) := by
  have hports : ((actor.extend more).emit outputs production).1.ports =
      (actor.emit outputs production).1.ports.extend more := by
    apply Std.ExtTreeMap.ext_getElem?
    intro name
    rw [emit_getElem?, Ports.extend_getElem?, emit_getElem?, Option.map_map]
    refine (congrArg _ (Ports.extend_getElem? _ _ _)).trans ?_
    rw [Option.map_map]
    congr 1
    funext port
    by_cases hname : name ∈ outputs
    · simp [inward name hname]
    · simp [Ports.tokensOn_zip_of_notMem hname]
  refine Prod.ext ?_ rfl
  unfold extend
  rw [← hports]
  rfl

theorem fire_value (actor : Actor σ) :
    actor.fire.value =
      match actor.chosen with
      | none => (actor, .ok .idle)
      | some (action, control) =>
        match actor.run action control with
        | (ran, .ok (some production)) =>
          ((ran.emit action.condition.outputs production).1,
            .ok (ran.emit action.condition.outputs production).2)
        | (ran, .ok none) => (ran, .ok .idle)
        | (ran, .error e) => (ran, .error e)
        | (ran, .panic payload) => (ran, .panic payload) := by
  unfold fire chosen
  rw [Logged.value_bind]
  rcases Action.select actor.ports actor.state actor.kind.actions with ⟨passed, _ | ⟨action, control⟩⟩
  · rfl
  · dsimp only
    rcases actor.run action control with ⟨ran, (_ | production) | e | payload⟩ <;> rfl

theorem fire_extend (single : actor.kind.actions.length = 1) (fits : actor.Fits) (ready : actor.chosen.isSome = true)
    {more : String → List Token} (inward : actor.Inward more) :
    (actor.extend more).fire.value = (actor.fire.value.1.extend more, actor.fire.value.2) := by
  obtain ⟨⟨action, control⟩, hchosen⟩ := Option.isSome_iff_exists.mp ready
  rw [fire_value, fire_value, chosen_extend single hchosen, hchosen]
  dsimp only
  rw [run_extend hchosen]
  rcases actor.run action control with ⟨ran, (_ | production) | e | payload⟩
  · rfl
  · dsimp only
    rw [ran.emit_extend (inward.produced fits hchosen)]
  · rfl
  · rfl

theorem unloaded_extend (actor : Actor σ) {cargo : List (String × List Token)} {more : String → List Token}
    (inward : ∀ name ∈ cargo.map Prod.fst, more name = []) :
    (actor.extend more).unloaded cargo = (actor.unloaded cargo).extend more := by
  have hports : ((actor.extend more).unloaded cargo).ports = (actor.unloaded cargo).ports.extend more := by
    apply Std.ExtTreeMap.ext_getElem?
    intro name
    rw [unloaded_getElem?, Ports.extend_getElem?, unloaded_getElem?, Option.map_map]
    refine (congrArg _ (Ports.extend_getElem? _ _ _)).trans ?_
    rw [Option.map_map]
    congr 1
    funext port
    by_cases hname : name ∈ cargo.map Prod.fst
    · simp [inward name hname]
    · simp only [hname, if_false, Function.comp_apply]
  calc (actor.extend more).unloaded cargo
    _ = { actor with ports := ((actor.extend more).unloaded cargo).ports } := rfl
    _ = (actor.unloaded cargo).extend more := by rw [hports]; rfl

end Actor

namespace Registry

variable {r : Registry σ}

theorem stock_names {actor : Actor σ} {name : String} (h : name ∈ (r.stock actor).map Prod.fst) :
    actor.ports[name]?.map Port.direction = some .output := by
  obtain ⟨entry, hentry, rfl⟩ := List.mem_map.mp h
  obtain ⟨name, hname, rfl⟩ := List.mem_map.mp hentry
  exact Ports.pendingOutputs_output (List.mem_filter.mp hname).1

theorem stock_extend {actor : Actor σ} {more : String → List Token} (inward : actor.Inward more) :
    r.stock (actor.extend more) = r.stock actor := by
  unfold stock
  rw [show (actor.extend more).ports = actor.ports.extend more from rfl, Ports.pendingOutputs_extend inward]
  refine List.map_congr_left fun name hname => ?_
  rw [Ports.queueOf_extend (inward name (Ports.pendingOutputs_output (List.mem_filter.mp hname).1))]

section Extend

variable {actor : Actor σ} (single : actor.kind.actions.length = 1) (fits : actor.Fits)
  (ready : actor.chosen.isSome = true) {more : String → List Token} (inward : actor.Inward more)

include single fits ready inward

theorem cargo_extend : r.cargo (actor.extend more) = r.cargo actor := by
  unfold cargo
  rw [Actor.fire_extend single fits ready inward]
  simp only [stock_extend (inward.congr actor.fire_fired.outline)]

theorem spent_extend : r.spent (actor.extend more) = (r.spent actor).extend more := by
  have hinward := inward.congr actor.fire_fired.outline
  rw [spent, cargo_extend single fits ready inward, Actor.fire_extend single fits ready inward]
  apply Actor.unloaded_extend
  intro name hname
  unfold cargo at hname
  split at hname
  · split at hname
    · exact hinward name (stock_names hname)
    · cases hname
  · cases hname
  · cases hname

end Extend

theorem extend_comm (r : Registry σ) {more others : PortAddr → List Token}
    (apart : ∀ addr, more addr = [] ∨ others addr = []) :
    (r.extend more).extend others = (r.extend others).extend more := by
  rw [extend_extend, extend_extend]
  congr 1
  funext addr
  rcases apart addr with h | h <;> simp [h]

theorem setActor_extend (r : Registry σ) {id : ActorId} {actor : Actor σ} (named : actor.id = id)
    (more : PortAddr → List Token) :
    (r.extend more).setActor id (actor.extend fun name => more ⟨id, name⟩) = (r.setActor id actor).extend more := by
  unfold setActor modify extend
  simp only [List.map_map]
  congr 1
  refine List.map_congr_left fun e _ => ?_
  by_cases h : e.actor.id = id <;> simp [Actor.extend, h, named]

theorem setActor_comm (r : Registry σ) {id other : ActorId} {actor actor' : Actor σ} (named : actor.id = id)
    (named' : actor'.id = other) (hne : id ≠ other) :
    (r.setActor id actor).setActor other actor' = (r.setActor other actor').setActor id actor := by
  unfold setActor modify
  simp only [List.map_map]
  congr 1
  refine List.map_congr_left fun e _ => ?_
  by_cases h : e.actor.id = id
  · simp [h, named, hne]
  · by_cases h' : e.actor.id = other
    · simp [h', named', Ne.symm hne]
    · simp [h, h']

theorem setActor_self (distinct : r.ids.Nodup) {id : ActorId} {actor : Actor σ} (h : r.actor? id = some actor) :
    r.setActor id actor = r := by
  have hsame : (r.setActor id actor).entries = r.entries.map fun e => e := by
    refine List.map_congr_left fun e he => ?_
    by_cases hid : e.actor.id = id
    · have hentry := entry?_of_mem distinct he
      rw [actor?, ← hid, hentry] at h
      cases h
      rw [if_pos hid]
    · rw [if_neg hid]
  rw [List.map_id'] at hsame
  cases r
  exact congrArg (Registry.mk · _) hsame

/-! ## Networks with a single action each and a single writer -/

theorem brought_wire {id : ActorId} {cargo : List (String × List Token)} {addr : PortAddr}
    (h : r.brought id cargo addr ≠ []) : ∃ wire ∈ r.wires, wire.source.actor = id ∧ wire.target = addr := by
  obtain ⟨token, htoken⟩ := List.exists_mem_of_ne_nil _ h
  obtain ⟨⟨name, tokens⟩, -, htoken⟩ := List.mem_flatMap.mp htoken
  obtain ⟨target, htarget, htoken⟩ := List.mem_flatMap.mp htoken
  by_cases hsame : target = addr
  · exact ⟨_, mem_targets.mp htarget, rfl, hsame⟩
  · rw [if_neg hsame] at htoken
    cases htoken

/-- Each actor has a single action, and each input is the target of at most one wire. -/
structure Determinate (r : Registry σ) : Prop where
  distinct : r.ids.Nodup
  wired : r.Wired
  single : ∀ id actor, r.actor? id = some actor → actor.kind.actions.length = 1
  writer : ∀ wire ∈ r.wires, ∀ other ∈ r.wires, wire.target = other.target → wire = other

namespace Determinate

theorem alike {r' : Registry σ} (h : r.Determinate) (alike : r.Alike r') (ids : r'.ids = r.ids) :
    r'.Determinate where
  distinct := ids ▸ h.distinct
  wired := h.wired.alike alike
  single := by
    intro id actor' hactor'
    have houtline := alike.outline id
    unfold outline? at houtline
    rw [hactor'] at houtline
    obtain ⟨actor, hactor, hsame⟩ := Option.map_eq_some_iff.mp houtline.symm
    rw [← (Prod.mk.inj hsame).1]
    exact h.single id actor hactor
  writer := by
    rw [alike.wires]
    exact h.writer

theorem fireActor (h : r.Determinate) (id : ActorId) : (r.fireActor id).value.1.Determinate :=
  h.alike (r.fireActor_alike id) (r.ids_fireActor id)

theorem brought_inward (h : r.Determinate) (source : ActorId) (cargo : List (String × List Token)) {id : ActorId}
    {actor : Actor σ} (hactor : r.actor? id = some actor) :
    actor.Inward fun name => r.brought source cargo ⟨id, name⟩ := by
  intro name hname
  by_contra hbrought
  obtain ⟨wire, hwire, -, htarget⟩ := brought_wire hbrought
  have hinput := h.wired.target wire hwire
  rw [htarget, portAt, hactor] at hinput
  rw [show (some actor).bind _ = actor.ports[name]? from rfl, hname] at hinput
  cases hinput

theorem brought_apart (h : r.Determinate) {id other : ActorId} (hne : id ≠ other)
    (cargo cargo' : List (String × List Token)) (addr : PortAddr) :
    r.brought id cargo addr = [] ∨ r.brought other cargo' addr = [] := by
  by_contra hboth
  obtain ⟨hfirst, hsecond⟩ := not_or.mp hboth
  obtain ⟨wire, hwire, hsource, htarget⟩ := brought_wire hfirst
  obtain ⟨wire', hwire', hsource', htarget'⟩ := brought_wire hsecond
  have hsame := h.writer wire hwire wire' hwire' (htarget.trans htarget'.symm)
  exact hne (hsource.symm.trans (hsame ▸ hsource'))

end Determinate

def eligible (r : Registry σ) (id : ActorId) : Bool := (r.actor? id).any (·.chosen.isSome)

theorem eligible_iff {id : ActorId} :
    r.eligible id = true ↔ ∃ actor, r.actor? id = some actor ∧ actor.chosen.isSome = true := by
  unfold eligible
  cases r.actor? id <;> simp

theorem fireActor_ineligible (distinct : r.ids.Nodup) {id : ActorId} (h : r.eligible id = false) :
    (r.fireActor id).value.1 = r := by
  cases hactor : r.actor? id with
  | none => rw [fireActor_unknown hactor]
  | some actor =>
    have hrest : actor.AtRest := by
      rw [eligible, hactor] at h
      exact Option.isNone_iff_eq_none.mp (by simpa using h)
    have hfire := hrest.fire
    have hidle : ∀ result, actor.fire.value.2 = .ok result → result = .idle := by
      rw [hfire]
      exact fun _ hresult => (Outcome.ok.inj hresult).symm
    rw [fireActor_unfired hactor hidle, hfire]
    exact setActor_self distinct hactor

namespace Determinate

theorem fireActor_extend (h : r.Determinate) {id : ActorId} {actor : Actor σ} (hactor : r.actor? id = some actor)
    (ready : actor.chosen.isSome = true) {more : PortAddr → List Token}
    (inward : actor.Inward fun name => more ⟨id, name⟩)
    (apart : ∀ addr, more addr = [] ∨ r.brought id (r.cargo actor) addr = []) :
    ((r.extend more).fireActor id).value.1 = (r.fireActor id).value.1.extend more := by
  have hextended : (r.extend more).actor? id = some (actor.extend fun name => more ⟨id, name⟩) := by
    rw [actor?_extend, hactor]
    rfl
  have hids : (r.extend more).ids.Nodup := by
    rw [ids_extend]
    exact h.distinct
  have hfits := h.wired.fits id actor hactor
  have hspent : (r.extend more).spent (actor.extend fun name => more ⟨id, name⟩) =
      (r.spent actor).extend fun name => more ⟨id, name⟩ := spent_extend (h.single id actor hactor) hfits ready inward
  have hcargo : (r.extend more).cargo (actor.extend fun name => more ⟨id, name⟩) = r.cargo actor :=
    cargo_extend (h.single id actor hactor) hfits ready inward
  rw [fireActor_fst hids hextended, hspent, hcargo, setActor_extend r (spent_id hactor),
    fireActor_fst h.distinct hactor]
  exact extend_comm _ apart

section Two

variable (h : r.Determinate) {id other : ActorId} (hne : id ≠ other) {actor actor' : Actor σ}
  (hactor : r.actor? id = some actor) (ready : actor.chosen.isSome = true) (hother : r.actor? other = some actor')

include h hne hactor ready hother

theorem ready_fireActor : (r.fireActor other).value.1.eligible id = true := by
  obtain ⟨⟨action, control⟩, hchosen⟩ := Option.isSome_iff_exists.mp ready
  have hkept : ((r.setActor other (r.spent actor')).actor? id) = some actor := by
    rw [r.actor?_setActor (spent_id hother), hactor]
    simp [hne]
  rw [eligible_iff, fireActor_fst h.distinct hother, actor?_extend, hkept]
  refine ⟨_, rfl, ?_⟩
  rw [Actor.chosen_extend (h.single id actor hactor) hchosen]
  rfl

theorem fireActor_fireActor :
    ((r.fireActor other).value.1.fireActor id).value.1 =
      (((r.setActor other (r.spent actor')).setActor id (r.spent actor)).extend
        (r.brought id (r.cargo actor))).extend (r.brought other (r.cargo actor')) := by
  let fired := r.setActor other (r.spent actor')
  have hfired : fired.Determinate :=
    h.alike (r.setActor_alike hother (spent_id hother) (r.spent_outline actor')) (r.ids_setActor (spent_id hother))
  have hkept : fired.actor? id = some actor := by
    rw [r.actor?_setActor (spent_id hother), hactor]
    simp [hne]
  have hextend := hfired.fireActor_extend hkept ready (h.brought_inward other (r.cargo actor') hactor)
    (h.brought_apart hne.symm _ _)
  rw [fireActor_fst h.distinct hother, hextend, fireActor_fst hfired.distinct hkept]
  rfl

end Two

theorem fireActor_comm (h : r.Determinate) {id other : ActorId} (hne : id ≠ other) (first : r.eligible id = true)
    (second : r.eligible other = true) :
    ((r.fireActor other).value.1.fireActor id).value.1 = ((r.fireActor id).value.1.fireActor other).value.1 := by
  obtain ⟨actor, hactor, hready⟩ := eligible_iff.mp first
  obtain ⟨actor', hother, hready'⟩ := eligible_iff.mp second
  rw [h.fireActor_fireActor hne hactor hready hother, h.fireActor_fireActor hne.symm hother hready' hactor,
    r.setActor_comm (spent_id hactor) (spent_id hother) hne]
  exact extend_comm _ (h.brought_apart hne _ _)

theorem eligible_fireActor (h : r.Determinate) {id other : ActorId} (hne : id ≠ other) (first : r.eligible id = true) :
    (r.fireActor other).value.1.eligible id = true := by
  obtain ⟨actor, hactor, hready⟩ := eligible_iff.mp first
  cases hother : r.actor? other with
  | none => rwa [fireActor_unknown hother]
  | some actor' => exact h.ready_fireActor hne hactor hready hother

end Determinate

def fireAll (r : Registry σ) (calls : List ActorId) : Registry σ := r.after (calls.map .fire)

theorem fireAll_cons (r : Registry σ) (id : ActorId) (calls : List ActorId) :
    r.fireAll (id :: calls) = (r.fireActor id).value.1.fireAll calls := rfl

def firings : Registry σ → List ActorId → List ActorId
  | _, [] => []
  | r, id :: calls => (if r.eligible id then [id] else []) ++ firings (r.fireActor id).value.1 calls

def Settled (r : Registry σ) : Prop := ∀ id, r.eligible id = false

/-- Each of the calls fires an actor that can fire. -/
def Effective : Registry σ → List ActorId → Prop
  | _, [] => True
  | r, id :: calls => r.eligible id = true ∧ Effective (r.fireActor id).value.1 calls

theorem Determinate.firings (h : r.Determinate) (calls : List ActorId) :
    r.Effective (r.firings calls) ∧ r.fireAll (r.firings calls) = r.fireAll calls := by
  induction calls generalizing r with
  | nil => exact ⟨trivial, rfl⟩
  | cons id calls ih =>
    obtain ⟨heffective, hsame⟩ := ih (h.fireActor id)
    rw [Registry.firings, fireAll_cons]
    cases heligible : r.eligible id with
    | true => exact ⟨⟨heligible, heffective⟩, hsame⟩
    | false =>
      rw [fireActor_ineligible h.distinct heligible] at heffective hsame ⊢
      exact ⟨heffective, hsame⟩

theorem Determinate.mem_of_settled (h : r.Determinate) {calls : List ActorId} {id : ActorId}
    (settled : (r.fireAll calls).Settled) (first : r.eligible id = true) : id ∈ calls := by
  induction calls generalizing r with
  | nil =>
    have hnone : r.eligible id = false := settled id
    rw [first] at hnone
    cases hnone
  | cons head calls ih =>
    by_cases hhead : id = head
    · exact hhead ▸ List.mem_cons_self
    · exact List.mem_cons_of_mem _ (ih (h.fireActor head) settled (h.eligible_fireActor hhead first))

/-- An actor that can fire and is fired later may as well be fired at once. -/
theorem Determinate.front (h : r.Determinate) {calls : List ActorId} {id : ActorId} (effective : r.Effective calls)
    (first : r.eligible id = true) (hmem : id ∈ calls) :
    (r.fireActor id).value.1.Effective (calls.erase id) ∧
      (r.fireActor id).value.1.fireAll (calls.erase id) = r.fireAll calls := by
  induction calls generalizing r with
  | nil => cases hmem
  | cons head calls ih =>
    by_cases hhead : id = head
    · subst hhead
      rw [List.erase_cons_head]
      exact ⟨effective.2, rfl⟩
    · have hother := (List.mem_cons.mp hmem).resolve_left hhead
      have hstill := h.eligible_fireActor hhead first
      obtain ⟨heffective, hsame⟩ := ih (h.fireActor head) effective.2 hstill hother
      rw [h.fireActor_comm hhead first effective.1] at heffective hsame
      rw [List.erase_cons_tail (by simpa using Ne.symm hhead)]
      exact ⟨⟨h.eligible_fireActor (Ne.symm hhead) effective.1, heffective⟩, hsame⟩

/-- What comes to rest fires each actor at least as often as any other sequence, which ends in the same state if it
comes to rest too. -/
theorem Determinate.bounded (h : r.Determinate) {settling calls : List ActorId} (effective : r.Effective settling)
    (settled : (r.fireAll settling).Settled) (others : r.Effective calls) :
    (∀ id, calls.count id ≤ settling.count id) ∧
      ((r.fireAll calls).Settled →
        r.fireAll calls = r.fireAll settling ∧ ∀ id, calls.count id = settling.count id) := by
  induction calls generalizing r settling with
  | nil =>
    refine ⟨fun _ => Nat.zero_le _, fun hrest => ?_⟩
    cases settling with
    | nil => exact ⟨rfl, fun _ => rfl⟩
    | cons head rest =>
      have hnone : r.eligible head = false := hrest head
      rw [effective.1] at hnone
      cases hnone
  | cons id calls ih =>
    have hmem := h.mem_of_settled settled others.1
    obtain ⟨heffective, hsame⟩ := h.front effective others.1 hmem
    obtain ⟨hcount, hends⟩ := ih (h.fireActor id) heffective (hsame ▸ settled) others.2
    have hmore : ∀ other, settling.count other = (id :: settling.erase id).count other :=
      fun other => (List.perm_cons_erase hmem).count_eq other
    refine ⟨fun other => ?_, fun hrest => ?_⟩
    · rw [hmore, List.count_cons, List.count_cons]
      exact Nat.add_le_add_right (hcount other) _
    · obtain ⟨hstate, heq⟩ := hends hrest
      refine ⟨hstate.trans hsame, fun other => ?_⟩
      rw [hmore, List.count_cons, List.count_cons, heq]

theorem firings_concat (r : Registry σ) (calls : List ActorId) (id : ActorId) :
    r.firings (calls ++ [id]) = r.firings calls ++ if (r.fireAll calls).eligible id then [id] else [] := by
  induction calls generalizing r with
  | nil => exact List.append_nil _
  | cons head calls ih => rw [List.cons_append, firings, firings, ih, List.append_assoc, fireAll_cons]

def firstCalls (sequence : Nat → ActorId) (n : Nat) : List ActorId := (List.range n).map sequence

theorem firstCalls_succ (sequence : Nat → ActorId) (n : Nat) :
    firstCalls sequence (n + 1) = firstCalls sequence n ++ [sequence n] := by
  unfold firstCalls
  rw [List.range_succ, List.map_append]
  rfl

theorem exists_last_firing (r : Registry σ) (sequence : Nat → ActorId) (bound : Nat)
    (bounded : ∀ n, (r.firings (firstCalls sequence n)).length ≤ bound) :
    ∃ n, ∀ m, n ≤ m → (r.fireAll (firstCalls sequence m)).eligible (sequence m) = false := by
  by_contra hnever
  have hagain : ∀ n, ∃ m, n ≤ m ∧ (r.fireAll (firstCalls sequence m)).eligible (sequence m) = true := by
    simpa using hnever
  have hstep : ∀ n, (r.firings (firstCalls sequence (n + 1))).length =
      (r.firings (firstCalls sequence n)).length +
        if (r.fireAll (firstCalls sequence n)).eligible (sequence n) then 1 else 0 := by
    intro n
    rw [firstCalls_succ, firings_concat, List.length_append]
    split <;> rfl
  have hmono : Monotone fun n => (r.firings (firstCalls sequence n)).length := by
    refine monotone_nat_of_le_succ fun n => ?_
    rw [hstep]
    exact Nat.le_add_right _ _
  have hmany : ∀ k, ∃ n, k ≤ (r.firings (firstCalls sequence n)).length := by
    intro k
    induction k with
    | zero => exact ⟨0, Nat.zero_le _⟩
    | succ k ih =>
      obtain ⟨n, hn⟩ := ih
      obtain ⟨m, hm, heligible⟩ := hagain n
      refine ⟨m + 1, ?_⟩
      rw [hstep, if_pos heligible]
      exact Nat.succ_le_succ (Nat.le_trans hn (hmono hm))
  obtain ⟨n, hn⟩ := hmany (bound + 1)
  exact Nat.not_succ_le_self bound (Nat.le_trans hn (bounded n))

theorem settled_iff {r : Registry σ} : r.Settled ↔ ∀ id ∈ r.ids, r.eligible id = false := by
  refine ⟨fun h id _ => h id, fun h id => ?_⟩
  cases hactor : r.actor? id with
  | none => rw [eligible, hactor]; rfl
  | some actor =>
    obtain ⟨e, he, -⟩ := Option.map_eq_some_iff.mp hactor
    exact h id (List.mem_map.mpr ⟨e, List.mem_of_find?_eq_some he, entry?_id he⟩)

instance : Decidable r.Settled := decidable_of_iff _ settled_iff.symm

/-- What one sequence that comes to rest tells about all others. -/
structure Determined (r : Registry σ) (settling : List ActorId) : Prop where
  bounded : ∀ calls id, (r.firings calls).count id ≤ (r.firings settling).count id
  ends : ∀ sequence : Nat → ActorId, ∃ n, ∀ m, n ≤ m →
    (r.fireAll (firstCalls sequence m)).eligible (sequence m) = false
  same : ∀ calls, (r.fireAll calls).Settled →
    r.fireAll calls = r.fireAll settling ∧ ∀ id, (r.firings calls).count id = (r.firings settling).count id

/-- A network with a single action each and a single writer is determinate. -/
theorem determinacy (operations : List (Operation σ))
    (single : ∀ e ∈ ((empty : Registry σ).after operations).entries, e.actor.kind.actions.length = 1)
    (writer : ∀ wire ∈ ((empty : Registry σ).after operations).wires,
      ∀ other ∈ ((empty : Registry σ).after operations).wires, wire.target = other.target → wire = other)
    (settling : List ActorId) (settled : (((empty : Registry σ).after operations).fireAll settling).Settled) :
    ((empty : Registry σ).after operations).Determined settling := by
  have hnobody : (empty : Registry σ).ids.Nodup := List.nodup_nil
  have hdeterminate : ((empty : Registry σ).after operations).Determinate := by
    refine ⟨after_distinct hnobody operations, wired_empty.after operations, ?_, writer⟩
    intro id actor hactor
    obtain ⟨e, he, rfl⟩ := Option.map_eq_some_iff.mp hactor
    exact single e (List.mem_of_find?_eq_some he)
  generalize (empty : Registry σ).after operations = r at *
  obtain ⟨heffective, hsettling⟩ := hdeterminate.firings settling
  have hbounded : ∀ calls, (∀ id, (r.firings calls).count id ≤ (r.firings settling).count id) ∧
      ((r.fireAll calls).Settled → r.fireAll calls = r.fireAll settling ∧
        ∀ id, (r.firings calls).count id = (r.firings settling).count id) := by
    intro calls
    obtain ⟨hothers, hcalls⟩ := hdeterminate.firings calls
    have h := hdeterminate.bounded heffective (hsettling ▸ settled) hothers
    rwa [hcalls, hsettling] at h
  refine ⟨fun calls => (hbounded calls).1, fun sequence => ?_, fun calls => (hbounded calls).2⟩
  refine r.exists_last_firing sequence (r.firings settling).length fun n => ?_
  exact (List.subperm_ext_iff.mpr fun id _ => (hbounded (firstCalls sequence n)).1 id).length_le

end Registry

def beacon : ActorType Nat where
  name := "beacon"
  inputs := []
  outputs := ["out"]
  actions := [⟨"emit", ⟨[], ["out"]⟩, some fun left _ => .ok (decide (0 < left)), fun left _ =>
    (left - 1, .ok [.endOfStream])⟩]
  handler := none
  hooks := .none
  valid := by
    refine ⟨nofun, by decide, List.nodup_singleton _, ?_⟩
    simp [Declaration.Accepts]

def listener : ActorType Nat where
  name := "listener"
  inputs := ["in"]
  outputs := []
  actions := [⟨"take", ⟨["in"], []⟩, none, fun heard _ => (heard, .ok [])⟩]
  handler := some fun heard _ => (heard + 1, .error (.failed "end of stream"))
  hooks := .none
  valid := by
    refine ⟨nofun, by decide, List.nodup_singleton _, ?_⟩
    simp [Declaration.Accepts]

def listening : List (Registry.Operation Nat) :=
  [.edit (.add (.new ⟨"a"⟩ beacon 2)) (Actor.fits_new _ _ _),
    .edit (.add (.new ⟨"b"⟩ listener 0)) (Actor.fits_new _ _ _),
    .edit (.connect ⟨⟨"a"⟩, "out"⟩ ⟨⟨"b"⟩, "in"⟩) trivial]

theorem Registry.determinacy_listening :
    (Registry.empty.after listening).wires.length = 1 ∧
      (Registry.empty.after listening).Determined [⟨"a"⟩, ⟨"b"⟩, ⟨"a"⟩, ⟨"b"⟩] ∧
      (Registry.empty.after listening).firings [⟨"b"⟩, ⟨"a"⟩, ⟨"a"⟩, ⟨"b"⟩, ⟨"b"⟩] = [⟨"a"⟩, ⟨"a"⟩, ⟨"b"⟩, ⟨"b"⟩] :=
  ⟨rfl, Registry.determinacy listening (by decide) (by decide) [⟨"a"⟩, ⟨"b"⟩, ⟨"a"⟩, ⟨"b"⟩] (by decide), rfl⟩

end ActorNet
