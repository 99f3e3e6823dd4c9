import ActorNet.Proofs.Operations
import Mathlib.Data.List.Nodup

set_option autoImplicit false

/-!
# Wires stay in place

Whatever is done to a registry, its actors keep the types and the ports that they were registered with, and
its wires lead from outputs to inputs of registered actors, each pair being wired once.
-/
namespace ActorNet

variable {σ : Type}

/-- What an actor never changes: its type, and which ports it has. -/
def Actor.outline (actor : Actor σ) : ActorType σ × (String → Option PortDirection) :=
  (actor.kind, fun name => actor.ports[name]?.map Port.direction)

theorem Actor.outline_ports (actor : Actor σ) {ports : Ports}
    (h : ∀ name : String, ports[name]?.map Port.direction = actor.ports[name]?.map Port.direction) (state : σ) :
    ({ actor with ports, state } : Actor σ).outline = actor.outline :=
  congrArg (Prod.mk actor.kind) (funext h)

theorem Actor.Fits.congr {actor actor' : Actor σ} (h : actor.Fits) (outline : actor'.outline = actor.outline) :
    actor'.Fits := by
  obtain ⟨hkind, hports⟩ := Prod.mk.inj outline
  intro name
  rw [congrFun hports name, hkind]
  exact h name

theorem Actor.Fired.outline {actor actor' : Actor σ} {outcome : Outcome FiringError FiringResult}
    (h : actor.Fired actor' outcome) : actor'.outline = actor.outline := by
  have hconsumed : ∀ (action : Action σ) (name : String),
      (action.condition.consume actor.ports).2[name]?.map Port.direction =
        actor.ports[name]?.map Port.direction := by
    intro action name
    rw [Condition.consume_getElem?, Option.map_map]
    rfl
  cases h with
  | idle => rfl
  | absorbed action control state | failed action control state | panicked action control state =>
    exact actor.outline_ports (hconsumed action) state
  | produced action control production state =>
    refine actor.outline_ports (fun name => ?_) state
    rw [← hconsumed action name]
    refine (congrArg _ (Ports.foldl_push_getElem? _ _ _)).trans ?_
    rw [Option.map_map]
    rfl

theorem Actor.Fired.id {actor actor' : Actor σ} {outcome : Outcome FiringError FiringResult}
    (h : actor.Fired actor' outcome) : actor'.id = actor.id := by
  cases h <;> rfl

theorem Actor.didMigrate_frame {actor actor' : Actor σ} {answer : Except MigrationError Unit}
    (h : actor.didMigrate = (actor', answer)) :
    actor' = { actor with state := (actor.kind.hooks.after actor.state).1 } :=
  (congrArg Prod.fst h).symm

theorem Registry.didMigrate_named {r : Registry σ} {id : ActorId} {e : Entrant σ} {actor : Actor σ}
    {answer : Except MigrationError Unit} (h : r.entry? id = some e) (migrated : e.actor.didMigrate = (actor, answer)) :
    actor.id = id := by
  rw [Actor.didMigrate_frame migrated]
  exact entry?_id h

namespace Registry

def outline? (r : Registry σ) (id : ActorId) : Option (ActorType σ × (String → Option PortDirection)) :=
  (r.actor? id).map Actor.outline

/-- The same wires between the same ports. -/
structure Alike (r r' : Registry σ) : Prop where
  outline : ∀ id, r'.outline? id = r.outline? id
  wires : r'.wires = r.wires

theorem Alike.refl (r : Registry σ) : r.Alike r := ⟨fun _ => rfl, rfl⟩

theorem Alike.trans {r r' r'' : Registry σ} (h : r.Alike r') (h' : r'.Alike r'') : r.Alike r'' :=
  ⟨fun id => (h'.outline id).trans (h.outline id), h'.wires.trans h.wires⟩

theorem portAt_direction (r : Registry σ) (addr : PortAddr) :
    (r.portAt addr).map Port.direction = (r.outline? addr.actor).bind fun outline => outline.2 addr.port := by
  unfold portAt outline?
  cases r.actor? addr.actor <;> rfl

theorem Alike.direction {r r' : Registry σ} (h : r.Alike r') (addr : PortAddr) :
    (r'.portAt addr).map Port.direction = (r.portAt addr).map Port.direction := by
  rw [portAt_direction, portAt_direction, h.outline]

theorem modify_alike (r : Registry σ) (g : Actor σ → Actor σ) {id : ActorId} {f : Entrant σ → Entrant σ}
    (change : ∀ e, (f e).actor = g e.actor) (named : ∀ actor, actor.id = id → (g actor).id = id)
    (same : ∀ actor, r.actor? id = some actor → (g actor).outline = actor.outline) :
    r.Alike (r.modify id f) where
  wires := rfl
  outline other := by
    unfold outline?
    rw [r.actor?_modify g change named, Option.map_map]
    cases hactor : r.actor? other with
    | none => rfl
    | some actor =>
      by_cases h : other = id
      · subst h
        simp [same actor hactor]
      · simp [h]

theorem modifyPorts_alike (r : Registry σ) (id : ActorId) {f : Ports → Ports}
    (same : ∀ (ports : Ports) (name : String),
      (f ports)[name]?.map Port.direction = ports[name]?.map Port.direction) :
    r.Alike (r.modifyPorts id f) :=
  r.modify_alike (fun actor => { actor with ports := f actor.ports }) (fun _ => rfl) (fun _ h => h)
    fun actor _ => actor.outline_ports (same actor.ports) actor.state

theorem push_alike (r : Registry σ) (target : PortAddr) (tokens : List Token) :
    r.Alike (r.modifyPorts target.actor (·.push target.port tokens)) := by
  apply r.modifyPorts_alike target.actor
  intro ports name
  rw [Ports.push_getElem?, Option.map_map]
  rfl

theorem setQueue_alike (r : Registry σ) (source : PortAddr) (queue : List Token) :
    r.Alike (r.modifyPorts source.actor (·.setQueue source.port queue)) := by
  apply r.modifyPorts_alike source.actor
  intro ports name
  rw [Ports.setQueue_getElem?, Option.map_map]
  rfl

theorem send_alike (tokens : List Token) (targets : List PortAddr) (r : Registry σ) :
    r.Alike (send tokens targets r).1 := by
  induction targets generalizing r with
  | nil => exact .refl r
  | cons target targets ih =>
    rw [send]
    split
    · exact ih r
    · exact (r.push_alike target tokens).trans (ih _)

theorem sendEach_alike (id : ActorId) (outgoing : List (String × List Token)) (r : Registry σ)
    (reached : List ActorId) : r.Alike (sendEach id outgoing (r, reached)).1 := by
  induction outgoing generalizing r reached with
  | nil => exact .refl r
  | cons head outgoing ih =>
    rw [sendEach, List.foldl_cons]
    exact (send_alike _ _ r).trans (ih _ _)

theorem deliver_alike (r : Registry σ) (id : ActorId) : r.Alike (r.deliver id).1 := by
  rw [deliver_eq]
  refine Alike.trans (r.modifyPorts_alike id fun ports name => ?_) (sendEach_alike _ _ _ _)
  rw [Ports.foldl_setQueue_getElem?, Option.map_map]
  rfl

theorem firing_alike {r fired : Registry σ} {id : ActorId} {outcome : Outcome FiringError FiringResult}
    (h : r.firing id = some (fired, outcome)) : r.Alike fired := by
  obtain ⟨actor, hactor, hfired⟩ := Option.map_eq_some_iff.mp h
  cases hfired
  refine r.modify_alike (fun _ => actor.fire.value.1) (fun _ => rfl) (fun _ _ => ?_) fun other hother => ?_
  · rw [actor.fire_fired.id]
    exact actor?_id hactor
  · rw [hactor] at hother
    cases hother
    exact actor.fire_fired.outline

theorem fireActor_alike (r : Registry σ) (id : ActorId) : r.Alike (r.fireActor id).value.1 := by
  rw [fireActor_value]
  rcases h : r.firing id with _ | ⟨fired, result | e | payload⟩
  · exact .refl r
  · dsimp only
    split
    · exact (firing_alike h).trans (fired.deliver_alike id)
    · exact firing_alike h
  · exact firing_alike h
  · exact firing_alike h

theorem migrated_alike (r : Registry σ) {id : ActorId} {e : Entrant σ} (h : r.entry? id = some e)
    {actor : Actor σ} {answer : Except MigrationError Unit} (migrated : e.actor.didMigrate = (actor, answer))
    {f : Entrant σ → Entrant σ} (change : ∀ e, (f e).actor = actor) : r.Alike (r.modify id f) := by
  refine r.modify_alike (fun _ => actor) change (fun _ _ => didMigrate_named h migrated) fun other hother => ?_
  rw [actor?, h] at hother
  cases hother
  rw [Actor.didMigrate_frame migrated]
  rfl

/-- Actors have the ports of their types, and each wire leads once from an output to an input. -/
structure Wired (r : Registry σ) : Prop where
  fits : ∀ id actor, r.actor? id = some actor → actor.Fits
  source : ∀ wire ∈ r.wires, (r.portAt wire.source).map Port.direction = some .output
  target : ∀ wire ∈ r.wires, (r.portAt wire.target).map Port.direction = some .input
  distinct : r.wires.Nodup

theorem wired_empty : (empty : Registry σ).Wired where
  fits := nofun
  source := nofun
  target := nofun
  distinct := List.nodup_nil

theorem portAt_without {r : Registry σ} {id : ActorId} {addr : PortAddr} (h : addr.actor ≠ id) :
    (r.without id).portAt addr = r.portAt addr := by
  rw [portAt, actor?_without, if_neg h]
  rfl

theorem portAt_enroll {r : Registry σ} {actor : Actor σ} (fresh : r.contains actor.id = false) {addr : PortAddr}
    {port : Port} (h : r.portAt addr = some port) : (r.enroll actor).portAt addr = some port := by
  have hother : addr.actor ≠ actor.id := by
    intro hid
    obtain ⟨old, hold, -⟩ := Option.bind_eq_some_iff.mp h
    rw [contains_iff.mpr ⟨old, hid ▸ hold⟩] at fresh
    cases fresh
  rw [portAt, actor?_enroll fresh, if_neg hother]
  exact h

theorem enroll_direction {r : Registry σ} {actor : Actor σ} (fresh : r.contains actor.id = false)
    {addr : PortAddr} {direction : PortDirection} (h : (r.portAt addr).map Port.direction = some direction) :
    ((r.enroll actor).portAt addr).map Port.direction = some direction := by
  obtain ⟨port, hport, hdirection⟩ := Option.map_eq_some_iff.mp h
  rw [portAt_enroll fresh hport]
  exact congrArg some hdirection

namespace Wired

variable {r r' : Registry σ}

theorem alike (h : r.Wired) (alike : r.Alike r') : r'.Wired where
  fits := by
    intro id actor' hactor'
    have houtline := alike.outline id
    unfold outline? at houtline
    rw [hactor'] at houtline
    obtain ⟨actor, hactor, hsame⟩ := Option.map_eq_some_iff.mp houtline.symm
    exact (h.fits id actor hactor).congr hsame.symm
  source := by
    rw [alike.wires]
    exact fun wire hwire => (alike.direction wire.source).trans (h.source wire hwire)
  target := by
    rw [alike.wires]
    exact fun wire hwire => (alike.direction wire.target).trans (h.target wire hwire)
  distinct := by
    rw [alike.wires]
    exact h.distinct

theorem enroll (h : r.Wired) {actor : Actor σ} (fits : actor.Fits) (fresh : r.contains actor.id = false) :
    (r.enroll actor).Wired where
  fits := by
    intro id other hother
    rw [actor?_enroll fresh] at hother
    by_cases hid : id = actor.id
    · rw [if_pos hid] at hother
      cases hother
      exact fits
    · rw [if_neg hid] at hother
      exact h.fits id other hother
  source := fun wire hwire => enroll_direction fresh (h.source wire hwire)
  target := fun wire hwire => enroll_direction fresh (h.target wire hwire)
  distinct := h.distinct

theorem without (h : r.Wired) (id : ActorId) : (r.without id).Wired where
  fits := by
    intro other actor hactor
    rw [actor?_without] at hactor
    by_cases hid : other = id
    · rw [if_pos hid] at hactor
      cases hactor
    · rw [if_neg hid] at hactor
      exact h.fits other actor hactor
  source := by
    intro wire hwire
    obtain ⟨hold, hsource, -⟩ : wire ∈ r.wires ∧ wire.source.actor ≠ id ∧ wire.target.actor ≠ id := by
      simpa [Registry.without, wiresWithout] using hwire
    rw [portAt_without hsource]
    exact h.source wire hold
  target := by
    intro wire hwire
    obtain ⟨hold, -, htarget⟩ : wire ∈ r.wires ∧ wire.source.actor ≠ id ∧ wire.target.actor ≠ id := by
      simpa [Registry.without, wiresWithout] using hwire
    rw [portAt_without htarget]
    exact h.target wire hold
  distinct := h.distinct.filter _

theorem connected (h : r.Wired) {source target : PortAddr}
    (hsource : (r.portAt source).map Port.direction = some .output)
    (htarget : (r.portAt target).map Port.direction = some .input)
    (fresh : (⟨source, target⟩ : Wire) ∉ r.wires) :
    ({ r with wires := r.wires ++ [⟨source, target⟩] } : Registry σ).Wired where
  fits := h.fits
  source := by
    intro wire hwire
    rcases List.mem_append.mp hwire with hold | hnew
    · exact h.source wire hold
    · rw [List.mem_singleton.mp hnew]
      exact hsource
  target := by
    intro wire hwire
    rcases List.mem_append.mp hwire with hold | hnew
    · exact h.target wire hold
    · rw [List.mem_singleton.mp hnew]
      exact htarget
  distinct := by
    rw [← List.concat_eq_append]
    exact h.distinct.concat fresh

theorem changed (h : r.Wired) {change : Edit σ} (fits : change.Fits) {answer : Except ActorError (Reply σ)}
    (changed : r.Changed change (r', answer)) : r'.Wired := by
  cases changed with
  | refused => exact h
  | added actor fresh => exact h.enroll fits fresh
  | removed id => exact h.without id
  | paused id | resumed id | terminated id =>
    exact h.alike (r.modify_alike _ (fun _ => rfl) (fun _ hid => hid) fun _ _ => rfl)
  | left id =>
    exact h.alike (r.modify_alike Actor.willMigrate (fun _ => rfl) (fun _ hid => hid) fun _ _ => rfl)
  | arrived id e actor hentry hstatus hanswer => exact h.alike (r.migrated_alike hentry hanswer fun _ => rfl)
  | turnedBack id e actor refusal hentry hstatus hanswer =>
    exact h.alike (r.migrated_alike hentry hanswer fun _ => rfl)
  | connected source target output input hsource htarget hout hin fresh =>
    refine h.connected ?_ ?_ fresh
    · rw [hsource, ← hout]
      rfl
    · rw [htarget, ← hin]
      rfl
  | connectedBefore => exact h
  | pushed target token => exact h.alike (r.push_alike target [token])
  | drained source => exact h.alike (r.setQueue_alike source [])

theorem operate (h : r.Wired) (operation : Operation σ) : (r.operate operation).Wired := by
  cases operation with
  | edit change fits =>
    rw [Registry.operate, edit_value]
    exact h.changed fits (r.change_changed change)
  | fire id => exact h.alike (r.fireActor_alike id)

theorem after (h : r.Wired) (operations : List (Operation σ)) : (r.after operations).Wired := by
  induction operations generalizing r with
  | nil => exact h
  | cons operation operations ih => exact ih (h.operate operation)

end Wired

theorem operate_outline (r : Registry σ) (operation : Operation σ) :
    (∃ actor fits, operation = .edit (.add actor) fits ∧ r.contains actor.id = false ∧
        r.operate operation = r.enroll actor) ∨
      (∃ id fits, operation = .edit (.remove id) fits ∧ r.operate operation = r.without id) ∨
        ∀ id, (r.operate operation).outline? id = r.outline? id := by
  cases operation with
  | fire id => exact .inr (.inr (r.fireActor_alike id).outline)
  | edit change fits =>
    rw [operate, edit_value]
    have hchanged := r.change_changed change
    rcases hvalue : r.change change with ⟨r', answer⟩
    rw [hvalue] at hchanged
    cases hchanged with
    | refused => exact .inr (.inr fun _ => rfl)
    | added actor fresh => exact .inl ⟨actor, fits, rfl, fresh, rfl⟩
    | removed id => exact .inr (.inl ⟨id, fits, rfl, rfl⟩)
    | paused id | resumed id | terminated id =>
      exact .inr (.inr (r.modify_alike _ (fun _ => rfl) (fun _ hid => hid) fun _ _ => rfl).outline)
    | left id =>
      exact .inr (.inr
        (r.modify_alike Actor.willMigrate (fun _ => rfl) (fun _ hid => hid) fun _ _ => rfl).outline)
    | arrived id e actor hentry hstatus hanswer =>
      exact .inr (.inr (r.migrated_alike hentry hanswer fun _ => rfl).outline)
    | turnedBack id e actor refusal hentry hstatus hanswer =>
      exact .inr (.inr (r.migrated_alike hentry hanswer fun _ => rfl).outline)
    | connected | connectedBefore => exact .inr (.inr fun _ => rfl)
    | pushed target token => exact .inr (.inr (r.push_alike target [token]).outline)
    | drained source => exact .inr (.inr (r.setQueue_alike source []).outline)

end Registry

end ActorNet
