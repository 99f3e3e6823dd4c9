import ActorNet.Proofs.Heartbeat
import ActorNet.Proofs.Migration

set_option autoImplicit false

/-!
# Refusals

A change is refused by a check, before anything is written, or by the hook with which an actor arrives. A refusal
leaves everything as it was, apart from what that hook has done to the fields of its actor, and nobody has been told to
leave. Nothing has to be taken back for that: changes that are made in place, one write after the other, come to the
same.
-/
namespace ActorNet

variable {σ : Type}

def Entrant.asked (e : Entrant σ) : Entrant σ :=
  { e with actor := { e.actor with state := (e.actor.kind.hooks.after e.actor.state).1 } }

namespace Registry

variable {r r' : Registry σ}

def check (r : Registry σ) : Edit σ → Except ActorError Unit
  | .add actor => if r.contains actor.id then .error (.alreadyRegistered actor.id) else .ok ()
  | .remove id | .pause id | .terminate id => (r.entry id).map fun _ => ()
  | .resume id => (r.expectStatus id .paused).map fun _ => ()
  | .beginMigration id => (r.expectStatus id .enabled).map fun _ => ()
  | .completeMigration id => (r.expectStatus id .migrating).map fun _ => ()
  | .connect source target => do
    let _ ← r.port source .output
    (r.port target .input).map fun _ => ()
  | .push target _ => (r.port target .input).map fun _ => ()
  | .drain source => (r.port source .output).map fun _ => ()

/-- Why a change is refused, and what it leaves. -/
inductive Refused (r : Registry σ) : Edit σ → ActorError → Registry σ → Prop
  | checked (change : Edit σ) (e : ActorError) (h : r.check change = .error e) : Refused r change e r
  | turnedBack (id : ActorId) (e : Entrant σ) (refusal : MigrationError) (h : r.entry? id = some e)
    (status : e.status = .migrating) (answer : (e.actor.kind.hooks.after e.actor.state).2 = .error refusal) :
    Refused r (.completeMigration id) (.migration id refusal) (r.modify id Entrant.asked)

theorem change_settles (r : Registry σ) {change : Edit σ} (other : ∀ id, change ≠ .completeMigration id) :
    ∃ (α : Type) (answer : α → Reply σ) (x : Except ActorError (α × Registry σ)),
      r.change change = r.settle answer x ∧ r.check change = x.map fun _ => () := by
  cases change with
  | completeMigration id => exact absurd rfl (other id)
  | add actor =>
    refine ⟨_, _, _, rfl, ?_⟩
    rw [check, add]
    split <;> rfl
  | remove id | pause id | terminate id =>
    refine ⟨_, _, _, rfl, ?_⟩
    rw [check]
    cases hentry : r.entry id <;> simp [remove, pause, markTerminating, setStatus, hentry] <;> rfl
  | resume id =>
    refine ⟨_, _, _, rfl, ?_⟩
    rw [check, resume, setStatus]
    cases hentry : r.expectStatus id .paused with
    | error e => rfl
    | ok e =>
      rw [entry_found (expectStatus_ok hentry).1]
      rfl
  | beginMigration id =>
    refine ⟨_, _, _, rfl, ?_⟩
    rw [check, beginMigration]
    cases r.expectStatus id .enabled <;> rfl
  | connect source target =>
    refine ⟨_, _, _, rfl, ?_⟩
    rw [check, connect]
    cases r.port source .output with
    | error e => rfl
    | ok output => cases r.port target .input <;> rfl
  | push target token =>
    refine ⟨_, _, _, rfl, ?_⟩
    rw [check, pushInput]
    cases r.port target .input <;> rfl
  | drain source =>
    refine ⟨_, _, _, rfl, ?_⟩
    rw [check, drainOutput]
    cases r.port source .output <;> rfl

theorem settle_error_iff {α : Type} {answer : α → Reply σ} {x : Except ActorError (α × Registry σ)} {e : ActorError} :
    r.settle answer x = (r', .error e) ↔ x.map (fun _ => ()) = .error e ∧ r' = r := by
  cases x with
  | error e' =>
    constructor
    · intro h
      cases h
      exact ⟨rfl, rfl⟩
    · rintro ⟨h, rfl⟩
      cases h
      rfl
  | ok written =>
    constructor
    · intro h
      cases h
    · rintro ⟨h, -⟩
      cases h

theorem expectStatus_found {id : ActorId} {e : Entrant σ} {expected : Status} (h : r.entry? id = some e)
    (status : e.status = expected) : r.expectStatus id expected = .ok e := by
  rw [expectStatus, entry_found h]
  exact if_pos status

theorem setActor_asked (distinct : r.ids.Nodup) {id : ActorId} {e : Entrant σ} {actor : Actor σ}
    {answer : Except MigrationError Unit} (h : r.entry? id = some e) (migrated : e.actor.didMigrate = (actor, answer)) :
    r.setActor id actor = r.modify id Entrant.asked := by
  rw [Actor.didMigrate_frame migrated]
  unfold setActor modify
  congr 1
  refine List.map_congr_left fun other hother => ?_
  by_cases hid : other.actor.id = id
  · have hsame := entry?_of_mem distinct hother
    rw [hid, h] at hsame
    rw [if_pos hid, if_pos hid, ← Option.some.inj hsame, Entrant.asked]
  · rw [if_neg hid, if_neg hid]

theorem arrival_refused (distinct : r.ids.Nodup) {id : ActorId} {e : ActorError}
    (h : r.change (.completeMigration id) = (r', .error e)) : r.Refused (.completeMigration id) e r' := by
  rw [Registry.change, completeMigration] at h
  cases hexpect : r.expectStatus id .migrating with
  | error e' =>
    rw [hexpect] at h
    cases h
    exact .checked _ _ (by rw [check, hexpect]; rfl)
  | ok entrant =>
    obtain ⟨hfound, hstatus⟩ := expectStatus_ok hexpect
    rw [hexpect] at h
    dsimp only at h
    rcases hanswer : entrant.actor.didMigrate with ⟨actor, refusal | _⟩
    · rw [hanswer] at h
      obtain ⟨rfl, rfl⟩ : r.setActor id actor = r' ∧ ActorError.migration id refusal = e := by
        cases h
        exact ⟨rfl, rfl⟩
      rw [setActor_asked distinct hfound hanswer]
      exact .turnedBack id entrant refusal hfound hstatus (congrArg Prod.snd hanswer)
    · rw [hanswer] at h
      cases h

theorem Refused.arrival (distinct : r.ids.Nodup) {id : ActorId} {e : ActorError}
    (h : r.Refused (.completeMigration id) e r') : r.change (.completeMigration id) = (r', .error e) := by
  rw [Registry.change, completeMigration]
  cases h with
  | checked _ _ h =>
    rw [check] at h
    cases hexpect : r.expectStatus id .migrating with
    | error e' =>
      rw [hexpect] at h
      cases h
      rfl
    | ok entrant =>
      rw [hexpect] at h
      cases h
  | turnedBack _ entrant refusal hfound hstatus hanswer =>
    have hmigrated : entrant.actor.didMigrate = (entrant.asked.actor, .error refusal) := Prod.ext rfl hanswer
    rw [expectStatus_found hfound hstatus, ← setActor_asked distinct hfound hmigrated]
    dsimp only
    rw [hmigrated]
    rfl

theorem change_refused_iff (distinct : r.ids.Nodup) {change : Edit σ} {e : ActorError} :
    r.change change = (r', .error e) ↔ r.Refused change e r' := by
  by_cases harrival : ∃ id, change = .completeMigration id
  · obtain ⟨id, rfl⟩ := harrival
    exact ⟨arrival_refused distinct, Refused.arrival distinct⟩
  have hother : ∀ id, change ≠ .completeMigration id := fun id h => harrival ⟨id, h⟩
  obtain ⟨α, answer, x, hchange, hcheck⟩ := r.change_settles hother
  rw [hchange, settle_error_iff, ← hcheck]
  constructor
  · rintro ⟨h, rfl⟩
    exact .checked change e h
  · intro h
    cases h with
    | checked _ _ h => exact ⟨h, rfl⟩
    | turnedBack id => exact absurd rfl (hother id)

/-- The same actors in the same order, with the same types, statuses, queues and wires. -/
structure Unmoved (r r' : Registry σ) : Prop where
  ids : r'.ids = r.ids
  kind : ∀ id, (r'.actor? id).map (·.kind) = (r.actor? id).map (·.kind)
  status : ∀ id, r'.status? id = r.status? id
  port : ∀ addr, r'.portAt addr = r.portAt addr
  wires : r'.wires = r.wires

theorem actor?_asked (r : Registry σ) (id other : ActorId) :
    (r.modify id Entrant.asked).actor? other =
      (r.actor? other).map fun actor => if other = id then actor.didMigrate.1 else actor :=
  r.actor?_modify (fun actor => actor.didMigrate.1) (fun _ => rfl) (fun _ h => h) other

theorem unmoved_asked (r : Registry σ) (id : ActorId) : r.Unmoved (r.modify id Entrant.asked) where
  ids := r.ids_modify fun _ h => h
  kind other := by
    rw [actor?_asked, Option.map_map]
    congr 1
    funext actor
    by_cases h : other = id <;> simp [h, Actor.didMigrate]
  status other := by
    have hnamed : ∀ e : Entrant σ, e.actor.id = id → e.asked.actor.id = id := fun _ h => h
    rw [r.status?_modify hnamed]
    exact congrArg (fun f => (r.entry? other).map f) (funext fun e => ite_self _)
  port addr := by
    rw [portAt, portAt, actor?_asked, Option.bind_map]
    congr 1
    funext actor
    by_cases h : addr.actor = id <;> simp [h, Actor.didMigrate]
  wires := rfl

theorem Refused.unmoved {change : Edit σ} {e : ActorError} (h : r.Refused change e r') : r.Unmoved r' := by
  cases h with
  | checked => exact ⟨rfl, fun _ => rfl, fun _ => rfl, fun _ => rfl, rfl⟩
  | turnedBack id => exact r.unmoved_asked id

theorem Refused.others {change : Edit σ} {e : ActorError} (h : r.Refused change e r') {id : ActorId}
    (other : ∀ refusal, e ≠ .migration id refusal) : r'.entry? id = r.entry? id := by
  cases h with
  | checked => rfl
  | turnedBack asked entrant refusal =>
    refine r.entry?_modify_of_ne (fun _ h => h) fun hid => ?_
    subst hid
    exact other refusal rfl

end Registry

/-! ## Nobody is told to leave -/

/-- The actor with something else to do when it is told to leave. -/
def Actor.departing (before : ActorId → σ → σ) (actor : Actor σ) : Actor σ :=
  { actor with
    kind := { actor.kind with
      hooks := { actor.kind.hooks with before := before actor.id }
      valid := actor.kind.valid } }

def Entrant.departing (before : ActorId → σ → σ) (e : Entrant σ) : Entrant σ :=
  { e with actor := e.actor.departing before }

def Edit.departing (before : ActorId → σ → σ) : Edit σ → Edit σ
  | .add actor => .add (actor.departing before)
  | change => change

namespace Registry

variable {r r' : Registry σ}

def departing (r : Registry σ) (before : ActorId → σ → σ) : Registry σ :=
  { r with entries := r.entries.map (·.departing before) }

section Departing

variable (r) (before : ActorId → σ → σ)

theorem ids_departing : (r.departing before).ids = r.ids := by
  rw [ids, departing, List.map_map]
  rfl

theorem entry?_departing (id : ActorId) : entry? (r.departing before) id = (r.entry? id).map (·.departing before) := by
  unfold entry? departing
  rw [List.find?_map]
  rfl

theorem entry_departing (id : ActorId) : (r.departing before).entry id = (r.entry id).map (·.departing before) := by
  rw [entry, entry, entry?_departing]
  cases r.entry? id <;> rfl

theorem expectStatus_departing (id : ActorId) (expected : Status) :
    (r.departing before).expectStatus id expected = (r.expectStatus id expected).map (·.departing before) := by
  rw [expectStatus, expectStatus, entry_departing]
  cases r.entry id with
  | error e => rfl
  | ok e =>
    change (if e.status = expected then _ else _) = Except.map _ (if e.status = expected then _ else _)
    split <;> rfl

theorem port_departing (addr : PortAddr) (direction : PortDirection) :
    (r.departing before).port addr direction = r.port addr direction := by
  rw [Registry.port, Registry.port, entry_departing]
  cases r.entry addr.actor <;> rfl

theorem contains_departing (id : ActorId) : (r.departing before).contains id = r.contains id := by
  rw [contains, contains, entry?_departing, Option.isSome_map]

theorem check_departing (change : Edit σ) : (r.departing before).check (change.departing before) = r.check change := by
  cases change with
  | add actor =>
    simp only [Edit.departing, check, contains_departing]
    rfl
  | remove id | pause id | terminate id =>
    simp only [Edit.departing, check, entry_departing]
    cases r.entry id <;> rfl
  | resume id | beginMigration id | completeMigration id =>
    simp only [Edit.departing, check, expectStatus_departing]
    cases r.expectStatus id _ <;> rfl
  | connect source target => simp only [Edit.departing, check, port_departing]
  | push target token | drain source => simp only [Edit.departing, check, port_departing]

theorem asked_departing (id : ActorId) :
    (r.modify id Entrant.asked).departing before = (r.departing before).modify id Entrant.asked := by
  unfold modify departing
  rw [List.map_map, List.map_map]
  congr 1
  refine List.map_congr_left fun e _ => ?_
  by_cases h : e.actor.id = id
  · simp [h, Entrant.departing, Entrant.asked, Actor.departing]
  · simp [h, Entrant.departing, Actor.departing]

end Departing

theorem Refused.departing {change : Edit σ} {e : ActorError} (h : r.Refused change e r')
    (before : ActorId → σ → σ) :
    (r.departing before).Refused (change.departing before) e (r'.departing before) := by
  cases h with
  | checked _ _ h => exact .checked _ _ ((r.check_departing before change).trans h)
  | turnedBack id entrant refusal hfound hstatus hanswer =>
    rw [asked_departing]
    refine .turnedBack id (entrant.departing before) refusal ?_ hstatus hanswer
    rw [entry?_departing, hfound]
    rfl

end Registry

/-! ## In place -/

namespace Registry

variable {r : Registry σ}

theorem modify_modify (r : Registry σ) {id : ActorId} {f : Entrant σ → Entrant σ} (g : Entrant σ → Entrant σ)
    (named : ∀ e, e.actor.id = id → (f e).actor.id = id) :
    (r.modify id f).modify id g = r.modify id fun e => g (f e) := by
  unfold modify
  rw [List.map_map]
  congr 1
  refine List.map_congr_left fun e _ => ?_
  by_cases h : e.actor.id = id
  · simp [h, named e h]
  · simp [h]

theorem port_found {addr : PortAddr} {direction : PortDirection} {port : Port} (h : r.port addr direction = .ok port) :
    ∃ e, r.entry addr.actor = .ok e ∧ e.actor.ports[addr.port]? = some port := by
  obtain ⟨actor, hactor, hport⟩ := Option.bind_eq_some_iff.mp (port_ok h).1
  obtain ⟨e, hentry, rfl⟩ := Option.map_eq_some_iff.mp hactor
  exact ⟨e, entry_found hentry, hport⟩

end Registry

/-- Work on a registry in place: what is written stays written when something fails later. -/
abbrev Live (σ α : Type) := EStateM ActorError (Registry σ) α

namespace Live

variable {α : Type}

def look (find : Registry σ → Except ActorError α) : Live σ α := fun r =>
  match find r with
  | .ok value => .ok value r
  | .error e => .error e r

def write (f : Registry σ → Registry σ) : Live σ Unit := fun r => .ok () (f r)

def setStatus (id : ActorId) (status : Status) : Live σ Unit := do
  let _ ← look (·.entry id)
  write (·.modify id ({ · with status }))

def make : Edit σ → Live σ (Reply σ)
  | .add actor => do
    if (← get).contains actor.id then throw (.alreadyRegistered actor.id)
    write fun r => { r with entries := r.entries ++ [⟨actor, .enabled⟩] }
    return .registered actor.id
  | .remove id => do
    -- The entrant is taken out before it is known whether there was one.
    let found := Registry.entry? (← get) id
    write fun r => { r with entries := r.entries.filter (·.actor.id ≠ id) }
    match found with
    | none => throw (.notFound id)
    | some e =>
      write fun r => { r with wires := Registry.wiresWithout id r.wires }
      return .removed e.actor
  | .pause id => do
    setStatus id .paused
    return .done
  | .resume id => do
    let _ ← look (·.expectStatus id .paused)
    setStatus id .enabled
    return .done
  | .terminate id => do
    setStatus id .terminating
    return .done
  | .beginMigration id => do
    let _ ← look (·.expectStatus id .enabled)
    let _ ← look (·.entry id)
    write (·.modify id fun e => { e with actor := e.actor.willMigrate })
    write (·.modify id ({ · with status := .migrating }))
    return .done
  | .completeMigration id => do
    let _ ← look (·.expectStatus id .migrating)
    let e ← look (·.entry id)
    let (actor, answer) := e.actor.didMigrate
    write (·.setActor id actor)
    match answer with
    | .error refusal => throw (.migration id refusal)
    | .ok () =>
      write (·.modify id ({ · with status := .enabled }))
      return .done
  | .connect source target => do
    let _ ← look (·.port source .output)
    let _ ← look (·.port target .input)
    write fun r => if ⟨source, target⟩ ∈ r.wires then r else { r with wires := r.wires ++ [⟨source, target⟩] }
    return .done
  | .push target token => do
    let _ ← look (·.port target .input)
    let e ← look (·.entry target.actor)
    match e.actor.ports[target.port]? with
    | none => throw (.unknownPort target)
    | some _ =>
      write (·.modifyPorts target.actor (·.push target.port [token]))
      return .done
  | .drain source => do
    let _ ← look (·.port source .output)
    let e ← look (·.entry source.actor)
    let queue := (e.actor.ports[source.port]?.map (·.queue)).getD []
    write (·.modifyPorts source.actor (·.setQueue source.port []))
    return .drained queue

def ending : Registry σ × Except ActorError α → EStateM.Result ActorError (Registry σ) α
  | (r, .ok value) => .ok value r
  | (r, .error e) => .error e r

variable {β : Type} {r : Registry σ}

theorem look_ok {find : Registry σ → Except ActorError α} {value : α} (h : find r = .ok value) (rest : α → Live σ β) :
    (look find >>= rest) r = rest value r := by
  change EStateM.bind (look find) rest r = rest value r
  rw [EStateM.bind, look, h]

theorem look_error {find : Registry σ → Except ActorError α} {e : ActorError} (h : find r = .error e)
    (rest : α → Live σ β) : (look find >>= rest) r = .error e r := by
  change EStateM.bind (look find) rest r = .error e r
  rw [EStateM.bind, look, h]

theorem write_bind (f : Registry σ → Registry σ) (rest : Unit → Live σ β) : (write f >>= rest) r = rest () (f r) := rfl

theorem setStatus_done (id : ActorId) (status : Status) (r : Registry σ) :
    (setStatus id status >>= fun _ => pure Reply.done) r =
      ending (r.settle (fun () => .done) ((r.setStatus id status).map ((), ·))) := by
  rw [setStatus, Registry.setStatus, bind_assoc]
  cases hentry : r.entry id with
  | error e =>
    rw [look_error hentry]
    rfl
  | ok e =>
    rw [look_ok hentry]
    rfl

section Each

variable (r : Registry σ)

theorem make_add (actor : Actor σ) : make (.add actor) r = ending (r.change (.add actor)) := by
  change (if r.contains actor.id = true then _ else _ : Live σ _) r = _
  rw [Registry.change, Registry.add]
  by_cases hknown : r.contains actor.id = true
  · rw [if_pos hknown, if_pos hknown]
    rfl
  · rw [if_neg hknown, if_neg hknown]
    rfl

theorem make_remove (id : ActorId) : make (.remove id) r = ending (r.change (.remove id)) := by
  change (match r.entry? id with | none => _ | some e => _ : Live σ _) _ = _
  rw [Registry.change, Registry.remove, Registry.entry]
  cases hfound : r.entry? id with
  | none =>
    -- What has been taken out for nothing is nothing.
    have hall : r.entries.filter (·.actor.id ≠ id) = r.entries := by
      refine List.filter_eq_self.mpr fun e he => ?_
      simpa using List.find?_eq_none.mp hfound e he
    exact congrArg (EStateM.Result.error _) (congrArg (Registry.mk · r.wires) hall)
  | some e => rfl

theorem make_resume (id : ActorId) : make (.resume id) r = ending (r.change (.resume id)) := by
  rw [make, Registry.change, Registry.resume]
  cases hexpect : r.expectStatus id .paused with
  | error e =>
    rw [look_error hexpect]
    rfl
  | ok e =>
    rw [look_ok hexpect]
    exact setStatus_done id .enabled r

theorem make_beginMigration (id : ActorId) :
    make (.beginMigration id) r = ending (r.change (.beginMigration id)) := by
  rw [make, Registry.change, Registry.beginMigration]
  cases hexpect : r.expectStatus id .enabled with
  | error e =>
    rw [look_error hexpect]
    rfl
  | ok e =>
    have hentry := Registry.entry_found (Registry.expectStatus_ok hexpect).1
    have hnamed : ∀ e : Entrant σ, e.actor.id = id → e.actor.willMigrate.id = id := fun _ h => h
    rw [look_ok hexpect, look_ok hentry, write_bind, write_bind]
    exact congrArg (EStateM.Result.ok _) (r.modify_modify _ hnamed)

theorem make_completeMigration (id : ActorId) :
    make (.completeMigration id) r = ending (r.change (.completeMigration id)) := by
  rw [make, Registry.change, Registry.completeMigration]
  cases hexpect : r.expectStatus id .migrating with
  | error e =>
    rw [look_error hexpect]
    rfl
  | ok e =>
    have hfound := (Registry.expectStatus_ok hexpect).1
    rw [look_ok hexpect, look_ok (Registry.entry_found hfound)]
    dsimp only
    rcases hanswer : e.actor.didMigrate with ⟨actor, refusal | _⟩
    · rfl
    · have hnamed := Registry.didMigrate_named hfound hanswer
      dsimp only
      rw [write_bind, write_bind]
      exact congrArg (EStateM.Result.ok _) (r.modify_modify _ fun _ _ => hnamed)

theorem make_connect (source target : PortAddr) :
    make (.connect source target) r = ending (r.change (.connect source target)) := by
  rw [make, Registry.change, Registry.connect]
  cases houtput : r.port source .output with
  | error e =>
    rw [look_error houtput]
    rfl
  | ok output =>
    rw [look_ok houtput]
    cases hinput : r.port target .input with
    | error e =>
      rw [look_error hinput]
      rfl
    | ok input =>
      rw [look_ok hinput]
      rfl

theorem make_push (target : PortAddr) (token : Token) :
    make (.push target token) r = ending (r.change (.push target token)) := by
  rw [make, Registry.change, Registry.pushInput]
  cases hport : r.port target .input with
  | error e =>
    rw [look_error hport]
    rfl
  | ok port =>
    obtain ⟨e, hentry, hfound⟩ := Registry.port_found hport
    rw [look_ok hport, look_ok hentry, hfound]
    rfl

theorem make_drain (source : PortAddr) : make (.drain source) r = ending (r.change (.drain source)) := by
  rw [make, Registry.change, Registry.drainOutput]
  cases hport : r.port source .output with
  | error e =>
    rw [look_error hport]
    rfl
  | ok port =>
    obtain ⟨e, hentry, hfound⟩ := Registry.port_found hport
    rw [look_ok hport, look_ok hentry, hfound]
    rfl

/-- Nothing of a refused change has to be taken back. -/
theorem make_eq (change : Edit σ) : make change r = ending (r.change change) :=
  match change with
  | .add actor => make_add r actor
  | .remove id => make_remove r id
  | .pause id => setStatus_done id .paused r
  | .terminate id => setStatus_done id .terminating r
  | .resume id => make_resume r id
  | .beginMigration id => make_beginMigration r id
  | .completeMigration id => make_completeMigration r id
  | .connect source target => make_connect r source target
  | .push target token => make_push r target token
  | .drain source => make_drain r source

end Each

end Live

namespace Registry

variable {r r' : Registry σ} {change : Edit σ} {e : ActorError}

structure Harmless (r : Registry σ) (change : Edit σ) (e : ActorError) (r' : Registry σ) : Prop where
  cause : r.Refused change e r'
  unmoved : r.Unmoved r'
  others : ∀ id, (∀ refusal, e ≠ .migration id refusal) → r'.entry? id = r.entry? id
  /-- It makes no difference what anybody would do when told to leave. -/
  untold : ∀ before, (r.departing before).change (change.departing before) = (r'.departing before, .error e)
  inPlace : Live.make change r = .error e r'

theorem Refused.harmless (h : r.Refused change e r') (distinct : r.ids.Nodup) : r.Harmless change e r' where
  cause := h
  unmoved := h.unmoved
  others _ := h.others
  untold before := by
    have hdistinct : (r.departing before).ids.Nodup := by rwa [ids_departing]
    exact (change_refused_iff hdistinct).mpr (h.departing before)
  inPlace := by rw [Live.make_eq, (change_refused_iff distinct).mpr h, Live.ending]

theorem edit_refused (h : r.change change = (r', .error e)) : r.edit change = ⟨(r', .error e), []⟩ := by
  unfold edit
  rw [h]
  rfl

theorem harmless_of_edit (distinct : r.ids.Nodup) (h : (r.edit change).value = (r', .error e)) :
    r.Harmless change e r' ∧ (r.edit change).journal = [] := by
  rw [edit_value] at h
  refine ⟨((change_refused_iff distinct).mp h).harmless distinct, ?_⟩
  rw [edit_refused h]

end Registry

namespace Scheduler

variable {s s' : Scheduler σ} {change : Edit σ} {e : ActorError}

theorem edit_error (h : (s.edit change).value = (s', .error e)) :
    s.registry.change change = (s'.registry, .error e) ∧ s' = { s with registry := s'.registry } ∧
      (s.edit change).journal = [] := by
  rcases hchange : s.registry.change change with ⟨r, e' | reply⟩
  · have hedit : s.edit change = ⟨({ s with registry := r }, .error e'), []⟩ := by
      unfold edit
      rw [Registry.edit_refused hchange]
      cases change <;> rfl
    rw [hedit] at h ⊢
    cases h
    exact ⟨rfl, rfl, rfl⟩
  · have hanswer : (s.edit change).value.2 = .ok reply := by
      unfold edit
      rw [Logged.value_bind, Registry.edit_value, hchange]
      cases change <;> rfl
    rw [h] at hanswer
    cases hanswer

end Scheduler

theorem Run.distinct (run : Run σ) : run.state.registry.ids.Nodup := by
  have hempty : (Registry.empty : Registry σ).ids.Nodup := List.nodup_nil
  have kept : Kept fun _ _ (s : Scheduler σ) => s.registry.ids.Nodup :=
    Scheduler.kept_registry (P := (·.ids.Nodup)) fun _ operation distinct =>
      Registry.after_distinct distinct [operation]
  exact (run.invariant kept (Registry.after_distinct hempty run.setup)).1

/-- Whatever has happened before, a change that is refused changes nothing, apart from the fields of an actor that has
itself refused to arrive. -/
theorem Edit.refusals_harmless (change : Edit σ) (e : ActorError) :
    (∀ operations r', ((Registry.empty.after operations).edit change).value = (r', .error e) →
        (Registry.empty.after operations).Harmless change e r' ∧
          ((Registry.empty.after operations).edit change).journal = []) ∧
      ∀ (run : Run σ) s', (run.state.edit change).value = (s', .error e) →
        s' = { run.state with registry := s'.registry } ∧ run.state.registry.Harmless change e s'.registry ∧
          (run.state.edit change).journal = [] ∧ ∀ fits, run.state.perform (.operate (.edit change fits)) = s' := by
  have hempty : (Registry.empty : Registry σ).ids.Nodup := List.nodup_nil
  refine ⟨fun operations r' h => ?_, fun run s' h => ?_⟩
  · exact Registry.harmless_of_edit (Registry.after_distinct hempty operations) h
  · obtain ⟨hchange, hframe, hsilent⟩ := Scheduler.edit_error h
    have hrefused := (Registry.change_refused_iff run.distinct).mp hchange
    refine ⟨hframe, hrefused.harmless run.distinct, hsilent, fun fits => ?_⟩
    rw [hframe, Scheduler.perform, Registry.operate, Registry.edit_value, hchange]

def strander : ActorType Nat where
  name := "strander"
  inputs := []
  outputs := []
  actions := [⟨"wait", ⟨[], []⟩, none, fun asked _ => (asked, .ok [])⟩]
  handler := none
  hooks := ⟨fun _ => 0, fun asked => (asked + 1, .error ⟨"no room"⟩)⟩
  valid := by
    refine ⟨nofun, List.nodup_nil, List.nodup_singleton _, ?_⟩
    simp [Declaration.Accepts]

def stranded : Run Nat where
  setup := [.edit (.add (.new ⟨"m"⟩ strander 0)) (Actor.fits_new _ _ _), .edit (.beginMigration ⟨"m"⟩) trivial]
  config := {}
  valid := rfl
  monitor := .silent
  clock := .origin
  calls := []

theorem Edit.refusals_harmless_stranded :
    ∃ s' : Scheduler Nat,
      (stranded.state.edit (.completeMigration ⟨"m"⟩)).value = (s', .error (.migration ⟨"m"⟩ ⟨"no room"⟩)) ∧
        stranded.state.registry.Harmless (.completeMigration ⟨"m"⟩) (.migration ⟨"m"⟩ ⟨"no room"⟩) s'.registry ∧
        (s'.registry.actor? ⟨"m"⟩).map (·.state) = some 1 :=
  ⟨_, rfl, ((Edit.refusals_harmless _ _).2 stranded _ rfl).2.1, rfl⟩

end ActorNet
