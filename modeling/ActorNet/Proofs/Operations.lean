import ActorNet.Proofs.Delivery
import ActorNet.Registry.Edit

set_option autoImplicit false

/-!
# Runs of a registry

An operation is a change or a firing. A registry comes out of the empty one by operations; what is added
to it are actors whose ports are the declared ones, as those of every actor are that is made from its type.
-/
namespace ActorNet

variable {σ : Type}

def Edit.Fits : Edit σ → Prop
  | .add actor => actor.Fits
  | _ => True

namespace Registry

inductive Operation (σ : Type) where
  | edit (change : Edit σ) (fits : change.Fits)
  | fire (id : ActorId)

def operate (r : Registry σ) : Operation σ → Registry σ
  | .edit change _ => (r.edit change).value.1
  | .fire id => (r.fireActor id).value.1

/-- The registry after some operations, one after the other. -/
def after (r : Registry σ) (operations : List (Operation σ)) : Registry σ := operations.foldl operate r

theorem after_append (r : Registry σ) (first second : List (Operation σ)) :
    r.after (first ++ second) = (r.after first).after second := List.foldl_append

theorem edit_value (r : Registry σ) (change : Edit σ) : (r.edit change).value = r.change change := by
  unfold edit
  rcases r.change change with ⟨r', answer⟩
  cases answer <;> rfl

inductive Changed (r : Registry σ) : Edit σ → Registry σ × Except ActorError (Reply σ) → Prop
  | refused (change : Edit σ) (e : ActorError) : Changed r change (r, .error e)
  | added (actor : Actor σ) (fresh : r.contains actor.id = false) :
    Changed r (.add actor) (r.enroll actor, .ok (.registered actor.id))
  | removed (id : ActorId) (e : Entrant σ) (h : r.entry? id = some e) :
    Changed r (.remove id) (r.without id, .ok (.removed e.actor))
  | paused (id : ActorId) (e : Entrant σ) (h : r.entry? id = some e) :
    Changed r (.pause id) (r.modify id ({ · with status := .paused }), .ok .done)
  | resumed (id : ActorId) (e : Entrant σ) (h : r.entry? id = some e) (status : e.status = .paused) :
    Changed r (.resume id) (r.modify id ({ · with status := .enabled }), .ok .done)
  | terminated (id : ActorId) (e : Entrant σ) (h : r.entry? id = some e) :
    Changed r (.terminate id) (r.modify id ({ · with status := .terminating }), .ok .done)
  | left (id : ActorId) (e : Entrant σ) (h : r.entry? id = some e) (status : e.status = .enabled) :
    Changed r (.beginMigration id) (r.modify id fun e => ⟨e.actor.willMigrate, .migrating⟩, .ok .done)
  | arrived (id : ActorId) (e : Entrant σ) (actor : Actor σ) (h : r.entry? id = some e)
    (status : e.status = .migrating) (answer : e.actor.didMigrate = (actor, .ok ())) :
    Changed r (.completeMigration id) (r.modify id fun _ => ⟨actor, .enabled⟩, .ok .done)
  | turnedBack (id : ActorId) (e : Entrant σ) (actor : Actor σ) (refusal : MigrationError)
    (h : r.entry? id = some e) (status : e.status = .migrating)
    (answer : e.actor.didMigrate = (actor, .error refusal)) :
    Changed r (.completeMigration id) (r.setActor id actor, .error (.migration id refusal))
  | connected (source target : PortAddr) (output input : Port) (houtput : r.portAt source = some output)
    (hinput : r.portAt target = some input) (out : output.direction = .output) (in_ : input.direction = .input)
    (fresh : (⟨source, target⟩ : Wire) ∉ r.wires) :
    Changed r (.connect source target) ({ r with wires := r.wires ++ [⟨source, target⟩] }, .ok .done)
  | connectedBefore (source target : PortAddr) (known : (⟨source, target⟩ : Wire) ∈ r.wires) :
    Changed r (.connect source target) (r, .ok .done)
  | pushed (target : PortAddr) (token : Token) (port : Port) (h : r.portAt target = some port)
    (input : port.direction = .input) :
    Changed r (.push target token) (r.modifyPorts target.actor (·.push target.port [token]), .ok .done)
  | drained (source : PortAddr) (port : Port) (h : r.portAt source = some port)
    (output : port.direction = .output) :
    Changed r (.drain source)
      (r.modifyPorts source.actor (·.setQueue source.port []), .ok (.drained port.queue))

theorem entry_ok {r : Registry σ} {id : ActorId} {e : Entrant σ} (h : r.entry id = .ok e) :
    r.entry? id = some e := by
  unfold entry at h
  cases hentry : r.entry? id with
  | none =>
    rw [hentry] at h
    cases h
  | some e' =>
    rw [hentry] at h
    rw [Except.ok.inj h]

theorem entry_found {r : Registry σ} {id : ActorId} {e : Entrant σ} (h : r.entry? id = some e) :
    r.entry id = .ok e := by
  rw [entry, h]

theorem expectStatus_ok {r : Registry σ} {id : ActorId} {expected : Status} {e : Entrant σ}
    (h : r.expectStatus id expected = .ok e) : r.entry? id = some e ∧ e.status = expected := by
  unfold expectStatus at h
  cases hentry : r.entry id with
  | error e' =>
    rw [hentry] at h
    cases h
  | ok e' =>
    rw [hentry] at h
    change (if e'.status = expected then pure e' else throw _ : Except ActorError (Entrant σ)) = .ok e at h
    by_cases hstatus : e'.status = expected
    · rw [if_pos hstatus] at h
      cases h
      exact ⟨entry_ok hentry, hstatus⟩
    · rw [if_neg hstatus] at h
      cases h

theorem port_ok {r : Registry σ} {addr : PortAddr} {direction : PortDirection} {port : Port}
    (h : r.port addr direction = .ok port) : r.portAt addr = some port ∧ port.direction = direction := by
  unfold Registry.port at h
  cases hentry : r.entry addr.actor with
  | error e =>
    rw [hentry] at h
    cases h
  | ok e =>
    rw [hentry] at h
    change e.actor.port addr.port direction = .ok port at h
    have hat : r.portAt addr = e.actor.ports[addr.port]? := by
      rw [portAt, actor?, entry_ok hentry]
      rfl
    unfold Actor.port at h
    rw [hat]
    cases hport : e.actor.ports[addr.port]? with
    | none =>
      rw [hport] at h
      cases h
    | some port' =>
      rw [hport] at h
      dsimp only at h
      by_cases hdirection : port'.direction = direction
      · rw [if_pos hdirection] at h
        cases h
        exact ⟨rfl, hdirection⟩
      · rw [if_neg hdirection] at h
        cases h

section Each

variable (r : Registry σ)

theorem add_changed (actor : Actor σ) : Changed r (.add actor) (r.change (.add actor)) := by
  rw [Registry.change, add]
  by_cases hknown : r.contains actor.id = true
  · rw [if_pos hknown]
    exact .refused _ _
  · rw [if_neg hknown]
    exact .added actor (eq_false_of_ne_true hknown)

theorem remove_changed (id : ActorId) : Changed r (.remove id) (r.change (.remove id)) := by
  rw [Registry.change, remove]
  cases hentry : r.entry id with
  | error e => exact .refused _ _
  | ok e => exact .removed id e (entry_ok hentry)

theorem pause_changed (id : ActorId) : Changed r (.pause id) (r.change (.pause id)) := by
  rw [Registry.change, pause, setStatus]
  cases hentry : r.entry id with
  | error e => exact .refused _ _
  | ok e => exact .paused id e (entry_ok hentry)

theorem resume_changed (id : ActorId) : Changed r (.resume id) (r.change (.resume id)) := by
  rw [Registry.change, resume]
  cases hentry : r.expectStatus id .paused with
  | error e => exact .refused _ _
  | ok e =>
    obtain ⟨hfound, hstatus⟩ := expectStatus_ok hentry
    have hset : r.setStatus id .enabled = .ok (r.modify id ({ · with status := .enabled })) := by
      rw [setStatus, entry_found hfound]
      rfl
    change Changed r (.resume id) (r.settle (fun () => .done) ((r.setStatus id .enabled).map ((), ·)))
    rw [hset]
    exact .resumed id e hfound hstatus

theorem terminate_changed (id : ActorId) : Changed r (.terminate id) (r.change (.terminate id)) := by
  rw [Registry.change, markTerminating, setStatus]
  cases hentry : r.entry id with
  | error e => exact .refused _ _
  | ok e => exact .terminated id e (entry_ok hentry)

theorem beginMigration_changed (id : ActorId) : Changed r (.beginMigration id) (r.change (.beginMigration id)) := by
  rw [Registry.change, beginMigration]
  cases hentry : r.expectStatus id .enabled with
  | error e => exact .refused _ _
  | ok e =>
    obtain ⟨hfound, hstatus⟩ := expectStatus_ok hentry
    exact .left id e hfound hstatus

theorem completeMigration_changed (id : ActorId) :
    Changed r (.completeMigration id) (r.change (.completeMigration id)) := by
  rw [Registry.change, completeMigration]
  cases hentry : r.expectStatus id .migrating with
  | error e => exact .refused _ _
  | ok e =>
    obtain ⟨hfound, hstatus⟩ := expectStatus_ok hentry
    dsimp only
    rcases hanswer : e.actor.didMigrate with ⟨actor, refusal | _⟩
    · exact .turnedBack id e actor refusal hfound hstatus hanswer
    · exact .arrived id e actor hfound hstatus hanswer

theorem connect_changed (source target : PortAddr) :
    Changed r (.connect source target) (r.change (.connect source target)) := by
  rw [Registry.change, connect]
  cases houtput : r.port source .output with
  | error e => exact .refused _ _
  | ok output =>
    cases hinput : r.port target .input with
    | error e => exact .refused _ _
    | ok input =>
      obtain ⟨hsource, hout⟩ := port_ok houtput
      obtain ⟨htarget, hin⟩ := port_ok hinput
      change Changed r _ (r.settle (fun () => .done) (.ok ((), if _ then _ else _)))
      by_cases hknown : (⟨source, target⟩ : Wire) ∈ r.wires
      · rw [if_pos hknown]
        exact .connectedBefore source target hknown
      · rw [if_neg hknown]
        exact .connected source target output input hsource htarget hout hin hknown

theorem push_changed (target : PortAddr) (token : Token) :
    Changed r (.push target token) (r.change (.push target token)) := by
  rw [Registry.change, pushInput]
  cases hport : r.port target .input with
  | error e => exact .refused _ _
  | ok port => exact .pushed target token port (port_ok hport).1 (port_ok hport).2

theorem drain_changed (source : PortAddr) : Changed r (.drain source) (r.change (.drain source)) := by
  rw [Registry.change, drainOutput]
  cases hport : r.port source .output with
  | error e => exact .refused _ _
  | ok port => exact .drained source port (port_ok hport).1 (port_ok hport).2

theorem change_changed (change : Edit σ) : Changed r change (r.change change) :=
  match change with
  | .add actor => r.add_changed actor
  | .remove id => r.remove_changed id
  | .pause id => r.pause_changed id
  | .resume id => r.resume_changed id
  | .terminate id => r.terminate_changed id
  | .beginMigration id => r.beginMigration_changed id
  | .completeMigration id => r.completeMigration_changed id
  | .connect source target => r.connect_changed source target
  | .push target token => r.push_changed target token
  | .drain source => r.drain_changed source

end Each

end Registry

end ActorNet
