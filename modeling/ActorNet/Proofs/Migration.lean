import ActorNet.Proofs.Cycles
import ActorNet.Proofs.Reaction
import Mathlib.Data.List.Induction

set_option autoImplicit false

/-!
# Migrations

An actor leaves with one hook and arrives with another. Between the two it is under way, and is to stay out of
the cycles. `Turned` lists what an operation can do to the status of an actor. An actor that is paused under way
is resumed like any other, without having arrived; it stays out of the cycles, and its hooks alternate, as long
as that does not happen.
-/
namespace ActorNet

variable {σ : Type}

namespace Registry

variable {r r' : Registry σ}

theorem status?_eq (r : Registry σ) (id : ActorId) :
    r.status? id = (r.roster.find? (·.1 = id)).map (·.2) := by
  rw [status?, entry?, roster, List.find?_map, Option.map_map]
  rfl

theorem mem_enabled (distinct : r.ids.Nodup) {id : ActorId} : id ∈ r.enabled ↔ r.status? id = some .enabled := by
  unfold enabled status?
  rw [List.mem_map]
  constructor
  · rintro ⟨e, he, rfl⟩
    obtain ⟨hmem, henabled⟩ := List.mem_filter.mp he
    rw [entry?_of_mem distinct hmem]
    cases hstatus : e.status with
    | enabled => exact congrArg some hstatus
    | paused | migrating | terminating =>
      rw [hstatus] at henabled
      cases henabled
  · intro hstatus
    obtain ⟨e, hentry, henabled⟩ := Option.map_eq_some_iff.mp hstatus
    exact ⟨e, List.mem_filter.mpr ⟨List.mem_of_find?_eq_some hentry, by rw [henabled]; rfl⟩, entry?_id hentry⟩

end Registry

/-- What marks the migrations of an actor: it departs, it is resumed, it arrives, it is removed. -/
inductive Passage where
  | departed
  | resumed
  | arrived
  | removed
deriving DecidableEq

def Edit.passage? (id : ActorId) : Edit σ → Option Passage
  | .beginMigration other => if other = id then some .departed else none
  | .resume other => if other = id then some .resumed else none
  | .completeMigration other => if other = id then some .arrived else none
  | .remove other => if other = id then some .removed else none
  | .add _ | .pause _ | .terminate _ | .connect .. | .push .. | .drain _ => none

inductive Turned : Option Status → Option Passage → Option Status → Prop
  | departs : Turned (some .enabled) (some .departed) (some .migrating)
  | arrives : Turned (some .migrating) (some .arrived) (some .enabled)
  | resumes : Turned (some .paused) (some .resumed) (some .enabled)
  | removes (status : Status) : Turned (some status) (some .removed) none
  | comes : Turned none none (some .enabled)
  | pauses (status : Status) : Turned (some status) none (some .paused)
  | terminates (status : Status) : Turned (some status) none (some .terminating)
  | stays (status : Option Status) : Turned status none status

namespace Turned

variable {status status' : Option Status}

theorem departed (h : Turned status (some .departed) status') : status = some .enabled := by
  cases h
  rfl

theorem arrived (h : Turned status (some .arrived) status') : status = some .migrating := by
  cases h
  rfl

theorem resumed (h : Turned status (some .resumed) status') : status' = some .enabled := by
  cases h
  rfl

end Turned

namespace Registry

variable {r r' : Registry σ}

def passage? (r : Registry σ) (id : ActorId) : Operation σ → Option Passage
  | .edit change _ => if (r.change change).2.isOk then change.passage? id else none
  | .fire _ => none

theorem status?_modify (r : Registry σ) {id : ActorId} {f : Entrant σ → Entrant σ}
    (named : ∀ e, e.actor.id = id → (f e).actor.id = id) (other : ActorId) :
    (r.modify id f).status? other = (r.entry? other).map fun e => if other = id then (f e).status else e.status := by
  rw [status?, r.entry?_modify named, Option.map_map]
  congr 1
  funext e
  by_cases h : other = id <;> simp [h]

theorem turned_modify {id other : ActorId} {f : Entrant σ → Entrant σ} {e : Entrant σ}
    {passage turning : Option Passage} (h : r.entry? other = some e)
    (named : ∀ e, e.actor.id = other → (f e).actor.id = other)
    (turned : Turned (some e.status) turning (some (f e).status))
    (hpassage : passage = if other = id then turning else none) :
    Turned (r.status? id) passage ((r.modify other f).status? id) := by
  rw [r.status?_modify named, hpassage]
  by_cases hid : other = id
  · subst hid
    rw [if_pos rfl, status?, h]
    simpa using turned
  · simp only [hid, Ne.symm hid, if_false]
    exact .stays _

theorem Changed.turned {change : Edit σ} {answer : Except ActorError (Reply σ)} (h : r.Changed change (r', answer))
    (id : ActorId) :
    Turned (r.status? id) (if answer.isOk then change.passage? id else none) (r'.status? id) := by
  cases h with
  | refused | connected | connectedBefore => exact .stays _
  | added actor fresh =>
    by_cases hid : id = actor.id
    · have hbefore : r.entry? id = none := by simpa [contains, hid] using fresh
      have hafter : entry? (r.enroll actor) id = some ⟨actor, .enabled⟩ := by
        unfold entry? enroll
        rw [List.find?_append, show r.entries.find? _ = none from hbefore]
        simp [hid]
      rw [status?, status?, hbefore, hafter]
      exact .comes
    · rw [status?, status?, r.entry?_enroll_of_ne hid]
      exact .stays _
  | removed other e hentry =>
    rw [status?, status?, r.entry?_without]
    by_cases hid : id = other
    · subst hid
      rw [if_pos rfl, hentry]
      simpa [Edit.passage?, Except.isOk, Except.toBool] using Turned.removes e.status
    · simp only [hid, Edit.passage?, Ne.symm hid, if_false, ite_self]
      exact .stays _
  | paused other e hentry => exact turned_modify hentry (fun _ h => h) (.pauses _) (ite_self none).symm
  | terminated other e hentry => exact turned_modify hentry (fun _ h => h) (.terminates _) (ite_self none).symm
  | resumed other e hentry hstatus => exact turned_modify hentry (fun _ h => h) (hstatus ▸ .resumes) rfl
  | left other e hentry hstatus => exact turned_modify hentry (fun _ h => h) (hstatus ▸ .departs) rfl
  | arrived other e actor hentry hstatus hanswer =>
    exact turned_modify hentry (fun _ _ => didMigrate_named hentry hanswer) (hstatus ▸ .arrives) rfl
  | turnedBack other e actor refusal hentry hstatus hanswer =>
    rw [status?_eq (r.setActor other actor), r.roster_setActor (didMigrate_named hentry hanswer), ← status?_eq]
    exact .stays _
  | pushed target | drained source =>
    rw [status?_eq (r.modifyPorts _ _), roster_modifyPorts, ← status?_eq]
    exact .stays _

theorem operate_turned (r : Registry σ) (id : ActorId) (operation : Operation σ) :
    Turned (r.status? id) (r.passage? id operation) ((r.operate operation).status? id) := by
  cases operation with
  | edit change fits =>
    rw [operate, edit_value]
    exact (r.change_changed change).turned id
  | fire source =>
    rw [operate, status?_eq (r.fireActor source).value.1, roster_fireActor, ← status?_eq]
    exact .stays _

/-- What the hooks of an actor do to it by a change. -/
structure Hooked (e e' : Entrant σ) (passage : Option Passage) : Prop where
  departed : passage = some .departed → e' = ⟨e.actor.willMigrate, .migrating⟩
  arrived : passage = some .arrived → e.actor.didMigrate = (e'.actor, .ok ()) ∧ e'.status = .enabled
  others : passage ≠ some .departed → passage ≠ some .arrived →
    e'.actor.state = e.actor.state ∨ ∃ refusal, e.actor.didMigrate = (e'.actor, .error refusal) ∧ e'.status = e.status

theorem Hooked.idle {e e' : Entrant σ} {passage : Option Passage} (same : e'.actor.state = e.actor.state)
    (departed : passage ≠ some .departed) (arrived : passage ≠ some .arrived) : Hooked e e' passage where
  departed h := absurd h departed
  arrived h := absurd h arrived
  others _ _ := .inl same

theorem Hooked.still {e e' : Entrant σ} (same : e'.actor.state = e.actor.state) : Hooked e e' none :=
  .idle same (by simp) (by simp)

theorem modify_entry {id other : ActorId} {f : Entrant σ → Entrant σ} {e e' : Entrant σ}
    (before : r.entry? id = some e) (after : entry? (r.modify other f) id = some e')
    (named : ∀ e, e.actor.id = other → (f e).actor.id = other) : (other = id ∧ e' = f e) ∨ (other ≠ id ∧ e' = e) := by
  rw [r.entry?_modify named, before] at after
  cases after
  by_cases hid : other = id
  · exact .inl ⟨hid, if_pos hid.symm⟩
  · exact .inr ⟨hid, if_neg (Ne.symm hid)⟩

theorem Changed.hooked {change : Edit σ} {answer : Except ActorError (Reply σ)} (h : r.Changed change (r', answer))
    {id : ActorId} {e e' : Entrant σ} (before : r.entry? id = some e) (after : r'.entry? id = some e') :
    Hooked e e' (if answer.isOk then change.passage? id else none) := by
  have hsame : r.entry? id = some e' → e'.actor.state = e.actor.state := by
    intro hentry
    rw [before] at hentry
    cases hentry
    rfl
  cases h with
  | refused | connected | connectedBefore => exact .still (hsame after)
  | added actor fresh =>
    have hid : id ≠ actor.id := by
      rintro rfl
      rw [contains, before] at fresh
      cases fresh
    rw [r.entry?_enroll_of_ne hid] at after
    exact .still (hsame after)
  | removed other =>
    rw [r.entry?_without] at after
    have hid : id ≠ other := by
      rintro rfl
      rw [if_pos rfl] at after
      cases after
    rw [if_neg hid] at after
    exact .idle (hsame after) (by simp [Edit.passage?, Ne.symm hid]) (by simp [Edit.passage?, Ne.symm hid])
  | paused other | terminated other =>
    rcases modify_entry before after fun _ h => h with ⟨-, rfl⟩ | ⟨-, rfl⟩ <;> exact .still rfl
  | resumed other =>
    rcases modify_entry before after fun _ h => h with ⟨rfl, rfl⟩ | ⟨hid, rfl⟩
    · exact .idle rfl (by simp [Edit.passage?, Except.isOk, Except.toBool]) (by simp [Edit.passage?])
    · exact .idle rfl (by simp [Edit.passage?, hid]) (by simp [Edit.passage?, hid])
  | left other =>
    rcases modify_entry before after fun _ h => h with ⟨rfl, rfl⟩ | ⟨hid, rfl⟩
    · change Hooked e _ (if other = other then some .departed else none)
      rw [if_pos rfl]
      exact ⟨fun _ => rfl, by simp, fun hother => absurd rfl hother⟩
    · exact .idle rfl (by simp [Edit.passage?, hid]) (by simp [Edit.passage?, hid])
  | arrived other entrant actor hentry hstatus hanswer =>
    rcases modify_entry before after fun _ _ => didMigrate_named hentry hanswer with ⟨rfl, rfl⟩ | ⟨hid, rfl⟩
    · rw [before] at hentry
      cases hentry
      change Hooked e _ (if other = other then some .arrived else none)
      rw [if_pos rfl]
      exact ⟨by simp, fun _ => ⟨hanswer, rfl⟩, fun _ hother => absurd rfl hother⟩
    · exact .idle rfl (by simp [Edit.passage?, hid]) (by simp [Edit.passage?, hid])
  | turnedBack other entrant actor refusal hentry hstatus hanswer =>
    rcases modify_entry before after fun _ _ => didMigrate_named hentry hanswer with ⟨rfl, rfl⟩ | ⟨hid, rfl⟩
    · rw [before] at hentry
      cases hentry
      change Hooked e _ none
      exact ⟨by simp, by simp, fun _ _ => .inr ⟨refusal, hanswer, rfl⟩⟩
    · exact .still rfl
  | pushed target | drained source =>
    rcases modify_entry before after fun _ h => h with ⟨-, rfl⟩ | ⟨-, rfl⟩ <;> exact .still rfl

def passages (id : ActorId) : Registry σ → List (Operation σ) → List Passage
  | _, [] => []
  | r, operation :: operations => (r.passage? id operation).toList ++ passages id (r.operate operation) operations

theorem passages_append (id : ActorId) (r : Registry σ) (first second : List (Operation σ)) :
    passages id r (first ++ second) = passages id r first ++ passages id (r.after first) second := by
  induction first generalizing r with
  | nil => rfl
  | cons operation first ih =>
    rw [List.cons_append, passages, passages, ih, List.append_assoc]
    rfl

end Registry

def Passage.leads (away : Bool) : Passage → Bool
  | departed => true
  | resumed => away
  | arrived | removed => false

/-- Departures and arrivals take turns, beginning with a departure, until the actor is removed. -/
def Alternate : Bool → List Passage → Prop
  | _, [] => True
  | away, .departed :: passages => away = false ∧ Alternate true passages
  | away, .arrived :: passages => away = true ∧ Alternate false passages
  | away, .resumed :: passages => Alternate away passages
  | _, .removed :: passages => Alternate false passages

theorem Alternate.concat {away : Bool} {passages : List Passage} (h : Alternate away passages) {passage : Passage}
    (departs : passage = .departed → passages.foldl Passage.leads away = false)
    (arrives : passage = .arrived → passages.foldl Passage.leads away = true) :
    Alternate away (passages ++ [passage]) := by
  induction passages generalizing away with
  | nil =>
    cases passage with
    | departed => exact ⟨departs rfl, trivial⟩
    | arrived => exact ⟨arrives rfl, trivial⟩
    | resumed | removed => trivial
  | cons first passages ih =>
    cases first with
    | departed | arrived => exact ⟨h.1, ih h.2 departs arrives⟩
    | resumed | removed => exact ih h departs arrives

namespace Registry

variable {id : ActorId} {operations : List (Operation σ)}

/-- The actor is under way: it has departed, and since then has neither arrived nor been removed. -/
def away (id : ActorId) (operations : List (Operation σ)) : Bool :=
  (passages id empty operations).foldl Passage.leads false

theorem away_concat (id : ActorId) (operations : List (Operation σ)) (operation : Operation σ) :
    away id (operations ++ [operation]) =
      ((empty.after operations).passage? id operation).elim (away id operations)
        (Passage.leads (away id operations)) := by
  rw [away, passages_append, List.foldl_append]
  cases h : (empty.after operations).passage? id operation <;> simp [passages, h, away]

theorem mem_enabled_after :
    id ∈ (empty.after operations).enabled ↔ (empty.after operations).status? id = some .enabled :=
  mem_enabled (after_distinct (r := empty) List.nodup_nil operations)

theorem turned_concat (id : ActorId) (operations : List (Operation σ)) (operation : Operation σ) :
    Turned ((empty.after operations).status? id) ((empty.after operations).passage? id operation)
      ((empty.after (operations ++ [operation])).status? id) := by
  rw [after_append]
  exact operate_turned _ id operation

/-- The actor is not resumed under way. -/
def Unresumed (id : ActorId) (operations : List (Operation σ)) : Prop :=
  ∀ before operation rest, operations = before ++ operation :: rest → away id before = true →
    (empty.after before).passage? id operation ≠ some .resumed

theorem Unresumed.init {rest : List (Operation σ)} (h : Unresumed id (operations ++ rest)) :
    Unresumed id operations := by
  rintro before operation later rfl
  exact h before operation (later ++ rest) (by rw [List.append_assoc, List.cons_append])

theorem away_of_migrating (h : (empty.after operations).status? id = some .migrating) : away id operations = true := by
  induction operations using List.reverseRecOn with
  | nil => cases h
  | append_singleton operations operation ih =>
    have hturned := turned_concat id operations operation
    rw [h] at hturned
    rw [away_concat]
    generalize (empty.after operations).status? id = status at hturned ih
    generalize (empty.after operations).passage? id operation = passage at hturned
    cases hturned with
    | departs => rfl
    | stays => exact ih rfl

theorem Unresumed.disabled (h : Unresumed id operations) (under : away id operations = true) :
    ∃ status, (empty.after operations).status? id = some status ∧ status ≠ .enabled := by
  induction operations using List.reverseRecOn with
  | nil => cases under
  | append_singleton operations operation ih =>
    have hturned := turned_concat id operations operation
    have hresumed := h operations operation [] rfl
    rw [away_concat] at under
    generalize (empty.after (operations ++ [operation])).status? id = status' at hturned
    generalize (empty.after operations).status? id = status at hturned ih
    generalize (empty.after operations).passage? id operation = passage at hturned hresumed under
    cases hturned with
    | departs => exact ⟨_, rfl, nofun⟩
    | arrives | removes => cases under
    | resumes => exact absurd rfl (hresumed under)
    | comes =>
      obtain ⟨status, hstatus, -⟩ := ih h.init under
      cases hstatus
    | pauses | terminates => exact ⟨_, rfl, nofun⟩
    | stays => exact ih h.init under

/-- How the migrations of an actor are to go in a history. -/
structure Honoured (id : ActorId) (operations : List (Operation σ)) : Prop where
  excluded : ∀ before rest, operations = before ++ rest → away id before = true → id ∉ (empty.after before).enabled
  untouched : ∀ before rest, operations = before ++ rest → away id before = true →
    ∀ (s : Scheduler σ) (all : Bool), s.registry = empty.after before → id ∉ (s.loopOnce all).value.2.touched
  alternate : Alternate false (passages id empty operations)
  hooked : ∀ before change fits rest, operations = before ++ .edit change fits :: rest →
    ∀ e e', entry? (empty.after before) id = some e → entry? (empty.after (before ++ [.edit change fits])) id = some e' →
      Hooked e e' ((empty.after before).passage? id (.edit change fits))

theorem Unresumed.excluded (h : Unresumed id operations) (under : away id operations = true) :
    id ∉ (empty.after operations).enabled := by
  obtain ⟨status, hstatus, hother⟩ := h.disabled under
  rw [mem_enabled_after, hstatus]
  exact fun heq => hother (Option.some.inj heq)

theorem Unresumed.alternate (h : Unresumed id operations) : Alternate false (passages id empty operations) := by
  induction operations using List.reverseRecOn with
  | nil => trivial
  | append_singleton operations operation ih =>
    have hturned := turned_concat id operations operation
    rw [passages_append, passages, passages, List.append_nil]
    cases hpassage : (empty.after operations).passage? id operation with
    | none =>
      rw [Option.toList_none, List.append_nil]
      exact ih h.init
    | some passage =>
      rw [hpassage] at hturned
      refine (ih h.init).concat ?_ ?_
      · rintro rfl
        refine eq_false_of_ne_true fun under => ?_
        obtain ⟨status, hstatus, hother⟩ := h.init.disabled under
        rw [hturned.departed] at hstatus
        exact hother (Option.some.inj hstatus).symm
      · rintro rfl
        exact away_of_migrating hturned.arrived

/-- The migrations of an actor go as they are to go exactly when it is never resumed under way. -/
theorem migration_honoured_iff (id : ActorId) (operations : List (Operation σ)) :
    Honoured id operations ↔ Unresumed id operations := by
  constructor
  · rintro h before operation rest rfl under hpassage
    have hturned := turned_concat id before operation
    have haway : away id (before ++ [operation]) = true := by
      rw [away_concat, hpassage]
      exact under
    apply h.excluded (before ++ [operation]) rest (by simp) haway
    rw [hpassage] at hturned
    exact mem_enabled_after.mpr hturned.resumed
  · intro h
    have hexcluded : ∀ before rest, operations = before ++ rest → away id before = true →
        id ∉ (empty.after before).enabled := by
      rintro before rest rfl
      exact h.init.excluded
    refine ⟨hexcluded, fun before rest heq under s all hregistry htouched => ?_, h.alternate, ?_⟩
    · rw [s.loopOnce_touched, hregistry] at htouched
      exact hexcluded before rest heq under (List.mem_filter.mp htouched).1
    · rintro before change fits rest rfl e e' hbefore hafter
      rw [after_append] at hafter
      change entry? ((empty.after before).edit change).value.1 id = some e' at hafter
      rw [edit_value] at hafter
      exact ((empty.after before).change_changed change).hooked hbefore hafter

end Registry

def rover : ActorType Bool where
  name := "rover"
  inputs := []
  outputs := []
  actions := [⟨"roam", ⟨[], []⟩, none, fun attached _ => (attached, .ok [])⟩]
  handler := none
  hooks := ⟨fun _ => false, fun _ => (true, .ok ())⟩
  valid := by
    refine ⟨nofun, List.nodup_nil, List.nodup_singleton _, ?_⟩
    simp [Declaration.Accepts]

def roving : List (Registry.Operation Bool) :=
  [.edit (.add (.new ⟨"m"⟩ rover true)) (Actor.fits_new _ _ _), .edit (.beginMigration ⟨"m"⟩) trivial,
    .edit (.pause ⟨"m"⟩) trivial, .edit (.resume ⟨"m"⟩) trivial]

/-- It is enabled again without having arrived. -/
theorem Registry.roving_not_honoured : ¬Honoured ⟨"m"⟩ roving := by
  intro h
  have hdetached : (empty.after roving).enabled = [⟨"m"⟩] := rfl
  have hnot := h.excluded roving [] (List.append_nil _).symm rfl
  rw [hdetached] at hnot
  exact hnot List.mem_cons_self

end ActorNet
