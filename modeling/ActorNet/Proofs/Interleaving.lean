import ActorNet.Proofs.Shutdown
import Mathlib.Data.Finset.Dedup
import Mathlib.Data.Finset.Filter
import Mathlib.Data.Finset.Insert

set_option autoImplicit false

/-!
# Requests may come in any order

What a scheduler has been asked for is told by five answers. Each request changes them in a way that commutes with
every other request, although it takes another branch by what came before it. So they come to the same whichever
requests were made directly, whichever waited in the inbox, and in whatever order.
-/
namespace ActorNet

variable {σ : Type}

/-- A trigger; one without delay does not name the empty set. -/
structure Request where
  delay : Duration
  targets : Targets
  somebody : delay.isZero = true → targets ≠ .actors ∅

/-- What a request comes down to: a sweep at some time, one at once, or a cycle for those named. -/
inductive Demand where
  | later (deadline : Instant)
  | all
  | named (ids : Std.ExtTreeSet (Option ActorId) compare)

namespace Request

def demand (now : Instant) (r : Request) : Demand :=
  if !r.delay.isZero then .later (now.after r.delay)
  else
    match r.targets with
    | .all => .all
    | .actors ids => .named ids

def command (r : Request) : Command := .trigger r.delay r.targets

def call (r : Request) (direct : Bool) : Call σ :=
  if direct then .trigger r.delay r.targets else .send r.command

end Request

/-- What a scheduler has been asked for. -/
@[ext]
structure Standing where
  pending : ActorSet
  unaddressed : Bool
  outstanding : Bool
  sweep : Bool
  deadlines : Multiset Instant

namespace Standing

def hear (o : Standing) : Demand → Standing
  | .later deadline => { o with deadlines := deadline ::ₘ o.deadlines }
  | .all => { o with outstanding := true, sweep := true }
  | .named ids =>
    let pending := o.pending.insertMany (ids.toList.filterMap id)
    { o with
      pending
      unaddressed := o.unaddressed || ids.contains none
      outstanding := o.outstanding || !pending.isEmpty
      sweep := o.sweep && (o.outstanding || pending.isEmpty) }

theorem hear_named_comm (o : Standing) (ids others : Std.ExtTreeSet (Option ActorId) compare) :
    (o.hear (.named ids)).hear (.named others) = (o.hear (.named others)).hear (.named ids) := by
  unfold hear
  ext1
  case pending =>
    refine Std.ExtTreeSet.ext_mem fun id => ?_
    simp only [Std.ExtTreeSet.mem_insertMany_list]
    tauto
  case unaddressed => exact Bool.or_right_comm _ _ _
  case outstanding | sweep =>
    -- Nobody is pending in the end when nobody was and neither request names anyone.
    simp only [Std.ExtTreeSet.isEmpty_insertMany_list]
    generalize (ids.toList.filterMap id).isEmpty = first
    generalize (others.toList.filterMap id).isEmpty = second
    generalize o.pending.isEmpty = nobody
    generalize o.outstanding = outstanding
    generalize o.sweep = sweep
    decide +revert
  case deadlines => rfl

theorem hear_comm (o : Standing) (a b : Demand) : (o.hear a).hear b = (o.hear b).hear a := by
  cases a with
  | later deadline =>
    cases b with
    | later other => exact Standing.ext rfl rfl rfl rfl (Multiset.cons_swap _ _ _)
    | all | named => rfl
  | all =>
    cases b with
    | later | all => rfl
    | named ids => simp [hear]
  | named ids =>
    cases b with
    | later => rfl
    | all => simp [hear]
    | named others => exact o.hear_named_comm ids others

instance : RightCommutative hear := ⟨hear_comm⟩

end Standing

namespace Scheduler

variable {s s' : Scheduler σ} {past : List (Moment σ)}

def delayedSlots (s : Scheduler σ) : Finset Slot :=
  s.timers.live.toFinset.filter fun slot =>
    s.timers.pending[slot.2]? = some (.cycle true) ∧ s.immediate ≠ some slot.2

def standing (s : Scheduler σ) : Standing where
  pending := s.pending
  unaddressed := s.unaddressed
  outstanding := s.hasImmediateCycle
  sweep := s.immediateSweep
  deadlines := s.delayedSlots.val.map (·.1)

theorem mem_delayedSlots {slot : Slot} :
    slot ∈ s.delayedSlots ↔
      slot ∈ s.timers.live ∧ s.timers.pending[slot.2]? = some (.cycle true) ∧ s.immediate ≠ some slot.2 := by
  simp [delayedSlots]

theorem delayedSlots_schedule (booked : s.Booked past) (sound : s.timers.Sound) (delay : Duration) :
    (s.schedule delay (.cycle true)).2.delayedSlots = insert (s.now.after delay, s.nextTimer) s.delayedSlots := by
  ext slot
  have hfresh : s.immediate ≠ some s.nextTimer := booked.nextTimer_fresh.2.2
  rw [Finset.mem_insert, mem_delayedSlots, mem_delayedSlots, mem_live_schedule sound, schedule_pending sound]
  change _ ∧ _ ∧ s.immediate ≠ _ ↔ _
  constructor
  · rintro ⟨rfl | hlive, hpending, himmediate⟩
    · exact .inl rfl
    · refine .inr ⟨hlive, hpending.resolve_left fun hnew => ?_, himmediate⟩
      exact sound.fresh hlive hnew.1.symm
  · rintro (rfl | ⟨hlive, hpending, himmediate⟩)
    · exact ⟨.inl rfl, .inl ⟨rfl, rfl⟩, hfresh⟩
    · exact ⟨.inr hlive, .inr hpending, himmediate⟩

theorem delayedSlots_renewImmediate (sound : s.timers.Sound) (all : Bool) :
    (s.renewImmediate all).delayedSlots = s.delayedSlots := by
  ext slot
  have hdropped := dropImmediate_sound sound
  have himmediate : (s.renewImmediate all).immediate = some s.dropImmediate.nextTimer := rfl
  rw [mem_delayedSlots, mem_delayedSlots, himmediate]
  change slot ∈ (s.dropImmediate.schedule .zero (.cycle all)).2.timers.live ∧
    (s.dropImmediate.schedule .zero (.cycle all)).2.timers.pending[slot.2]? = _ ∧ _ ↔ _
  rw [mem_live_schedule hdropped, schedule_pending hdropped]
  change (_ ∨ slot ∈ (s.cancel s.immediate).timers.live) ∧ (_ ∨ (s.cancel s.immediate).timers.pending[slot.2]? = _) ∧ _ ↔ _
  rw [mem_live_cancel, cancel_pending]
  constructor
  · rintro ⟨rfl | ⟨hother, hlive⟩, hpending, hne⟩
    · exact absurd rfl hne
    · refine ⟨hlive, (hpending.resolve_left fun hnew => ?_).2, hother⟩
      exact hne (congrArg some hnew.1.symm)
  · rintro ⟨hlive, hpending, hother⟩
    refine ⟨.inr ⟨hother, hlive⟩, .inr ⟨hother, hpending⟩, fun hnew => ?_⟩
    have hnext : s.dropImmediate.nextTimer = s.nextTimer := congrArg TimerId.mk (s.cancel_nextNumber s.immediate)
    exact sound.fresh hlive (hnext.symm.trans (Option.some.inj hnew))

theorem schedule_standing (booked : s.Booked past) (sound : s.timers.Sound) (delay : Duration) :
    (s.schedule delay (.cycle true)).2.standing = s.standing.hear (.later (s.now.after delay)) := by
  have hfresh : (s.now.after delay, s.nextTimer) ∉ s.delayedSlots := fun hslot =>
    sound.fresh (mem_delayedSlots.mp hslot).1 rfl
  have hhas : (s.schedule delay (.cycle true)).2.hasImmediateCycle = s.hasImmediateCycle := by
    rw [Bool.eq_iff_iff, hasImmediateCycle_iff, hasImmediateCycle_iff]
    refine exists_congr fun id => and_congr_right fun himmediate => ?_
    change s.immediate = some id at himmediate
    change id ∈ s.timers.pending.insert s.nextTimer _ ↔ _
    rw [Std.ExtTreeMap.mem_insert, Std.LawfulEqOrd.compare_eq_iff_eq, or_iff_right]
    rintro rfl
    exact booked.nextTimer_fresh.2.2 himmediate
  unfold standing
  rw [hhas, delayedSlots_schedule booked sound, Finset.insert_val_of_notMem hfresh, Multiset.map_cons]
  rfl

theorem renewImmediate_standing (sound : s.timers.Sound) (all : Bool) :
    (s.renewImmediate all).standing = { s.standing with outstanding := true, sweep := all } := by
  have hslots := delayedSlots_renewImmediate sound all
  have hhas := s.renewImmediate_hasImmediateCycle all
  obtain ⟨timers, hframe⟩ := s.renewImmediate_frame all
  rw [hframe] at hslots hhas ⊢
  unfold standing
  rw [hslots, hhas]

theorem join_isMarkerOnly {ids : Std.ExtTreeSet (Option ActorId) compare} (somebody : ids ≠ ∅) :
    (s.join ids).isMarkerOnly = (s.join ids).pending.isEmpty := by
  rw [isMarkerOnly, Bool.and_eq_left_iff_imp, Std.ExtTreeSet.isEmpty_iff]
  intro hempty
  have hnobody : ∀ id, id ∈ ids → id = none := by
    rintro (_ | id) hid
    · rfl
    · have hpending := mem_join (s := s).mpr (.inr hid)
      rw [hempty] at hpending
      exact absurd hpending Std.ExtTreeSet.not_mem_empty
  obtain ⟨id, hid⟩ := not_forall.mp (mt Std.ExtTreeSet.eq_empty_iff_forall_not_mem.mpr somebody)
  rw [hnobody id (not_not.mp hid), not_not] at hid
  exact Bool.or_eq_true_iff.mpr (.inr hid)

theorem hear_named (s : Scheduler σ) (ids : Std.ExtTreeSet (Option ActorId) compare) :
    s.standing.hear (.named ids) =
      { (s.join ids).standing with
        outstanding := s.hasImmediateCycle || !(s.join ids).pending.isEmpty
        sweep := s.immediateSweep && (s.hasImmediateCycle || (s.join ids).pending.isEmpty) } := rfl

theorem Obeyed.standing {r : Request} (obeyed : s.Obeyed r.command s') (running : s.done = false)
    (booked : s.Booked past) (sound : s.timers.Sound) : s'.standing = s.standing.hear (r.demand s.now) := by
  obtain ⟨delay, targets, somebody⟩ := r
  unfold Request.demand
  unfold Request.command at obeyed
  dsimp only at obeyed ⊢
  cases obeyed with
  | ignored _ _ stopped =>
    rw [running] at stopped
    cases stopped
  | delayed _ _ _ later =>
    rw [later]
    exact schedule_standing booked sound delay
  | sweep _ _ now =>
    rw [now]
    exact renewImmediate_standing sound true
  | dropped _ ids _ now nobody =>
    rw [join_isMarkerOnly fun hempty => somebody now (congrArg Targets.actors hempty)] at nobody
    rw [now]
    change (s.join ids).standing = s.standing.hear (.named ids)
    rw [hear_named, nobody, Bool.not_true, Bool.or_false, Bool.or_true, Bool.and_true]
    rfl
  | joined _ ids _ now pending =>
    rw [join_isMarkerOnly fun hempty => somebody now (congrArg Targets.actors hempty)] at pending
    rw [now, scheduleImmediate_eq]
    change (if s.hasImmediateCycle = true then s.join ids else _).standing = s.standing.hear (.named ids)
    rw [hear_named, pending]
    cases hhas : s.hasImmediateCycle with
    | true =>
      rw [if_pos rfl, Bool.true_or, Bool.true_or, Bool.and_true, ← hhas]
      rfl
    | false =>
      rw [if_neg (by decide), Bool.or_false, Bool.and_false]
      exact renewImmediate_standing (s := s.join ids) sound false

theorem Obeyed.eq {command : Command} (obeyed : s.Obeyed command s') :
    ∃ timers pending unaddressed immediate immediateSweep done stats,
      s' = { s with timers, pending, unaddressed, immediate, immediateSweep, done, stats } := by
  cases obeyed with
  | ignored | stopAgain | delayed | dropped | stop => exact ⟨_, _, _, _, _, _, _, rfl⟩
  | sweep =>
    obtain ⟨timers, hframe⟩ := s.renewImmediate_frame true
    exact ⟨_, _, _, _, _, _, _, hframe⟩
  | joined delay ids =>
    obtain ⟨timers, immediate, immediateSweep, hframe⟩ := (s.join ids).scheduleImmediate_frame false
    exact ⟨_, _, _, _, _, _, _, hframe⟩

structure Open (s : Scheduler σ) : Prop where
  running : s.done = false
  booked : ∃ past, s.Booked past
  sound : s.timers.Sound

namespace Open

theorem inbox (h : s.Open) (inbox : List Command) : Open { s with inbox } where
  running := h.running
  booked := h.booked.imp fun _ hbooked => hbooked.quiet (.inbox s inbox)
  sound := h.sound

theorem heard (h : s.Open) {r : Request} (obeyed : s.Obeyed r.command s') :
    s'.Open ∧ s'.now = s.now ∧ s'.inbox = s.inbox ∧ s'.standing = s.standing.hear (r.demand s.now) := by
  obtain ⟨past, hbooked⟩ := h.booked
  have hopen : s'.Open :=
    { running := (obeyed.running nofun).trans h.running
      booked := ⟨_, hbooked.obeyed h.sound obeyed⟩
      sound := obeyed.sound h.sound }
  have hstanding := obeyed.standing h.running hbooked h.sound
  obtain ⟨timers, pending, unaddressed, immediate, immediateSweep, done, stats, hframe⟩ := obeyed.eq
  exact ⟨hopen, by rw [hframe], by rw [hframe], hstanding⟩

theorem obeyEach (h : s.Open) (requests : List Request) :
    ((requests.map Request.command).foldlM obey s).value.standing =
      (requests.map (Request.demand s.now)).foldl Standing.hear s.standing := by
  induction requests generalizing s with
  | nil => rfl
  | cons r requests ih =>
    obtain ⟨hopen, hnow, -, hstanding⟩ := h.heard (s.obeyed r.command)
    have hrest := ih hopen
    rw [hnow, hstanding] at hrest
    rwa [List.map_cons, List.foldlM_cons, Logged.value_bind]

theorem interleaved (h : s.Open) {waiting : List Request} (inbox : s.inbox = waiting.map Request.command)
    (made : List (Request × Bool)) :
    (s.performAll (made.map fun r => r.1.call r.2)).drain.value.standing =
      ((waiting ++ made.map Prod.fst).map (Request.demand s.now)).foldl Standing.hear s.standing := by
  induction made generalizing s waiting with
  | nil =>
    rw [List.map_nil, List.map_nil, List.append_nil]
    change (s.inbox.foldlM obey { s with inbox := [] }).value.standing = _
    rw [inbox]
    exact (h.inbox []).obeyEach waiting
  | cons first made ih =>
    obtain ⟨r, direct⟩ := first
    cases direct with
    | true =>
      obtain ⟨hopen, hnow, hinbox, hstanding⟩ := h.heard (s.trigger_obeyed r.delay r.targets)
      have hrest := ih hopen (hinbox.trans inbox)
      rw [hnow, hstanding] at hrest
      have hperm : (waiting ++ r :: made.map Prod.fst).Perm (r :: (waiting ++ made.map Prod.fst)) := List.perm_middle
      exact hrest.trans ((hperm.map (Request.demand s.now)).foldl_eq s.standing).symm
    | false =>
      have hsent : (s.send r.command).inbox = (waiting ++ [r]).map Request.command := by
        rw [List.map_append, ← inbox]
        rfl
      have hrest := ih (s := s.send r.command) (h.inbox _) hsent
      rwa [List.append_assoc, List.singleton_append] at hrest

end Open

end Scheduler

/-- Requests come to what their demands add up to, and to the same in whatever order they are made and whichever of
them are made directly. What waits in the inbox is among them. -/
theorem Run.requests_interleave (run : Run σ) (running : run.state.done = false) {waiting : List Request}
    (inbox : run.state.inbox = waiting.map Request.command) {made made' : List (Request × Bool)}
    (same : (made.map Prod.fst).Perm (made'.map Prod.fst)) :
    (run.state.performAll (made.map fun r => r.1.call r.2)).drain.value.standing =
        ((waiting ++ made.map Prod.fst).map (Request.demand run.state.now)).foldl Standing.hear run.state.standing ∧
      (run.state.performAll (made'.map fun r => r.1.call r.2)).drain.value.standing =
        (run.state.performAll (made.map fun r => r.1.call r.2)).drain.value.standing := by
  obtain ⟨hbooked, hsound⟩ := run.invariant Scheduler.Booked.kept (.start run)
  have hopen : run.state.Open := ⟨running, ⟨_, hbooked⟩, hsound⟩
  rw [hopen.interleaved inbox, hopen.interleaved inbox]
  exact ⟨rfl, ((same.symm.append_left waiting).map _).foldl_eq _⟩

def Run.approached : Run Nat where
  setup := []
  config := {}
  valid := by decide
  monitor := .silent
  clock := .origin
  calls := [.send (.trigger (.ofMillis 5) .all)]

theorem Run.requests_interleave_approached :
    ∃ sweep later named : Request, Run.approached.state.done = false ∧
      Run.approached.state.inbox = [later].map Request.command ∧ sweep.targets = .all ∧ named.targets = .one ⟨"a"⟩ ∧
      (Run.approached.state.performAll [sweep.call true, named.call false]).drain.value.standing =
          ([later, sweep, named].map (Request.demand Run.approached.state.now)).foldl Standing.hear
            Run.approached.state.standing ∧
        (Run.approached.state.performAll [named.call true, sweep.call false]).drain.value.standing =
          (Run.approached.state.performAll [sweep.call true, named.call false]).drain.value.standing := by
  let sweep : Request := ⟨.zero, .all, nofun⟩
  let later : Request := ⟨.ofMillis 5, .all, nofun⟩
  let named : Request := ⟨.zero, .one ⟨"a"⟩, by decide⟩
  have hinbox : Run.approached.state.inbox = [later].map Request.command := rfl
  have hsame : (([(sweep, true), (named, false)] : List (Request × Bool)).map Prod.fst).Perm
      (([(named, true), (sweep, false)] : List (Request × Bool)).map Prod.fst) := .swap named sweep []
  have hstanding := Run.requests_interleave Run.approached rfl hinbox hsame
  exact ⟨sweep, later, named, rfl, hinbox, rfl, rfl, hstanding⟩

/-- Requests that name the empty set are left out because they do not commute with the marker. -/
example :
    (Run.approached.state.performAll [.trigger .zero (.actors ∅), .trigger .zero .unaddressed]).hasImmediateCycle ≠
      (Run.approached.state.performAll [.trigger .zero .unaddressed, .trigger .zero (.actors ∅)]).hasImmediateCycle := by
  decide

end ActorNet
