import ActorNet.Proofs.Coalescing
import ActorNet.Proofs.Readiness
import Mathlib.Data.List.Induction

set_option autoImplicit false

/-!
# Restricted firing misses no work

From the first full sweep on, an enabled actor either is pending, or has been woken since the last cycle, or
failed or was absorbed when it was last fired, or is at rest. Within a cycle the actors still to be fired
take the place of the pending ones, and those affected so far are the ones that will be pending.
-/
namespace ActorNet

variable {σ : Type}

def Moment.closes (m : Moment σ) : Bool :=
  match m.mark with
  | .cycled _ => true
  | _ => false

def Moment.sweeps (m : Moment σ) : Bool :=
  match m.mark with
  | .cycled report => report.all
  | _ => false

def Moment.meddles (m : Moment σ) : Bool :=
  match m.mark with
  | .operated (.fire _) => true
  | _ => false

/-- Who is added or enabled, or given a token from outside. -/
def Moment.wakes (m : Moment σ) : List ActorId :=
  match m.mark with
  | .operated (.edit change _) =>
    if (m.before.registry.edit change).value.2.isOk then change.wakes.toList else []
  | _ => []

/-- Who is named in a request at once. -/
def Moment.names (m : Moment σ) : List ActorId :=
  match m.mark with
  | .obeyed (.trigger delay (.actors ids)) =>
    if delay.isZero && !m.before.done then ids.toList.filterMap id else []
  | _ => []

def Moment.fires? (m : Moment σ) : Option ActorId :=
  match m.mark with
  | .fired id | .operated (.fire id) => some id
  | _ => none

def Moment.found (id : ActorId) (last : Option (Actor σ)) (m : Moment σ) : Option (Actor σ) :=
  if m.after.registry.contains id then
    if m.fires? = some id then m.before.registry.actor? id else last
  else none

def sinceCycle (past : List (Moment σ)) : List (Moment σ) :=
  past.foldl (fun recent m => if m.closes then [] else recent ++ [m]) []

def hasSwept (past : List (Moment σ)) : Bool := past.any Moment.sweeps

def woken (past : List (Moment σ)) : List ActorId := (sinceCycle past).flatMap Moment.wakes

def named (past : List (Moment σ)) : List ActorId := (sinceCycle past).flatMap Moment.names

def lastFired (past : List (Moment σ)) (id : ActorId) : Option (Actor σ) := past.foldl (Moment.found id) none

/-- The most recent firing of the actor failed or was absorbed. -/
def balked (past : List (Moment σ)) (id : ActorId) : Bool := (lastFired past id).any Actor.balks

/-- What restricted firing asks of its callers, once a full sweep has been made and until they stop. -/
structure Disciplined (past : List (Moment σ)) (m : Moment σ) : Prop where
  fires : hasSwept past = true → m.meddles = false
  names : hasSwept past = true → m.closes = true → m.before.done = false → ∀ id ∈ woken past, id ∈ named past

instance (past : List (Moment σ)) (m : Moment σ) : Decidable (Disciplined past m) :=
  decidable_of_iff
    ((hasSwept past = true → m.meddles = false) ∧
      (hasSwept past = true → m.closes = true → m.before.done = false → ∀ id ∈ woken past, id ∈ named past))
    ⟨fun h => ⟨h.1, h.2⟩, fun h => ⟨h.fires, h.names⟩⟩

/-- After a cycle the enabled actors that are not pending select nothing, unless their last firing failed
or was absorbed. -/
def Settled (past : List (Moment σ)) (m : Moment σ) : Prop :=
  m.closes = true → hasSwept (past ++ [m]) = true → m.after.done = false →
    ∀ id e, m.after.registry.entry? id = some e → e.status.isEnabled = true → id ∉ m.after.pending →
      balked (past ++ [m]) id = false →
        e.actor.chosen = none ∧ e.actor.fire.value = (e.actor, .ok .idle)

section Telling

variable {past : List (Moment σ)} {m : Moment σ} {id : ActorId}

theorem sinceCycle_concat (within : m.closes = false) : sinceCycle (past ++ [m]) = sinceCycle past ++ [m] := by
  rw [sinceCycle, List.foldl_append, List.foldl_cons, List.foldl_nil, within]
  rfl

theorem sinceCycle_closed (closes : m.closes = true) : sinceCycle (past ++ [m]) = [] := by
  rw [sinceCycle, List.foldl_append, List.foldl_cons, List.foldl_nil, closes]
  rfl

theorem woken_concat (within : m.closes = false) : woken (past ++ [m]) = woken past ++ m.wakes := by
  simp [woken, sinceCycle_concat within]

theorem named_concat (within : m.closes = false) : named (past ++ [m]) = named past ++ m.names := by
  simp [named, sinceCycle_concat within]

theorem sweeps_within (within : m.closes = false) : m.sweeps = false := by
  unfold Moment.closes at within
  unfold Moment.sweeps
  split at within
  · cases within
  · rfl

theorem hasSwept_concat (narrow : m.sweeps = false) : hasSwept (past ++ [m]) = hasSwept past := by
  simp [hasSwept, narrow]

theorem hasSwept_append {moments : List (Moment σ)} (within : ∀ m ∈ moments, m.closes = false) :
    hasSwept (past ++ moments) = hasSwept past := by
  induction moments generalizing past with
  | nil => rw [List.append_nil]
  | cons m moments ih =>
    rw [List.append_cons, ih fun m' hm' => within m' (List.mem_cons_of_mem _ hm')]
    exact hasSwept_concat (sweeps_within (within m List.mem_cons_self))

theorem mem_woken_append (h : id ∈ woken past) {moments : List (Moment σ)}
    (within : ∀ m ∈ moments, m.closes = false) : id ∈ woken (past ++ moments) := by
  induction moments generalizing past with
  | nil => rwa [List.append_nil]
  | cons m moments ih =>
    rw [List.append_cons]
    refine ih ?_ fun m' hm' => within m' (List.mem_cons_of_mem _ hm')
    rw [woken_concat (within m List.mem_cons_self)]
    exact List.mem_append_left _ h

theorem settled_within (within : m.closes = false) : Settled past m := by
  intro hcloses
  rw [within] at hcloses
  cases hcloses

theorem mem_gather (within : m.closes = false) {waiting : List (Option ActorId)}
    (h : id ∈ m.names ∨ some id ∈ waiting) : some id ∈ m.gather waiting := by
  rcases m with ⟨before, mark, after⟩
  cases mark with
  | cycled => cases within
  | begun | operated | expired | opened | fired => exact h.resolve_left List.not_mem_nil
  | obeyed command =>
    rcases command with ⟨delay, _ | ids⟩ | _
    · exact h.resolve_left List.not_mem_nil
    · by_cases hnow : (delay.isZero && !before.done) = true
      · have hjoined : some id ∈ waiting ++ ids.toList := by
          simpa [Moment.names, hnow, or_comm] using h
        simpa [Moment.gather, hnow] using hjoined
      · simpa [Moment.names, Moment.gather, hnow] using h
    · exact h.resolve_left List.not_mem_nil

theorem gathered_of_named (h : id ∈ named past) : some id ∈ gathered past := by
  induction past using List.reverseRecOn with
  | nil => cases h
  | append_singleton past m ih =>
    rw [gathered_concat]
    cases hwithin : m.closes with
    | true =>
      rw [named, sinceCycle_closed hwithin] at h
      cases h
    | false =>
      rw [named_concat hwithin] at h
      exact mem_gather hwithin ((List.mem_append.mp h).symm.imp_right ih)

theorem lastFired_concat (there : m.after.registry.contains id = true) :
    lastFired (past ++ [m]) id = if m.fires? = some id then m.before.registry.actor? id else lastFired past id := by
  rw [lastFired, List.foldl_append, List.foldl_cons, List.foldl_nil, Moment.found, if_pos there]
  rfl

end Telling

/-- Each enabled actor is due, or its last firing failed or was absorbed, or it is at rest. -/
def Registry.Attended (r : Registry σ) (past : List (Moment σ)) (due : ActorId → Prop) : Prop :=
  ∀ id e, r.entry? id = some e → e.status.isEnabled = true → due id ∨ balked past id = true ∨ e.actor.AtRest

namespace Registry

variable {r : Registry σ} {past : List (Moment σ)} {due : ActorId → Prop}

theorem contains_of_entry {id : ActorId} {e : Entrant σ} (h : r.entry? id = some e) : r.contains id = true := by
  rw [contains, h]
  rfl

theorem Attended.mono (h : r.Attended past due) {due' : ActorId → Prop} (more : ∀ id, due id → due' id) :
    r.Attended past due' :=
  fun id e he enabled => (h id e he enabled).imp_left (more id)

theorem Attended.concat (h : r.Attended past due) {m : Moment σ} (fires : m.fires? = none)
    (registry : m.after.registry = r) : r.Attended (past ++ [m]) due := by
  intro id e he henabled
  have hlast : lastFired (past ++ [m]) id = lastFired past id := by
    rw [lastFired_concat (registry ▸ contains_of_entry he), fires]
    rfl
  rw [balked, hlast]
  exact h id e he henabled

theorem Attended.changed (h : r.Attended past due) (wired : r.Wired) {m : Moment σ} {change : Edit σ}
    {fits : change.Fits} (mark : m.mark = .operated (.edit change fits))
    (after : m.after.registry = (r.edit change).value.1) :
    m.after.registry.Attended (past ++ [m]) fun id =>
      due id ∨ ((r.edit change).value.2.isOk = true ∧ change.wakes = some id) := by
  intro id e he henabled
  have hlast : lastFired (past ++ [m]) id = lastFired past id := by
    rw [lastFired_concat (contains_of_entry he), Moment.fires?, mark]
    rfl
  have hchanged := r.change_changed change
  rw [after, edit_value] at he
  rw [edit_value, balked, hlast]
  rcases hchanged.chosen wired he henabled with hwakes | ⟨old, hold, henabled, hchosen⟩
  · exact .inl (.inr hwakes)
  · rw [Actor.AtRest, hchosen]
    exact (h id old hold henabled).imp_left .inl

end Registry

def Sweep.Sound (sweep : Sweep) : Prop := ∀ id ∈ sweep.total.affected, sweep.total.didFire = true

def Sweep.Due (sweep : Sweep) (only : Option ActorSet) (todo : List ActorId) (id : ActorId) : Prop :=
  id ∈ sweep.total.affected ∨ (id ∈ todo ∧ only.all (·.contains id) = true)

namespace Scheduler

variable {s : Scheduler σ} {sweep : Sweep} {past : List (Moment σ)}

theorem fireOne_total (s : Scheduler σ) (sweep : Sweep) (source : ActorId) :
    (s.fireOne sweep source).value.2.total =
      match (s.registry.fireActor source).value.2 with
      | .ok result => sweep.total.merge result
      | .error _ | .panic _ => sweep.total := by
  unfold fireOne
  rw [Logged.value_bind]
  rcases (s.registry.fireActor source).value with ⟨registry, outcome⟩
  cases outcome <;> rfl

theorem fireOne_affected (s : Scheduler σ) (sweep : Sweep) (source id : ActorId) :
    id ∈ (s.fireOne sweep source).value.2.total.affected ↔
      id ∈ sweep.total.affected ∨ id ∈ affectedBy (s.registry.fireActor source).value.2 := by
  rw [fireOne_total]
  cases (s.registry.fireActor source).value.2 with
  | ok result => exact Std.ExtTreeSet.mem_union_iff
  | error e | panic payload => simp [affectedBy]

theorem fireOne_sound (sound : sweep.Sound) (source : ActorId) : (s.fireOne sweep source).value.2.Sound := by
  intro id hid
  rw [fireOne_affected] at hid
  rw [fireOne_total]
  cases houtcome : (s.registry.fireActor source).value.2 with
  | ok result =>
    rw [houtcome] at hid
    refine Bool.or_eq_true_iff.mpr (hid.imp (sound id) fun haffected => ?_)
    exact s.registry.fireActor_didFire houtcome haffected
  | error e | panic payload =>
    rw [houtcome] at hid
    exact sound id (hid.resolve_right Std.ExtTreeSet.not_mem_empty)

theorem fireOne_attended {only : Option ActorSet} {source : ActorId} {todo : List ActorId}
    (h : s.registry.Attended past (sweep.Due only (source :: todo))) :
    (s.fireOne sweep source).value.1.registry.Attended
      (past ++ [⟨s, .fired source, (s.fireOne sweep source).value.1⟩])
      ((s.fireOne sweep source).value.2.Due only todo) := by
  intro id e he henabled
  have hlast : lastFired (past ++ [⟨s, .fired source, (s.fireOne sweep source).value.1⟩]) id =
      if id = source then s.registry.actor? id else lastFired past id := by
    rw [lastFired_concat (Registry.contains_of_entry he)]
    simp [Moment.fires?, eq_comm]
  rw [fireOne_registry] at he
  rw [Sweep.Due, fireOne_affected, balked, hlast]
  by_cases hsource : id = source
  · subst hsource
    rw [if_pos rfl]
    rcases s.registry.fireActor_self he with haffected | hrest | hbalks
    · exact .inl (.inl (.inr haffected))
    · exact .inr (.inr hrest)
    · exact .inr (.inl hbalks)
  · rw [if_neg hsource]
    by_cases haffected : id ∈ affectedBy (s.registry.fireActor source).value.2
    · exact .inl (.inl (.inr haffected))
    · rw [s.registry.fireActor_other hsource haffected] at he
      refine (h id e he henabled).imp_left fun hdue => ?_
      rcases hdue with hbefore | ⟨htodo, honly⟩
      · exact .inl (.inl hbefore)
      · exact .inr ⟨(List.mem_cons.mp htodo).resolve_left hsource, honly⟩

theorem fireEach_attended (only : Option ActorSet) (todo : List ActorId)
    (h : s.registry.Attended past (sweep.Due only todo)) (sound : sweep.Sound) :
    (fireEach only todo (s, sweep)).value.1.registry.Attended (past ++ firingEach only todo (s, sweep))
        (· ∈ (fireEach only todo (s, sweep)).value.2.total.affected) ∧
      (fireEach only todo (s, sweep)).value.2.Sound := by
  induction todo generalizing past s sweep with
  | nil =>
    rw [firingEach, List.append_nil]
    refine ⟨h.mono fun id hdue => ?_, sound⟩
    exact hdue.resolve_right fun hnone => List.not_mem_nil hnone.1
  | cons source todo ih =>
    rw [firingEach, fireEach]
    split
    · rw [Logged.value_bind, List.append_cons]
      exact ih (fireOne_attended h) (fireOne_sound sound source)
    case isFalse hskipped =>
      refine ih (h.mono fun id hdue => hdue.imp_right fun hwaits => ?_) sound
      refine ⟨(List.mem_cons.mp hwaits.1).resolve_left ?_, hwaits.2⟩
      rintro rfl
      exact hskipped hwaits.2

theorem fireOne_alike (s : Scheduler σ) (sweep : Sweep) (source : ActorId) :
    s.registry.Alike (s.fireOne sweep source).value.1.registry := by
  rw [fireOne_registry]
  exact s.registry.fireActor_alike source

theorem fireEach_alike (only : Option ActorSet) (ids : List ActorId) (s : Scheduler σ) (sweep : Sweep) :
    s.registry.Alike (fireEach only ids (s, sweep)).value.1.registry := by
  induction ids generalizing s sweep with
  | nil => exact .refl s.registry
  | cons id ids ih =>
    rw [fireEach]
    split
    · rw [Logged.value_bind]
      exact (s.fireOne_alike sweep id).trans (ih _ _)
    · exact ih s sweep

theorem closeCycle_pending (s : Scheduler σ) (cycle : Nat) (all active : Bool)
    (running : (s.closeCycle cycle all active).1.done = false) (sound : (s.sweepActors all).2.Sound)
    {id : ActorId} (h : id ∈ (s.sweepActors all).2.total.affected) :
    id ∈ (s.closeCycle cycle all active).1.pending := by
  have hfollowed := s.closeCycle_followed cycle all active
  have hrunning : (s.swept all).done = false := hfollowed.done.symm.trans running
  rw [hfollowed.pending (s.swept_pending all)]
  exact ⟨⟨sound id h, hfollowed.next_ne hrunning⟩, h⟩

/-- Each enabled actor is pending or woken, unless its last firing failed or was absorbed, or it is at rest. -/
structure Watchful (stage : Stage) (past : List (Moment σ)) (s : Scheduler σ) : Prop where
  coalescing : s.Coalescing stage past
  wired : s.registry.Wired
  settled : Along (fun before m => Along Disciplined (before ++ [m]) → Settled before m) past
  attended : Along Disciplined past → hasSwept past = true → s.done = false →
    s.registry.Attended past fun id => id ∈ s.pending ∨ id ∈ woken past

namespace Watchful

variable {s' : Scheduler σ} {stage next : Stage}

theorem quiet (h : s.Watchful stage past) (quiet : s.Quiet s') : s'.Watchful stage past where
  coalescing := h.coalescing.quiet quiet
  wired := by
    rw [quiet.eq]
    exact h.wired
  settled := h.settled
  attended := by
    rw [quiet.eq]
    exact h.attended

theorem of_within (h : s.Watchful stage past) {m : Moment σ} (within : m.closes = false) (fires : m.fires? = none)
    (coalescing : s'.Coalescing next (past ++ [m])) (after : m.after.registry = s.registry)
    (registry : s'.registry = s.registry) (running : s'.done = false → s.done = false)
    (pending : ∀ id ∈ s.pending, id ∈ s'.pending) : s'.Watchful next (past ++ [m]) where
  coalescing := coalescing
  wired := by
    rw [registry]
    exact h.wired
  settled := h.settled.concat fun _ => settled_within within
  attended := by
    intro hdisciplined hswept hdone
    rw [hasSwept_concat (sweeps_within within)] at hswept
    have hbefore := h.attended hdisciplined.init hswept (running hdone)
    rw [registry]
    refine (hbefore.concat fires after).mono fun id hdue => hdue.imp (pending id) fun hwoken => ?_
    rw [woken_concat within]
    exact List.mem_append_left _ hwoken

theorem obeyed (h : s.Watchful stage past) (sound : s.timers.Sound) {command : Command}
    (obeyed : s.Obeyed command s') : s'.Watchful stage (past ++ [⟨s, .obeyed command, s'⟩]) := by
  obtain ⟨hregistry, hrunning, hpending⟩ := obeyed.frame
  exact h.of_within rfl rfl (h.coalescing.obeyed sound obeyed) hregistry hregistry hrunning hpending

theorem operated (h : s.Watchful .rest past) (operation : Registry.Operation σ) :
    (s.operating operation).after.Watchful .rest (past ++ [s.operating operation]) where
  coalescing := Coalescing.kept.operated operation h.coalescing
  wired := h.wired.operate operation
  settled := h.settled.concat fun _ => settled_within rfl
  attended := by
    intro hdisciplined hswept hdone
    have hwithin : (s.operating operation).closes = false := rfl
    rw [hasSwept_concat rfl] at hswept
    cases operation with
    | fire id => cases hdisciplined.last.fires hswept
    | edit change fits =>
      have hattended := (h.attended hdisciplined.init hswept hdone).changed h.wired
        (m := s.operating (.edit change fits)) rfl rfl
      apply hattended.mono
      intro id hdue
      rw [woken_concat hwithin, List.mem_append]
      rcases hdue with (hpending | hwoken) | ⟨hok, hwakes⟩
      · exact .inl hpending
      · exact .inr (.inl hwoken)
      · right
        right
        change id ∈ if (s.registry.edit change).value.2.isOk then change.wakes.toList else []
        rw [if_pos hok, hwakes]
        exact List.mem_cons_self

theorem due (h : s.Watchful .cycle past) {firings : List (Moment σ)} {last : Moment σ} {report : CycleReport}
    (fired : ∀ m ∈ firings, ∃ id, m.mark = .fired id) (before : last.before = s)
    (mark : last.mark = .cycled report) (disciplined : Along Disciplined (past ++ firings ++ [last]))
    (swept : hasSwept (past ++ firings ++ [last]) = true) (running : s.done = false) :
    s.registry.Attended past (Sweep.Due {} (s.scope report.all) s.registry.enabled) := by
  have hwithin : ∀ m ∈ firings, m.closes = false := by
    intro m hm
    obtain ⟨id, hmark⟩ := fired m hm
    rw [Moment.closes, hmark]
  have henabled : ∀ id e, s.registry.entry? id = some e → e.status.isEnabled = true →
      id ∈ s.registry.enabled := by
    intro id e he henabled
    refine List.mem_map.mpr ⟨e, List.mem_filter.mpr ⟨List.mem_of_find?_eq_some he, henabled⟩, ?_⟩
    exact Registry.entry?_id he
  unfold scope
  split
  case isFalse => exact fun id e he hactive => .inl (.inr ⟨henabled id e he hactive, rfl⟩)
  case isTrue hrestricted =>
    have hnarrow : report.all = false := by
      simpa using (Bool.and_eq_true_iff.mp hrestricted).1
    have hbefore : hasSwept past = true := by
      have hlast : last.sweeps = false := by simp [Moment.sweeps, mark, hnarrow]
      rwa [hasSwept_concat hlast, hasSwept_append hwithin] at swept
    -- Whoever has been woken has been named, and what was named has gathered in the pending set.
    have hserved : ∀ id ∈ woken past, id ∈ s.pending := by
      intro id hwoken
      have hgathered : gathered (past ++ firings) = gathered past :=
        Moment.Apart.gathered_append fun m hm => by
          obtain ⟨id, hmark⟩ := fired m hm
          exact .of_fired hmark
      have hnamed := disciplined.last.names ((hasSwept_append hwithin).trans hbefore)
        (by rw [Moment.closes, mark]) (before ▸ running) id (mem_woken_append hwoken hwithin)
      rw [h.coalescing.holding.pending, ← hgathered]
      exact gathered_of_named hnamed
    intro id e he hactive
    refine (h.attended disciplined.init.init hbefore running id e he hactive).imp_left fun hdue => ?_
    have hpending := hdue.elim (fun hpending => hpending) (hserved id)
    exact .inr ⟨henabled id e he hactive, Std.ExtTreeSet.contains_iff_mem.mpr hpending⟩

theorem closing_attended (h : s.Watchful .cycle past) (cycle : Nat) (all active : Bool)
    (disciplined : Along Disciplined (past ++ s.closing cycle all active))
    (swept : hasSwept (past ++ s.closing cycle all active) = true)
    (running : (s.closeCycle cycle all active).1.done = false) :
    (s.closeCycle cycle all active).1.registry.Attended (past ++ s.closing cycle all active)
      (· ∈ (s.closeCycle cycle all active).1.pending) := by
  let firings := firingEach (s.scope all) s.registry.enabled (s.takePending.2, {})
  let last : Moment σ := ⟨s, .cycled (s.closeCycle cycle all active).2, (s.closeCycle cycle all active).1⟩
  have hclosing : past ++ s.closing cycle all active = past ++ firings ++ [last] :=
    (List.append_assoc past firings [last]).symm
  rw [hclosing] at disciplined swept ⊢
  have hdone : s.done = false := s.closeCycle_done cycle all active ▸ running
  have hfirings : ∀ m ∈ firings, ∃ id, m.mark = .fired id := fun m hm => (mark_of_mem_firingEach hm).imp fun _ h => h.2
  have hdue := h.due hfirings (rfl : last.before = s) rfl disciplined swept hdone
  rw [← s.takePending_registry] at hdue
  obtain ⟨hattended, hsound⟩ := fireEach_attended (s.scope all) s.takePending.2.registry.enabled hdue
    fun id hid => absurd hid Std.ExtTreeSet.not_mem_empty
  rw [s.takePending_registry] at hattended hsound
  have hregistry := s.closeCycle_registry cycle all active
  have hlast : (s.sweepActors all).1.registry.Attended (past ++ firings ++ [last])
      (· ∈ (s.sweepActors all).2.total.affected) := hattended.concat rfl hregistry
  rw [hregistry]
  exact hlast.mono fun id hid => s.closeCycle_pending cycle all active running hsound hid

theorem closed (h : s.Watchful .cycle past) (sound : s.timers.Sound) (cycle : Nat) (all active : Bool) :
    (s.closeCycle cycle all active).1.Watchful .rest (past ++ s.closing cycle all active) where
  coalescing := h.coalescing.closed sound cycle all active
  wired := by
    rw [closeCycle_registry]
    apply h.wired.alike
    have hfired := fireEach_alike (s.scope all) s.registry.enabled s.takePending.2 {}
    rwa [s.takePending_registry] at hfired
  attended hdisciplined hswept hdone :=
    (h.closing_attended cycle all active hdisciplined hswept hdone).mono fun _ => .inl
  settled := by
    have hfirings : ∀ before, ∀ m ∈ firingEach (s.scope all) s.registry.enabled (s.takePending.2, {}),
        Along Disciplined (before ++ [m]) → Settled before m := by
      intro before m hm _
      obtain ⟨id, -, hmark⟩ := mark_of_mem_firingEach hm
      exact settled_within (by rw [Moment.closes, hmark])
    rw [closing, ← List.append_assoc]
    apply (h.settled.append hfirings).concat
    intro hdisciplined _ hswept hdone id e he henabled hpending hbalked
    rw [List.append_assoc] at hdisciplined hswept hbalked
    have hattended := h.closing_attended cycle all active hdisciplined hswept hdone
    have hrest := ((hattended id e he henabled).resolve_left hpending).resolve_left (ne_true_of_eq_false hbalked)
    exact ⟨hrest, hrest.fire⟩

theorem kept : Kept fun stage (past : List (Moment σ)) (s : Scheduler σ) => s.Watchful stage past where
  quiet := quiet
  obeyed _ h sound := h.obeyed sound
  lapsed h sound command := by
    have hobeyed := h.obeyed sound command
    exact ⟨Coalescing.kept.lapsed h.coalescing sound command, hobeyed.wired, hobeyed.settled, hobeyed.attended⟩
  begun {past s} h sound hdone hnone := by
    obtain ⟨timers, hframe⟩ := s.renewImmediate_frame true
    have hregistry : (s.renewImmediate true).registry = s.registry := by rw [hframe]
    refine h.of_within rfl rfl (Coalescing.kept.begun h.coalescing sound hdone hnone) hregistry hregistry ?_ ?_
    · exact fun _ => hdone
    · rw [hframe]
      exact fun _ hid => hid
  operated operation h := h.operated operation
  expired {past s timers id wakeup} h sound hhalted expires := by
    obtain ⟨stats, hframe⟩ := s.expire_frame timers wakeup
    have hregistry : (s.expire timers wakeup).registry = s.registry := by rw [hframe]
    refine h.of_within rfl rfl (h.coalescing.expired sound expires) hregistry hregistry ?_ ?_
    · rw [hframe]
      exact fun hdone => hdone
    · rw [hframe]
      exact fun _ hid => hid
  entered h := ⟨Coalescing.kept.entered h.coalescing, h.wired, h.settled, h.attended⟩
  opened all h :=
    h.of_within rfl rfl (Coalescing.kept.opened all h.coalescing) rfl rfl (fun hdone => hdone) fun _ hid => hid
  closed cycle all active h sound := h.closed sound cycle all active

theorem start (run : Run σ) : run.start.Watchful .rest [] where
  coalescing := .start run
  wired := Registry.wired_empty.after run.setup
  settled := along_nil
  attended _ hswept := by cases hswept

end Watchful

end Scheduler

/-- In every run in which callers keep to the discipline, whether or not it is restricted, a cycle leaves
nothing to do for the enabled actors that are not pending. -/
theorem Run.actors_settled (run : Run σ) {past rest : List (Moment σ)} {m : Moment σ}
    (history : run.history = past ++ m :: rest) (disciplined : Along Disciplined (past ++ [m])) :
    Settled past m :=
  (run.invariant Scheduler.Watchful.kept (Scheduler.Watchful.start run)).1.settled past m rest history disciplined

def pulse : Action Nat where
  name := "pulse"
  condition := ⟨[], []⟩
  guard := some fun left _ => .ok (decide (0 < left))
  body left _ := (left - 1, .ok [])

def pulser : ActorType Nat where
  name := "pulser"
  inputs := []
  outputs := []
  actions := [pulse]
  handler := none
  hooks := .none
  valid := by
    refine ⟨nofun, List.nodup_nil, List.nodup_singleton _, ?_⟩
    simp [Declaration.Accepts, pulse]

def pulsing : Run Nat where
  setup := [.edit (.add (.new ⟨"a"⟩ pulser 1)) (Actor.fits_new _ _ _)]
  config := { restrictToTriggered := true }
  valid := by decide
  monitor := .silent
  clock := .origin
  calls := [.loopOnce true, .operate (.edit (.add (.new ⟨"b"⟩ pulser 1)) (Actor.fits_new _ _ _)),
    .trigger .zero (.one ⟨"b"⟩), .loopOnce false]

theorem Run.actors_settled_pulsing :
    ∃ past m e, pulsing.history = past ++ [m] ∧ Along Disciplined (past ++ [m]) ∧ m.closes = true ∧
      m.after.registry.entry? ⟨"a"⟩ = some e ∧ e.status.isEnabled = true ∧ m.after.pending.toList = [⟨"b"⟩] ∧
        e.actor.chosen = none ∧ e.actor.fire.value = (e.actor, .ok .idle) := by
  have hsplit : pulsing.history = pulsing.history.dropLast ++ [pulsing.history.getLast nofun] :=
    (List.dropLast_append_getLast _).symm
  have hdisciplined : Along Disciplined pulsing.history := by decide
  obtain ⟨e, he⟩ : ∃ e, Registry.entry? (pulsing.history.getLast nofun).after.registry ⟨"a"⟩ = some e := ⟨_, rfl⟩
  rw [hsplit] at hdisciplined
  have henabled : e.status.isEnabled = true := by
    cases he
    rfl
  have hrest := Run.actors_settled pulsing hsplit hdisciplined rfl rfl rfl ⟨"a"⟩ e he henabled (by decide) rfl
  exact ⟨_, _, e, hsplit, hdisciplined, rfl, he, henabled, rfl, hrest⟩

end ActorNet
