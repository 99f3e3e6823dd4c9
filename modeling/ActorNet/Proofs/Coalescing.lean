import ActorNet.Proofs.Bookkeeping

set_option autoImplicit false

/-!
# Requests gather until a cycle serves them

What is pending is what has gathered since the last cycle: the actors named by requests at once, with the
marker for "no actor", and those that the cycle itself affected. A request is dropped when nothing but the
marker has gathered; otherwise a cycle is outstanding, and it serves all that has gathered by then.
-/
namespace ActorNet

variable {σ : Type}

def Moment.gather (m : Moment σ) (waiting : List (Option ActorId)) : List (Option ActorId) :=
  match m.mark with
  | .obeyed (.trigger delay (.actors ids)) =>
    if delay.isZero && !m.before.done then waiting ++ ids.toList else waiting
  | .cycled report =>
    if report.result.didFire && report.next != .stopped then report.result.affected.toList.map some else []
  | _ => waiting

/-- What has gathered since the last cycle. -/
def gathered (past : List (Moment σ)) : List (Option ActorId) :=
  past.foldl (fun waiting m => m.gather waiting) []

theorem gathered_concat (past : List (Moment σ)) (m : Moment σ) :
    gathered (past ++ [m]) = m.gather (gathered past) := by
  simp [gathered]

def OnlyMarker (waiting : List (Option ActorId)) : Prop := ∀ id, id ∈ waiting ↔ id = none

/-- What is served at a moment: a request, and the actors that a cycle takes. -/
structure Served (past : List (Moment σ)) (m : Moment σ) : Prop where
  dropped {delay : Duration} {ids : Std.ExtTreeSet (Option ActorId) compare} :
    m.mark = .obeyed (.trigger delay (.actors ids)) → delay.isZero = true → m.before.done = false →
      OnlyMarker (gathered (past ++ [m])) →
        m.after.timers = m.before.timers ∧ m.after.immediate = m.before.immediate ∧
          m.after.stats.triggersDropped = countUp m.before.stats.triggersDropped
  granted {delay : Duration} {ids : Std.ExtTreeSet (Option ActorId) compare} :
    m.mark = .obeyed (.trigger delay (.actors ids)) → delay.isZero = true → m.before.done = false →
      ¬OnlyMarker (gathered (past ++ [m])) →
        m.after.hasImmediateCycle = true ∧
          m.after.stats.triggersDropped = m.before.stats.triggersDropped
  eligible {report : CycleReport} : m.mark = .cycled report →
    ∀ id, id ∈ report.eligible ↔ some id ∈ gathered past

structure Moment.Apart (m : Moment σ) : Prop where
  request {delay : Duration} {ids : Std.ExtTreeSet (Option ActorId) compare} :
    m.mark = .obeyed (.trigger delay (.actors ids)) → delay.isZero = false ∨ m.before.done = true
  cycle {report : CycleReport} : m.mark ≠ .cycled report

namespace Moment.Apart

variable {m : Moment σ} {past : List (Moment σ)}

theorem gathered (apart : m.Apart) : gathered (past ++ [m]) = ActorNet.gathered past := by
  rw [gathered_concat]
  unfold gather
  split
  case h_1 delay ids hmark => rcases apart.request hmark with hlater | hstopped <;> simp [*]
  case h_2 report hmark => exact absurd hmark apart.cycle
  case h_3 => rfl

theorem served (apart : m.Apart) : Served past m where
  dropped hmark hnow hrunning := by
    rcases apart.request hmark with hlater | hstopped <;> simp_all
  granted hmark hnow hrunning := by
    rcases apart.request hmark with hlater | hstopped <;> simp_all
  eligible hmark := absurd hmark apart.cycle

theorem of_fired {id : ActorId} (h : m.mark = .fired id) : m.Apart := by
  constructor <;> simp [h]

theorem gathered_append {moments : List (Moment σ)} (apart : ∀ m ∈ moments, m.Apart) :
    ActorNet.gathered (past ++ moments) = ActorNet.gathered past := by
  induction moments generalizing past with
  | nil => rw [List.append_nil]
  | cons m moments ih =>
    rw [List.append_cons, ih fun m' hm' => apart m' (List.mem_cons_of_mem _ hm')]
    exact (apart m List.mem_cons_self).gathered

end Moment.Apart

namespace Scheduler

variable {s s' : Scheduler σ} {past : List (Moment σ)}

structure Holding (past : List (Moment σ)) (s : Scheduler σ) : Prop where
  pending : ∀ id, id ∈ s.pending ↔ some id ∈ gathered past
  unaddressed : s.unaddressed = true ↔ none ∈ gathered past

theorem Holding.congr (h : s.Holding past) (pending : s'.pending = s.pending)
    (unaddressed : s'.unaddressed = s.unaddressed) : s'.Holding past where
  pending := by
    rw [pending]
    exact h.pending
  unaddressed := by
    rw [unaddressed]
    exact h.unaddressed

theorem Holding.isMarkerOnly_iff (h : s.Holding past) :
    s.isMarkerOnly = true ↔ OnlyMarker (gathered past) := by
  unfold isMarkerOnly
  rw [Bool.and_eq_true, Std.ExtTreeSet.isEmpty_iff, Std.ExtTreeSet.eq_empty_iff_forall_not_mem, h.unaddressed]
  constructor
  · rintro ⟨hnobody, hmarker⟩ (_ | id)
    · simpa using hmarker
    · rw [← h.pending]
      simpa using hnobody id
  · intro hmarker
    refine ⟨fun id hid => ?_, (hmarker none).mpr rfl⟩
    cases (hmarker (some id)).mp ((h.pending id).mp hid)

theorem Holding.join (h : s.Holding past) {m : Moment σ} {ids : Std.ExtTreeSet (Option ActorId) compare}
    (hgathered : gathered (past ++ [m]) = gathered past ++ ids.toList) : (s.join ids).Holding (past ++ [m]) where
  pending id := by
    rw [mem_join, hgathered, List.mem_append, h.pending, Std.ExtTreeSet.mem_toList]
  unaddressed := by
    rw [hgathered, List.mem_append, ← h.unaddressed, Std.ExtTreeSet.mem_toList]
    simp [Scheduler.join]

structure Coalescing (stage : Stage) (past : List (Moment σ)) (s : Scheduler σ) : Prop where
  booked : s.Booked past
  holding : s.Holding past
  served : Along Served past
  awaited : stage ≠ .cycle → s.done = false → s.pending ≠ ∅ → s.hasImmediateCycle = true

namespace Coalescing

variable {stage : Stage}

theorem quiet (h : s.Coalescing stage past) (quiet : s.Quiet s') : s'.Coalescing stage past where
  booked := h.booked.quiet quiet
  holding := by
    rw [quiet.eq]
    exact h.holding.congr rfl rfl
  served := h.served
  awaited := by
    rw [hasImmediateCycle_iff, quiet.timers.pending, quiet.eq]
    exact fun hstage hdone hsome => s.hasImmediateCycle_iff.mp (h.awaited hstage hdone hsome)

theorem of_apart {next : Stage} (h : s.Coalescing stage past) {m : Moment σ} (apart : m.Apart)
    (booked : s'.Booked (past ++ [m])) (pending : s'.pending = s.pending)
    (unaddressed : s'.unaddressed = s.unaddressed)
    (awaited : next ≠ .cycle → s'.done = false → s'.pending ≠ ∅ → s'.hasImmediateCycle = true) :
    s'.Coalescing next (past ++ [m]) where
  booked := booked
  holding := by
    constructor
    · rw [apart.gathered, pending]
      exact h.holding.pending
    · rw [apart.gathered, unaddressed]
      exact h.holding.unaddressed
  served := h.served.concat apart.served
  awaited := awaited

theorem obeyed (h : s.Coalescing stage past) (sound : s.timers.Sound) {command : Command}
    (obeyed : s.Obeyed command s') : s'.Coalescing stage (past ++ [⟨s, .obeyed command, s'⟩]) := by
  have hbooked := h.booked.obeyed sound obeyed
  cases obeyed with
  | ignored delay targets hdone =>
    exact h.of_apart ⟨fun _ => .inr hdone, nofun⟩ hbooked rfl rfl h.awaited
  | delayed delay targets hrunning hlater =>
    have hapart : Moment.Apart ⟨s, .obeyed (.trigger delay targets), (s.schedule delay (.cycle true)).2⟩ := by
      refine ⟨fun hmark => .inl ?_, nofun⟩
      cases hmark
      exact hlater
    refine h.of_apart hapart hbooked rfl rfl ?_
    exact fun hstage hdone hsome => schedule_hasImmediateCycle (h.awaited hstage hdone hsome) _ _
  | sweep delay hrunning hnow =>
    obtain ⟨timers, hframe⟩ := s.renewImmediate_frame true
    refine h.of_apart ⟨nofun, nofun⟩ hbooked (by rw [hframe]) (by rw [hframe]) fun _ _ _ => ?_
    exact s.renewImmediate_hasImmediateCycle true
  | dropped delay ids hrunning hnow hnobody =>
    have hgathered : gathered (past ++ [⟨s, .obeyed (.trigger delay (.actors ids)), (s.join ids).drop⟩]) =
        gathered past ++ ids.toList := by
      rw [gathered_concat]
      simp [Moment.gather, hnow, hrunning]
    have hjoined := h.holding.join hgathered
    have hserved : Served past ⟨s, .obeyed (.trigger delay (.actors ids)), (s.join ids).drop⟩ := by
      refine ⟨fun hmark _ _ _ => ⟨rfl, rfl, rfl⟩, fun hmark _ _ hsome => ?_, nofun⟩
      exact absurd (hjoined.isMarkerOnly_iff.mp hnobody) hsome
    have hempty := Std.ExtTreeSet.isEmpty_iff.mp (Bool.and_eq_true_iff.mp hnobody).1
    exact ⟨hbooked, hjoined.congr rfl rfl, h.served.concat hserved,
      fun _ _ hsome => absurd hempty hsome⟩
  | joined delay ids hrunning hnow hsomebody =>
    have hgathered : gathered (past ++ [⟨s, .obeyed (.trigger delay (.actors ids)),
        (s.join ids).scheduleImmediate false⟩]) = gathered past ++ ids.toList := by
      rw [gathered_concat]
      simp [Moment.gather, hnow, hrunning]
    have hjoined := h.holding.join hgathered
    obtain ⟨timers, immediate, immediateSweep, hframe⟩ := (s.join ids).scheduleImmediate_frame false
    have houtstanding := (s.join ids).scheduleImmediate_hasImmediateCycle false
    have hserved : Served past ⟨s, .obeyed (.trigger delay (.actors ids)),
        (s.join ids).scheduleImmediate false⟩ := by
      refine ⟨fun hmark _ _ honly => ?_, fun hmark _ _ _ => ⟨houtstanding, ?_⟩, nofun⟩
      · rw [hjoined.isMarkerOnly_iff.mpr honly] at hsomebody
        cases hsomebody
      · rw [hframe]
        rfl
    have hholding : ((s.join ids).scheduleImmediate false).Holding
        (past ++ [⟨s, .obeyed (.trigger delay (.actors ids)), (s.join ids).scheduleImmediate false⟩]) :=
      hjoined.congr (by rw [hframe]) (by rw [hframe])
    exact ⟨hbooked, hholding, h.served.concat hserved, fun _ _ _ => houtstanding⟩
  | stopAgain hdone => exact h.of_apart ⟨nofun, nofun⟩ hbooked rfl rfl h.awaited
  | stop hrunning => exact h.of_apart ⟨nofun, nofun⟩ hbooked rfl rfl nofun

theorem expired (h : s.Coalescing .rest past) (sound : s.timers.Sound) {timers : TimerQueue Wakeup}
    {id : TimerId} {wakeup : Wakeup} (expires : s.timers.Expires s.now id wakeup timers) :
    (s.expire timers wakeup).Coalescing (.upon wakeup)
      (past ++ [⟨s, .expired id wakeup, s.expire timers wakeup⟩]) := by
  have hbooked : (s.expire timers wakeup).Booked
      (past ++ [⟨s, .expired id wakeup, s.expire timers wakeup⟩]) := h.booked.expire sound expires
  obtain ⟨stats, hframe⟩ := s.expire_frame timers wakeup
  refine h.of_apart ⟨nofun, nofun⟩ hbooked (by rw [hframe]) (by rw [hframe]) ?_
  rw [hframe]
  intro hstage hdone hsome
  have houtstanding := h.awaited nofun hdone hsome
  obtain ⟨immediate, himmediate, hmem⟩ := s.hasImmediateCycle_iff.mp houtstanding
  have hother : ¬compare id immediate = .eq := by
    intro hsame
    have hpayload := h.booked.pending_immediate himmediate houtstanding
    rw [← Std.LawfulEqOrd.eq_of_compare hsame, expires.payload] at hpayload
    rw [Option.some.inj hpayload] at hstage
    exact hstage rfl
  refine (hasImmediateCycle_iff _).mpr ⟨immediate, himmediate, ?_⟩
  change immediate ∈ timers.pending
  rw [expires.pending]
  exact Std.ExtTreeMap.mem_erase.mpr ⟨hother, hmem⟩

theorem closed (h : s.Coalescing .cycle past) (sound : s.timers.Sound) (cycle : Nat) (all active : Bool) :
    (s.closeCycle cycle all active).1.Coalescing .rest (past ++ s.closing cycle all active) := by
  let moments := firingEach (s.scope all) s.registry.enabled (s.takePending.2, {})
  let result := (s.closeCycle cycle all active).2.result
  let next := (s.closeCycle cycle all active).2.next
  let last : Moment σ := ⟨s, .cycled (s.closeCycle cycle all active).2, (s.closeCycle cycle all active).1⟩
  have hfollowed := s.closeCycle_followed cycle all active
  have hnobody := s.swept_pending all
  have hbooked := Booked.kept.closed cycle all active h.booked sound
  have hapart : ∀ m ∈ moments, m.Apart := by
    intro m hm
    obtain ⟨id, -, hmark⟩ := mark_of_mem_firingEach hm
    exact .of_fired hmark
  have hgathered : gathered (past ++ moments) = gathered past := Moment.Apart.gathered_append hapart
  have hlast : gathered (past ++ s.closing cycle all active) =
      if result.didFire && next != .stopped then result.affected.toList.map some else [] := by
    rw [closing, ← List.append_assoc, gathered_concat]
    rfl
  have hserved : Served (past ++ moments) last := by
    constructor
    · intro delay ids hmark
      cases hmark
    · intro delay ids hmark
      cases hmark
    · intro report hmark id
      cases hmark
      rw [hgathered]
      exact h.holding.pending id
  refine ⟨hbooked, ⟨fun id => ?_, ?_⟩, ?_, fun _ => hfollowed.awaited hnobody⟩
  · rw [hfollowed.pending hnobody, hlast]
    change (result.didFire = true ∧ next ≠ .stopped) ∧ id ∈ result.affected ↔ _
    by_cases hfires : result.didFire = true ∧ next ≠ .stopped
    · simp [hfires]
    · rw [if_neg (by simpa using hfires)]
      simp [hfires]
  · rw [hfollowed.unaddressed, s.swept_unaddressed, hlast]
    split <;> simp
  · rw [closing, ← List.append_assoc]
    exact (h.served.append fun before m hm => (hapart m hm).served).concat hserved

theorem kept : Kept fun stage (past : List (Moment σ)) (s : Scheduler σ) => s.Coalescing stage past where
  quiet := quiet
  obeyed _ h sound := h.obeyed sound
  lapsed h sound command := by
    have hobeyed := h.obeyed sound command
    exact ⟨hobeyed.booked, hobeyed.holding, hobeyed.served, fun _ => hobeyed.awaited nofun⟩
  begun {past s} h sound hdone hnone := by
    obtain ⟨timers, hframe⟩ := s.renewImmediate_frame true
    refine h.of_apart ⟨nofun, nofun⟩ (Booked.kept.begun h.booked sound hdone hnone) (by rw [hframe])
      (by rw [hframe]) fun _ _ _ => ?_
    exact s.renewImmediate_hasImmediateCycle true
  operated operation h := by
    refine h.of_apart ⟨nofun, nofun⟩ (Booked.kept.operated operation h.booked) rfl rfl h.awaited
  expired h sound _ expires := h.expired sound expires
  entered h := ⟨h.booked, h.holding, h.served, nofun⟩
  opened all h := by
    refine h.of_apart ⟨nofun, nofun⟩ (Booked.kept.opened all h.booked) rfl rfl nofun
  closed cycle all active h sound := h.closed sound cycle all active

theorem start (run : Run σ) : run.start.Coalescing .rest [] where
  booked := .start run
  holding := ⟨by simp [Run.start, gathered], by simp [Run.start, gathered]⟩
  served := along_nil
  awaited _ _ hsome := absurd rfl hsome

end Coalescing

/-- The requests of a history are served, and those that have gathered are going to be. -/
structure Coalesced (past : List (Moment σ)) (s : Scheduler σ) : Prop where
  pending : ∀ id, id ∈ s.pending ↔ some id ∈ gathered past
  unaddressed : s.unaddressed = true ↔ none ∈ gathered past
  served : ∀ before m rest, past = before ++ m :: rest → Served before m
  awaited : s.done = false → s.pending ≠ ∅ → s.hasImmediateCycle = true

end Scheduler

/-- In every run requests gather until a cycle serves them. -/
theorem Run.requests_coalesced (run : Run σ) : run.state.Coalesced run.history := by
  have h := (run.invariant Scheduler.Coalescing.kept (.start run)).1
  exact ⟨h.holding.pending, h.holding.unaddressed, h.served, h.awaited nofun⟩

end ActorNet
