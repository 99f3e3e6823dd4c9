import ActorNet.Proofs.Bookkeeping

set_option autoImplicit false

/-!
# What follows the expiry of a timer

A step that takes the timer of a cycle starts that cycle at once: in every history the moments of the cycle come
right behind the moment at which the timer expires.
-/
namespace ActorNet

variable {σ : Type}

namespace Scheduler

theorem expiredTimers_draining (s : Scheduler σ) : expiredTimers s.draining = [] := by
  refine List.filterMap_eq_nil_iff.mpr fun m hm => ?_
  obtain ⟨command, hmark⟩ := mark_of_mem_obeyingEach hm
  simp [Moment.expiry?, hmark]

theorem expiredTimers_append (past rest : List (Moment σ)) :
    expiredTimers (past ++ rest) = expiredTimers past ++ expiredTimers rest := List.filterMap_append

theorem expiredTimers_cycling (s : Scheduler σ) (all : Bool) : expiredTimers (s.cycling all) = [] := by
  have hfiring : ∀ (only : Option ActorSet) (ids : List ActorId) (state : Scheduler σ × Sweep),
      expiredTimers (firingEach only ids state) = [] := by
    refine fun only ids state => List.filterMap_eq_nil_iff.mpr fun m hm => ?_
    obtain ⟨id, -, hmark⟩ := mark_of_mem_firingEach hm
    simp [Moment.expiry?, hmark]
  rw [cycling, closing, expiredTimers_append, expiredTimers_append, hfiring]
  change expiredTimers (s.openCycle all).draining ++ [] = []
  rw [expiredTimers_draining, List.append_nil]

theorem expiredTimers_waking (s : Scheduler σ) (wakeup : Wakeup) : expiredTimers (s.waking wakeup) = [] := by
  cases wakeup with
  | cycle all => exact s.expiredTimers_cycling all
  | heartbeat | halt => rfl

end Scheduler

def Prompt (moments : List (Moment σ)) : Prop :=
  ∀ before m rest, moments = before ++ m :: rest → ∀ id all, m.mark = .expired id (.cycle all) →
    m.after.cycling all <+: rest

namespace Prompt

variable {first second : List (Moment σ)}

theorem of_unexpired {moments : List (Moment σ)} (h : expiredTimers moments = []) : Prompt moments := by
  rintro before m rest rfl id all hmark
  have hnone := List.filterMap_eq_nil_iff.mp h m (List.mem_append_right _ List.mem_cons_self)
  rw [Moment.expiry?, hmark] at hnone
  cases hnone

theorem append (hfirst : Prompt first) (hsecond : Prompt second) : Prompt (first ++ second) := by
  intro before m rest heq id all hmark
  rcases List.append_eq_append_iff.mp heq with ⟨between, rfl, hrest⟩ | ⟨between, rfl, hrest⟩
  · exact hsecond between m rest hrest id all hmark
  · cases between with
    | nil => exact hsecond [] m rest hrest.symm id all hmark
    | cons head tail =>
      obtain ⟨rfl, rfl⟩ := List.cons.inj hrest
      exact (hfirst before m tail rfl id all hmark).trans (List.prefix_append _ _)

theorem cons_unexpired {m : Moment σ} (hexpiry : m.expiry? = none) (h : Prompt first) : Prompt (m :: first) := by
  have hm : expiredTimers [m] = [] := by simp [expiredTimers, hexpiry]
  exact (of_unexpired hm).append h

end Prompt

namespace Scheduler

theorem serving_prompt (s : Scheduler σ) : Prompt s.serving := by
  unfold serving
  split
  · exact .of_unexpired rfl
  · rcases s.timers.popDue s.now with ⟨_ | ⟨id, wakeup⟩, timers⟩
    · exact .of_unexpired rfl
    · intro before m rest heq other all hmark
      cases before with
      | nil =>
        obtain ⟨rfl, rfl⟩ := List.cons.inj heq
        cases hmark
        exact List.prefix_rfl
      | cons head before =>
        obtain ⟨rfl, hrest⟩ := List.cons.inj heq
        exact Prompt.of_unexpired (expiredTimers_waking _ _) before m rest hrest other all hmark

theorem draining_prompt (s : Scheduler σ) : Prompt s.draining := .of_unexpired s.expiredTimers_draining

theorem stepping_prompt (s : Scheduler σ) : Prompt s.stepping := s.draining_prompt.append s.drain.value.serving_prompt

theorem steppingEach_prompt (steps : Nat) (s : Scheduler σ) : Prompt (steppingEach steps s) := by
  induction steps generalizing s with
  | zero => exact .of_unexpired rfl
  | succ steps ih =>
    rw [steppingEach]
    refine s.stepping_prompt.append ?_
    split
    · exact ih _
    · exact .of_unexpired rfl

theorem looping_prompt (fuel : Nat) (outside : Outside) (s : Scheduler σ) : Prompt (looping fuel outside s) := by
  induction fuel generalizing outside s with
  | zero => exact .of_unexpired rfl
  | succ fuel ih =>
    rw [looping]
    refine (steppingEach_prompt _ s).append ?_
    rcases pausing outside s with after | ⟨after, outside⟩ | ⟨after, outside, command⟩
    · exact .of_unexpired rfl
    · exact ih outside after
    · exact .cons_unexpired rfl (ih outside _)

theorem running_prompt (fuel : Nat) (outside : Outside) (s : Scheduler σ) : Prompt (s.running fuel outside) := by
  refine s.draining_prompt.append ?_
  dsimp only
  split
  · exact .cons_unexpired rfl (looping_prompt fuel outside _)
  · exact looping_prompt fuel outside _

theorem editing_prompt (s : Scheduler σ) (change : Edit σ) (fits : change.Fits) : Prompt (s.editing change fits) := by
  unfold editing
  rcases arrival change (s.registry.edit change).value.2 with _ | id <;> exact .of_unexpired rfl

theorem moments_prompt (s : Scheduler σ) (call : Call σ) : Prompt (s.moments call) := by
  cases call with
  | trigger | stop | send | operate | tick => exact .of_unexpired rfl
  | step => exact s.stepping_prompt
  | runDue => exact steppingEach_prompt _ s
  | loopOnce all => exact .of_unexpired (s.expiredTimers_cycling all)
  | run fuel outside => exact running_prompt fuel outside s
  | edit change fits => exact s.editing_prompt change fits

theorem history_prompt (s : Scheduler σ) (calls : List (Call σ)) : Prompt (s.history calls) := by
  induction calls generalizing s with
  | nil => exact .of_unexpired rfl
  | cons call calls ih => exact (s.moments_prompt call).append (ih _)

theorem exists_cycled (s : Scheduler σ) (all : Bool) :
    ∃ during last, s.cycling all = during ++ [last] ∧ last.mark = .cycled (s.loopOnce all).value.2 := by
  rw [loopOnce_value, cycling, closing, ← List.append_assoc]
  exact ⟨_, _, rfl, rfl⟩

theorem loopOnce_all (s : Scheduler σ) (all : Bool) : (s.loopOnce all).value.2.all = all := by
  rw [loopOnce_value]
  rfl

/-- The cycle of a timer that expires stands right behind it, and reports what it was scheduled for. -/
theorem history_cycled (s : Scheduler σ) (calls : List (Call σ)) {before rest : List (Moment σ)} {m : Moment σ}
    (history : s.history calls = before ++ m :: rest) {id : TimerId} {all : Bool}
    (mark : m.mark = .expired id (.cycle all)) :
    ∃ during last report later, m.after.cycling all = during ++ [last] ∧ rest = during ++ last :: later ∧
      last.mark = .cycled report ∧ report.all = all := by
  obtain ⟨later, hrest⟩ := s.history_prompt calls before m rest history id all mark
  obtain ⟨during, last, hcycle, hcycled⟩ := m.after.exists_cycled all
  refine ⟨during, last, _, later, hcycle, ?_, hcycled, m.after.loopOnce_all all⟩
  rw [← hrest, hcycle, List.append_assoc, List.singleton_append]

end Scheduler

end ActorNet
