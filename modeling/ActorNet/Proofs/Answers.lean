import ActorNet.Proofs.History

set_option autoImplicit false

/-!
# Conversations

A call has an answer, and something is written on the way to it. A conversation is what a list of calls comes to: the
state after each of them, its answer, and its part of the journal.
-/
namespace ActorNet

variable {σ : Type}

inductive Answer (σ : Type) where
  | done
  | stepped (step : Step)
  | reported (reports : List CycleReport)
  | cycled (report : CycleReport)
  | ended (outside : Outside) (ending : Ending)
  | replied (answer : Except ActorError (Reply σ))
  | fired (outcome : Outcome FiringError FiringResult)

namespace Registry

def respond (r : Registry σ) : Operation σ → Logged (Registry σ × Answer σ)
  | .edit change _ => Prod.map id .replied <$> r.edit change
  | .fire actor => Prod.map id .fired <$> r.fireActor actor

theorem respond_fst (r : Registry σ) (operation : Operation σ) :
    (r.respond operation).value.1 = r.operate operation := by
  cases operation <;> rfl

end Registry

namespace Scheduler

def respond (s : Scheduler σ) : Call σ → Logged (Scheduler σ × Answer σ)
  | .trigger delay targets => (·, .done) <$> s.trigger delay targets
  | .stop => (·, .done) <$> s.stop
  | .send command => return (s.send command, .done)
  | .step => Prod.map id .stepped <$> s.step
  | .runDue => Prod.map id .reported <$> s.runDue
  | .loopOnce all => Prod.map id .cycled <$> s.loopOnce all
  | .run fuel outside => Prod.map id (fun (outside, ending) => .ended outside ending) <$> run fuel outside s
  | .edit change _ => Prod.map id .replied <$> s.edit change
  | .operate operation => Prod.map ({ s with registry := · }) id <$> s.registry.respond operation
  | .tick time => return (if s.now ≤ time then { s with now := time } else s, .done)

theorem respond_fst (s : Scheduler σ) (call : Call σ) : (s.respond call).value.1 = s.perform call := by
  cases call with
  | operate operation =>
    rw [perform, ← Registry.respond_fst]
    rfl
  | _ => rfl

def conversation : Scheduler σ → List (Call σ) → List (Logged (Scheduler σ × Answer σ))
  | _, [] => []
  | s, call :: calls => s.respond call :: conversation (s.perform call) calls

end Scheduler

end ActorNet
