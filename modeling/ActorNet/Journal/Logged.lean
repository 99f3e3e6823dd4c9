import ActorNet.Journal.Event

set_option autoImplicit false

/-!
# Writing the journal

The journal is only written. `Logged` pairs a value with what was written on the way to it, and no function
reads it, so that statements about values can leave it out.
-/
namespace ActorNet

/-- A value and what was written on the way to it. -/
@[ext]
structure Logged (α : Type) where
  value : α
  journal : List Entry

namespace Logged

variable {α β : Type}

instance : Monad Logged where
  pure value := ⟨value, []⟩
  map f x := ⟨f x.value, x.journal⟩
  bind x f :=
    let y := f x.value
    ⟨y.value, x.journal ++ y.journal⟩

def write (entry : Entry) : Logged Unit := ⟨(), [entry]⟩

def note (event : Event) : Logged Unit := write (.event event)

def notes (events : List Event) : Logged Unit := ⟨(), events.map .event⟩

@[simp] theorem value_pure (value : α) : (pure value : Logged α).value = value := rfl

@[simp] theorem value_bind (x : Logged α) (f : α → Logged β) : (x >>= f).value = (f x.value).value := rfl

@[simp] theorem value_map (f : α → β) (x : Logged α) : (f <$> x).value = f x.value := rfl

@[simp] theorem journal_map (f : α → β) (x : Logged α) : (f <$> x).journal = x.journal := rfl

@[simp] theorem journal_pure (value : α) : (pure value : Logged α).journal = [] := rfl

@[simp] theorem journal_bind (x : Logged α) (f : α → Logged β) :
    (x >>= f).journal = x.journal ++ (f x.value).journal := rfl

instance : LawfulMonad Logged :=
  LawfulMonad.mk' Logged
    (fun _ => rfl)
    (fun value f => Logged.ext rfl (List.nil_append (f value).journal))
    (fun x _ _ => Logged.ext rfl (List.append_assoc x.journal _ _))
    (fun _ _ => rfl) (fun _ _ => rfl) (fun _ _ => rfl)
    (fun _ x => Logged.ext rfl (List.append_nil x.journal))

/-- A result as an option; the error of a failure is logged. -/
def orNone : Except RunError α → Logged (Option α)
  | .ok value => return some value
  | .error e => do
    note (.operationFailed e)
    return none

def orDefault (default : α) : Except RunError α → Logged α
  | .ok value => return value
  | .error e => do
    note (.operationDefaulted e)
    return default

end Logged

end ActorNet
