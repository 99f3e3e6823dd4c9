import ActorNet.Action

set_option autoImplicit false

/-!
# Actor types

A declaration lists ports and actions. It makes an actor type when it has no fault; `fault?` is the fault
that is reported, and there is none exactly when the declaration is valid.
-/
namespace ActorNet

/-- The first element that occurs again, going by where it occurs again. -/
def firstRepeat? {α : Type} [BEq α] : List α → List α → Option α
  | _, [] => none
  | seen, x :: xs => if seen.contains x then some x else firstRepeat? (x :: seen) xs

theorem firstRepeat?_eq_none_iff {α : Type} [BEq α] [LawfulBEq α] (seen xs : List α) :
    firstRepeat? seen xs = none ↔ xs.Nodup ∧ ∀ x ∈ xs, x ∉ seen := by
  induction xs generalizing seen with
  | nil => simp [firstRepeat?]
  | cons x xs ih =>
    by_cases h : x ∈ seen
    · simp [firstRepeat?, h]
    · have hc : seen.contains x = false := by simpa using h
      rw [firstRepeat?, hc]
      simp only [Bool.false_eq_true, if_false, ih, List.nodup_cons, List.mem_cons, not_or, forall_eq_or_imp]
      constructor
      · rintro ⟨hn, hs⟩
        exact ⟨⟨fun hx => (hs x hx).1 rfl, hn⟩, h, fun y hy => (hs y hy).2⟩
      · rintro ⟨⟨hx, hn⟩, _, hs⟩
        exact ⟨hn, fun y hy => ⟨fun e => hx (e ▸ hy), hs y hy⟩⟩

/-- What an actor does around a move of its resources: it is told before, and may refuse afterwards. -/
structure MigrationHooks (σ : Type) where
  before : σ → σ
  after : σ → σ × Except MigrationError Unit

def MigrationHooks.none {σ : Type} : MigrationHooks σ := ⟨id, fun state => (state, .ok ())⟩

structure Declaration (σ : Type) where
  name : String
  inputs : List String
  outputs : List String
  actions : List (Action σ)
  handler : Option (Handler σ)
  hooks : MigrationHooks σ

inductive TypeFault where
  | noActions
  | portTwice (port : String)
  | actionTwice (action : String)
  | consumesTwice (action port : String)
  | undeclaredInput (action port : String)
  | undeclaredOutput (action port : String)
deriving DecidableEq, Repr

def TypeFault.reason : TypeFault → String
  | noActions => "no actions declared"
  | portTwice port => "port '" ++ port ++ "' declared twice"
  | actionTwice action => "action '" ++ action ++ "' declared twice"
  | consumesTwice action port => "action '" ++ action ++ "' consumes port '" ++ port ++ "' twice"
  | undeclaredInput action port => "action '" ++ action ++ "' consumes undeclared input '" ++ port ++ "'"
  | undeclaredOutput action port =>
    "action '" ++ action ++ "' produces to undeclared output '" ++ port ++ "'"

namespace Declaration

variable {σ : Type}

def Accepts (d : Declaration σ) (action : Action σ) : Prop :=
  action.condition.inputs.Nodup ∧ (∀ port ∈ action.condition.inputs, port ∈ d.inputs) ∧
    ∀ port ∈ action.condition.outputs, port ∈ d.outputs

def Valid (d : Declaration σ) : Prop :=
  d.actions ≠ [] ∧ (d.inputs ++ d.outputs).Nodup ∧ (d.actions.map Action.name).Nodup ∧
    ∀ action ∈ d.actions, d.Accepts action

def actionFault? (d : Declaration σ) (action : Action σ) : Option TypeFault :=
  ((firstRepeat? [] action.condition.inputs).map (.consumesTwice action.name)).or
    (((action.condition.inputs.find? (!d.inputs.contains ·)).map (.undeclaredInput action.name)).or
      ((action.condition.outputs.find? (!d.outputs.contains ·)).map (.undeclaredOutput action.name)))

def fault? (d : Declaration σ) : Option TypeFault :=
  (if d.actions.isEmpty then some .noActions else none).or
    (((firstRepeat? [] (d.inputs ++ d.outputs)).map .portTwice).or
      (((firstRepeat? [] (d.actions.map Action.name)).map .actionTwice).or
        (d.actions.findSome? d.actionFault?)))

theorem actionFault?_eq_none_iff (d : Declaration σ) (action : Action σ) :
    d.actionFault? action = none ↔ d.Accepts action := by
  simp [actionFault?, Accepts, firstRepeat?_eq_none_iff]

theorem fault?_eq_none_iff (d : Declaration σ) : d.fault? = none ↔ d.Valid := by
  simp [fault?, Valid, firstRepeat?_eq_none_iff, actionFault?_eq_none_iff]

end Declaration

structure ActorType (σ : Type) extends Declaration σ where
  valid : toDeclaration.Valid

namespace ActorType

variable {σ : Type}

def build (d : Declaration σ) : Except ActorError (ActorType σ) :=
  match h : d.fault? with
  | some fault => .error (.invalidType d.name fault.reason)
  | none => .ok ⟨d, d.fault?_eq_none_iff.mp h⟩

def newPorts (kind : ActorType σ) : Ports := .ofNames kind.inputs kind.outputs

end ActorType

end ActorNet
