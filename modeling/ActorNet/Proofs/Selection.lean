import ActorNet.Proofs.Firing
import Mathlib.Data.List.Forall2

set_option autoImplicit false

/-!
# Which action a firing selects

An action qualifies when each of its inputs holds a token, and one of the tokens at their heads is a control token or
the guard of the action lets them pass. A firing performs the first action that qualifies. The ones before it leave an
event each and nothing else. Guards count for what they answer to heads that are all data, up to the action performed.
-/
namespace ActorNet

variable {σ : Type}

namespace Condition

def Heads (condition : Condition) (ports : Ports) (heads : List Token) : Prop :=
  heads.map some = condition.inputs.map fun name => (ports.queueOf name).head?

variable {condition : Condition} {ports : Ports} {heads : List Token}

theorem peek?_eq_some_iff : condition.peek? ports = some heads ↔ condition.Heads ports heads := by
  unfold peek? Heads
  generalize condition.inputs = names
  induction names generalizing heads with
  | nil => cases heads <;> simp
  | cons name names ih =>
    rw [List.mapM_cons, List.map_cons, ← Ports.peek?_eq]
    cases hname : ports.peek? name with
    | none => cases heads <;> simp
    | some head =>
      cases hnames : names.mapM ports.peek? with
      | none =>
        cases heads with
        | nil => simp
        | cons token heads => simp [← @ih heads, hnames]
      | some rest =>
        cases heads with
        | nil => simp
        | cons token heads => simp [← @ih heads, hnames, eq_comm]

theorem exists_empty_of_peek? (h : condition.peek? ports = none) :
    ∃ name ∈ condition.inputs, ports.queueOf name = [] := by
  unfold peek? at h
  generalize condition.inputs = names at h
  induction names with
  | nil => cases h
  | cons name names ih =>
    cases hname : ports.peek? name with
    | none =>
      rw [Ports.peek?_eq, List.head?_eq_none_iff] at hname
      exact ⟨name, List.mem_cons_self, hname⟩
    | some head =>
      cases hnames : names.mapM ports.peek? with
      | none =>
        obtain ⟨other, hother, hempty⟩ := ih hnames
        exact ⟨other, List.mem_cons_of_mem name hother, hempty⟩
      | some rest =>
        rw [List.mapM_cons, hname, hnames] at h
        cases h

theorem Heads.consume (h : condition.Heads ports heads) (distinct : condition.inputs.Nodup) :
    (condition.consume ports).1 = heads := by
  unfold Heads at h
  unfold Condition.consume
  generalize condition.inputs = names at h distinct
  induction names generalizing ports heads with
  | nil =>
    rw [List.map_nil, List.map_eq_nil_iff] at h
    exact h.symm
  | cons name names ih =>
    obtain ⟨hfresh, hdistinct⟩ := List.nodup_cons.mp distinct
    cases heads with
    | nil => cases h
    | cons head heads =>
      rw [List.map_cons, List.map_cons, List.cons.injEq, ← Ports.peek?_eq] at h
      have hrest : heads.map some = names.map fun other => ((ports.pop name).queueOf other).head? := by
        rw [h.2]
        refine List.map_congr_left fun other hother => ?_
        have hne : name ≠ other := fun hsame => hfresh (hsame ▸ hother)
        rw [Ports.queueOf_pop, if_neg hne, List.drop_zero]
      have htaken : (takeEach (name :: names) ports).1 = head :: (takeEach names (ports.pop name)).1 := by
        rw [takeEach, ← h.1]
        rfl
      rw [htaken, ih hrest hdistinct]

end Condition

namespace Action

def controlAmong : List Token → Option TokenKind
  | [] => none
  | .data _ :: tokens => controlAmong tokens
  | .endOfStream :: _ => some .endOfStream
  | .exception _ :: _ => some .exception

theorem find?_isControl (heads : List Token) : (heads.find? Token.isControl).map Token.kind = controlAmong heads := by
  induction heads with
  | nil => rfl
  | cons token tokens ih =>
    cases token with
    | data => exact ih
    | endOfStream | exception => rfl

def AllData (heads : List Token) : Prop := ∀ token ∈ heads, ∃ value, token = .data value

theorem allData_iff {heads : List Token} : AllData heads ↔ controlAmong heads = none := by
  induction heads with
  | nil => exact iff_of_true nofun rfl
  | cons token tokens ih =>
    unfold AllData at ih ⊢
    cases token <;> simp [controlAmong, ih]

/-- What the guard answers to the heads. Where there is no guard, they pass. -/
inductive Judges (action : Action σ) (state : σ) (heads : List Token) : Outcome GuardError Bool → Prop
  | unguarded (absent : action.guard = none) : Judges action state heads (.ok true)
  | guarded (guard : σ → List Token → Outcome GuardError Bool) (present : action.guard = some guard) :
    Judges action state heads (guard state heads)

/-- Each input holds a token, and one of the heads is a control token or the guard lets the heads pass. -/
def Qualifies (action : Action σ) (ports : Ports) (state : σ) : Prop :=
  ∃ heads, action.condition.Heads ports heads ∧
    ((∃ token ∈ heads, ∀ value, token ≠ .data value) ∨ action.Judges state heads (.ok true))

/-- What keeps an action from being performed. A guard that panics has failed. -/
inductive Held (ports : Ports) (state : σ) (action : Action σ) : Obstacle → Prop
  | unmet (name : String) (declared : name ∈ action.condition.inputs) (empty : ports.queueOf name = []) :
    Held ports state action .conditionNotMet
  | rejected (heads : List Token) (h : action.condition.Heads ports heads) (data : AllData heads)
    (answer : action.Judges state heads (.ok false)) : Held ports state action .guardRejected
  | failed (heads : List Token) (h : action.condition.Heads ports heads) (data : AllData heads) (e : GuardError)
    (answer : action.Judges state heads (.error e)) : Held ports state action (.guardFailed e)
  | panicked (heads : List Token) (h : action.condition.Heads ports heads) (data : AllData heads) (payload : Panic)
    (answer : action.Judges state heads (.panic payload)) :
    Held ports state action (.guardFailed ⟨"guard panicked: " ++ payload.message⟩)

/-- The other action waits at the same inputs, and its guard answers alike to the heads there if they are all data. -/
structure Alike (ports : Ports) (state : σ) (action other : Action σ) : Prop where
  inputs : other.condition.inputs = action.condition.inputs
  guard : ∀ heads, action.condition.Heads ports heads → AllData heads →
    ∀ answer, action.Judges state heads answer → other.Judges state heads answer

variable {action other : Action σ} {ports : Ports} {state : σ}

theorem judges_iff {heads : List Token} {answer : Outcome GuardError Bool} :
    action.Judges state heads answer ↔ action.checkGuard state heads = answer := by
  unfold checkGuard
  constructor
  · rintro (hnone | ⟨guard, hsome⟩)
    · rw [hnone]
    · rw [hsome]
  · rintro rfl
    cases hguard : action.guard with
    | none => exact .unguarded hguard
    | some guard => exact .guarded guard hguard

theorem standing_control {heads : List Token} (h : action.condition.Heads ports heads) {kind : TokenKind}
    (first : controlAmong heads = some kind) : action.standing ports state = .ready (some kind) := by
  rw [← find?_isControl] at first
  obtain ⟨token, hfound, rfl⟩ := Option.map_eq_some_iff.mp first
  simp only [standing, Condition.peek?_eq_some_iff.mpr h, hfound]

def Standing.judged : Except GuardError Bool → Standing
  | .ok true => .ready none
  | .ok false => .passed .guardRejected
  | .error e => .passed (.guardFailed e)

theorem standing_data {heads : List Token} (h : action.condition.Heads ports heads) (data : AllData heads) :
    action.standing ports state = .judged (action.guardVerdict state heads) := by
  have hnone := allData_iff.mp data
  rw [← find?_isControl, Option.map_eq_none_iff] at hnone
  simp only [standing, Condition.peek?_eq_some_iff.mpr h, hnone]
  rcases action.guardVerdict state heads with e | _ | _ <;> rfl

theorem Qualifies.standing (h : action.Qualifies ports state) :
    ∃ heads, action.condition.Heads ports heads ∧ action.standing ports state = .ready (controlAmong heads) := by
  obtain ⟨heads, hheads, hpasses⟩ := h
  refine ⟨heads, hheads, ?_⟩
  cases hfirst : controlAmong heads with
  | some kind => exact standing_control hheads hfirst
  | none =>
    have hdata := allData_iff.mpr hfirst
    have hanswer : action.Judges state heads (.ok true) := by
      refine hpasses.resolve_left fun ⟨token, hmem, hcontrol⟩ => ?_
      obtain ⟨value, hvalue⟩ := hdata token hmem
      exact hcontrol value hvalue
    rw [standing_data hheads hdata, guardVerdict, judges_iff.mp hanswer]
    rfl

theorem held_of_not_qualifies (h : ¬action.Qualifies ports state) :
    ∃ obstacle, Held ports state action obstacle ∧ action.standing ports state = .passed obstacle := by
  cases hpeek : action.condition.peek? ports with
  | none =>
    obtain ⟨name, hname, hempty⟩ := Condition.exists_empty_of_peek? hpeek
    refine ⟨_, .unmet name hname hempty, ?_⟩
    unfold standing
    rw [hpeek]
  | some heads =>
    have hheads := Condition.peek?_eq_some_iff.mp hpeek
    have hdata : AllData heads := by
      intro token hmem
      by_contra hcontrol
      exact h ⟨heads, hheads, .inl ⟨token, hmem, not_exists.mp hcontrol⟩⟩
    rw [standing_data hheads hdata, guardVerdict]
    cases hanswer : action.checkGuard state heads with
    | ok answer =>
      cases answer with
      | true => exact absurd ⟨heads, hheads, .inr (judges_iff.mpr hanswer)⟩ h
      | false => exact ⟨_, .rejected heads hheads hdata (judges_iff.mpr hanswer), rfl⟩
    | error e => exact ⟨_, .failed heads hheads hdata e (judges_iff.mpr hanswer), rfl⟩
    | panic payload => exact ⟨_, .panicked heads hheads hdata payload (judges_iff.mpr hanswer), rfl⟩

theorem Alike.standing (h : Alike ports state action other) :
    other.standing ports state = action.standing ports state := by
  have hpeek : other.condition.peek? ports = action.condition.peek? ports :=
    congrArg (List.mapM ports.peek? ·) h.inputs
  cases hheads : action.condition.peek? ports with
  | none =>
    unfold Action.standing
    rw [hpeek, hheads]
  | some heads =>
    have hhere := Condition.peek?_eq_some_iff.mp hheads
    have hthere := Condition.peek?_eq_some_iff.mp (hpeek.trans hheads)
    cases hfirst : controlAmong heads with
    | some kind => rw [standing_control hhere hfirst, standing_control hthere hfirst]
    | none =>
      have hdata := allData_iff.mpr hfirst
      have hguard := judges_iff.mp (h.guard heads hhere hdata _ (judges_iff.mpr rfl))
      rw [standing_data hhere hdata, standing_data hthere hdata, guardVerdict, hguard, guardVerdict]

abbrev Passed (ports : Ports) (state : σ) : List (Action σ) → List Obstacle → Prop :=
  List.Forall₂ fun action obstacle => action.standing ports state = .passed obstacle

theorem select_passed {before : List (Action σ)} {obstacles : List Obstacle} (h : Passed ports state before obstacles)
    (actions : List (Action σ)) :
    select ports state (before ++ actions) =
      (before.zip obstacles ++ (select ports state actions).1, (select ports state actions).2) := by
  induction h with
  | nil => rfl
  | cons hstanding _ ih =>
    rw [List.cons_append, select, hstanding]
    dsimp only
    rw [ih]
    rfl

theorem passed_of_not_qualifies {before : List (Action σ)} (h : ∀ action ∈ before, ¬action.Qualifies ports state) :
    ∃ obstacles, List.Forall₂ (Held ports state) before obstacles ∧ Passed ports state before obstacles := by
  induction before with
  | nil => exact ⟨[], .nil, .nil⟩
  | cons action before ih =>
    obtain ⟨obstacle, hheld, hstanding⟩ := held_of_not_qualifies (h action List.mem_cons_self)
    obtain ⟨obstacles, hrest, hpassed⟩ := ih fun other hother => h other (List.mem_cons_of_mem action hother)
    exact ⟨obstacle :: obstacles, .cons hheld hrest, .cons hstanding hpassed⟩

theorem Passed.alike {before others : List (Action σ)} {obstacles : List Obstacle}
    (h : Passed ports state before obstacles) (alike : List.Forall₂ (Alike ports state) before others) :
    Passed ports state others obstacles := by
  induction h generalizing others with
  | nil =>
    cases alike
    exact .nil
  | cons hstanding _ ih =>
    cases alike with
    | cons hfirst hrest => exact .cons (hfirst.standing.trans hstanding) (ih hrest)

end Action

namespace Actor

def perform (actor : Actor σ) (action : Action σ) (control : Option TokenKind) :
    Logged (Actor σ × Outcome FiringError FiringResult) :=
  match actor.run action control with
  | (actor, .ok (some production)) => do
    Logged.note (.fired actor.id action.name)
    let (actor, result) := actor.emit action.condition.outputs production
    return (actor, .ok result)
  | (actor, .ok none) => do
    Logged.note (.failureAbsorbed actor.id action.name)
    return (actor, .ok .idle)
  | (actor, .error e) => return (actor, .error e)
  | (actor, .panic payload) => return (actor, .panic payload)

def passOver (actor : Actor σ) (passed : List (Action σ × Action.Obstacle)) : Logged Unit :=
  Logged.notes (passed.map fun (action, obstacle) => actor.passedEvent action obstacle)

def selected (actor : Actor σ) : List (Action σ × Action.Obstacle) × Option (Action σ × Option TokenKind) :=
  Action.select actor.ports actor.state actor.kind.actions

theorem fire_eq (actor : Actor σ) :
    actor.fire = (do
      actor.passOver actor.selected.1
      match actor.selected.2 with
      | none => return (actor, .ok .idle)
      | some (action, control) => actor.perform action control) := rfl

def Performs (actor : Actor σ) (before : List (Action σ)) (obstacles : List Action.Obstacle) (action : Action σ)
    (control : Option TokenKind) : Prop :=
  actor.fire = do
    actor.passOver (before.zip obstacles)
    actor.perform action control

def Idles (actor : Actor σ) (obstacles : List Action.Obstacle) : Prop :=
  actor.fire = do
    actor.passOver (actor.kind.actions.zip obstacles)
    return (actor, .ok .idle)

/-- How a firing goes through the actions of an actor. It would go the same way through the actions of any other type
that are alike up to the one performed, so that no guard is asked about anything else. -/
inductive Choice (actor : Actor σ) : Prop
  | first (before : List (Action σ)) (action : Action σ) (after : List (Action σ)) (heads : List Token)
    (obstacles : List Action.Obstacle)
    (declared : actor.kind.actions = before ++ action :: after)
    (unqualified : ∀ earlier ∈ before, ¬earlier.Qualifies actor.ports actor.state)
    (qualified : action.Qualifies actor.ports actor.state)
    (held : List.Forall₂ (Action.Held actor.ports actor.state) before obstacles)
    (here : action.condition.Heads actor.ports heads)
    (taken : (action.condition.consume actor.ports).1 = heads)
    (performs : actor.Performs before obstacles action (Action.controlAmong heads))
    (unasked : ∀ (kind : ActorType σ) (before' : List (Action σ)) (action' : Action σ) (after' : List (Action σ)),
      kind.actions = before' ++ action' :: after' →
      List.Forall₂ (Action.Alike actor.ports actor.state) before before' →
      Action.Alike actor.ports actor.state action action' →
      { actor with kind }.Performs before' obstacles action' (Action.controlAmong heads))
  | idle (obstacles : List Action.Obstacle)
    (unqualified : ∀ action ∈ actor.kind.actions, ¬action.Qualifies actor.ports actor.state)
    (held : List.Forall₂ (Action.Held actor.ports actor.state) actor.kind.actions obstacles)
    (idles : actor.Idles obstacles)
    (unasked : ∀ kind : ActorType σ,
      List.Forall₂ (Action.Alike actor.ports actor.state) actor.kind.actions kind.actions →
      { actor with kind }.Idles obstacles)

theorem performs_of_standing {actor : Actor σ} {before after : List (Action σ)} {action : Action σ}
    {obstacles : List Action.Obstacle} {control : Option TokenKind}
    (declared : actor.kind.actions = before ++ action :: after)
    (passed : Action.Passed actor.ports actor.state before obstacles)
    (ready : action.standing actor.ports actor.state = .ready control) :
    actor.Performs before obstacles action control := by
  have hselected : actor.selected = (before.zip obstacles, some (action, control)) := by
    rw [selected, declared, Action.select_passed passed, Action.select, ready]
    simp
  rw [Performs, fire_eq, hselected]

theorem idles_of_standing {actor : Actor σ} {obstacles : List Action.Obstacle}
    (passed : Action.Passed actor.ports actor.state actor.kind.actions obstacles) : actor.Idles obstacles := by
  have hselected : actor.selected = (actor.kind.actions.zip obstacles, none) := by
    have hselect := Action.select_passed passed []
    rw [List.append_nil] at hselect
    rw [selected, hselect]
    simp [Action.select]
  rw [Idles, fire_eq, hselected]

theorem exists_first_or_none (actions : List (Action σ)) (ports : Ports) (state : σ) :
    (∃ before action after, actions = before ++ action :: after ∧ action.Qualifies ports state ∧
      ∀ earlier ∈ before, ¬earlier.Qualifies ports state) ∨
    ∀ action ∈ actions, ¬action.Qualifies ports state := by
  induction actions with
  | nil => exact .inr fun _ h => absurd h List.not_mem_nil
  | cons action actions ih =>
    by_cases hfirst : action.Qualifies ports state
    · exact .inl ⟨[], action, actions, rfl, hfirst, fun _ h => absurd h List.not_mem_nil⟩
    · rcases ih with ⟨before, chosen, after, rfl, hchosen, hbefore⟩ | hnone
      · exact .inl ⟨action :: before, chosen, after, rfl, hchosen, List.forall_mem_cons.mpr ⟨hfirst, hbefore⟩⟩
      · exact .inr (List.forall_mem_cons.mpr ⟨hfirst, hnone⟩)

/-- A firing performs the first action that qualifies, and nothing when none does. -/
theorem fires_first_qualifying (actor : Actor σ) : actor.Choice := by
  rcases exists_first_or_none actor.kind.actions actor.ports actor.state with
    ⟨before, action, after, hdeclared, hqualified, hbefore⟩ | hnone
  · obtain ⟨heads, hheads, hready⟩ := hqualified.standing
    obtain ⟨obstacles, hheld, hpassed⟩ := Action.passed_of_not_qualifies hbefore
    have haccepted := actor.kind.valid.2.2.2 action (hdeclared ▸ List.mem_append_right before List.mem_cons_self)
    refine .first before action after heads obstacles hdeclared hbefore hqualified hheld hheads
      (hheads.consume haccepted.1) (performs_of_standing hdeclared hpassed hready) ?_
    intro kind before' action' after' hdeclared' halike hsame
    exact performs_of_standing hdeclared' (hpassed.alike halike) (hsame.standing.trans hready)
  · obtain ⟨obstacles, hheld, hpassed⟩ := Action.passed_of_not_qualifies hnone
    refine .idle obstacles hnone hheld (idles_of_standing hpassed) fun kind halike => ?_
    exact idles_of_standing (hpassed.alike halike)

end Actor

end ActorNet
