import ActorNet.Proofs.Outcomes

set_option autoImplicit false

/-!
# What a handler is told

A firing asks the handler of the type about one failure at most, and passes the tokens along that were taken. The
failure is told to be the end of a stream by the first control token among them, so that an exception in front hides
the end of a stream behind it.
-/
namespace ActorNet

variable {σ : Type}

namespace Action

/-- The end of a stream is among the tokens, but an exception comes first. -/
def EndHidden (tokens : List Token) : Prop :=
  Token.endOfStream ∈ tokens ∧ controlAmong tokens = some .exception

theorem endOfStream_mem {tokens : List Token} (h : controlAmong tokens = some .endOfStream) :
    Token.endOfStream ∈ tokens := by
  induction tokens with
  | nil => cases h
  | cons token tokens ih =>
    cases token with
    | data value => exact List.mem_cons_of_mem _ (ih h)
    | endOfStream => exact List.mem_cons_self
    | exception reason => cases h

theorem controlAmong_of_endOfStream {tokens : List Token} (h : Token.endOfStream ∈ tokens) :
    controlAmong tokens = some .endOfStream ∨ controlAmong tokens = some .exception := by
  induction tokens with
  | nil => cases h
  | cons token tokens ih =>
    cases token with
    | data value => exact ih ((List.mem_cons.mp h).resolve_left nofun)
    | endOfStream => exact .inl rfl
    | exception reason => exact .inr rfl

theorem controlAmong_rightly (tokens : List Token) :
    (controlAmong tokens = some .endOfStream ↔ Token.endOfStream ∈ tokens) ↔ ¬EndHidden tokens := by
  constructor
  · rintro h ⟨hmem, hexception⟩
    rw [← h, hexception] at hmem
    cases hmem
  · intro h
    refine ⟨endOfStream_mem, fun hmem => ?_⟩
    exact (controlAmong_of_endOfStream hmem).resolve_right fun hexception => h ⟨hmem, hexception⟩

theorem standing_heads {action : Action σ} {ports : Ports} {state : σ} {control : Option TokenKind}
    (h : action.standing ports state = .ready control) :
    ∃ heads, action.condition.Heads ports heads ∧ control = controlAmong heads := by
  obtain ⟨heads, hpeek⟩ := standing_ready h
  have hheads := Condition.peek?_eq_some_iff.mp hpeek
  refine ⟨heads, hheads, ?_⟩
  cases hfirst : controlAmong heads with
  | some kind =>
    rw [standing_control hheads hfirst] at h
    exact (Standing.ready.inj h).symm
  | none =>
    rw [standing_data hheads (allData_iff.mpr hfirst)] at h
    rcases hverdict : action.guardVerdict state heads with e | _ | _
    all_goals
      rw [hverdict] at h
      cases h
    rfl

end Action

def ActorType.handledBy (kind : ActorType σ) (handler : Handler σ) : ActorType σ :=
  { kind with handler := some handler, valid := kind.valid }

namespace Actor

def handledBy (actor : Actor σ) (handler : Handler σ) : Actor σ := { actor with kind := actor.kind.handledBy handler }

/-- What comes of the selected action before a handler is asked. -/
def tried (actor : Actor σ) (action : Action σ) (control : Option TokenKind) :
    Actor σ × Except (Failure σ) Production :=
  let (args, ports) := action.condition.consume actor.ports
  match control with
  | some kind => ({ actor with ports }, .error ⟨action, args, .control kind⟩)
  | none =>
    let (state, answer) := action.attempt actor.state args
    ({ actor with ports, state }, answer.mapError fun e => ⟨action, args, .body e⟩)

/-- The failure that a firing has for a handler, with the field state that the handler finds. -/
def handover? (actor : Actor σ) : Option (σ × Failure σ) :=
  match actor.chosen with
  | none => none
  | some (action, control) =>
    match actor.tried action control with
    | (_, .ok _) => none
    | (failing, .error failure) => some (failing.state, failure)

theorem run_tried (actor : Actor σ) (action : Action σ) (control : Option TokenKind) :
    actor.run action control =
      match actor.tried action control with
      | (ran, .ok production) => (ran, .ok (some production))
      | (failing, .error failure) =>
        ({ failing with state := (failing.recover failure).1 }, (failing.recover failure).2) := by
  unfold run tried
  rcases action.condition.consume actor.ports with ⟨args, ports⟩
  cases control with
  | some kind => rfl
  | none =>
    dsimp only
    rcases action.attempt actor.state args with ⟨state, e | production⟩ <;> rfl

theorem tried_kind {actor failing : Actor σ} {action : Action σ} {control : Option TokenKind}
    {answer : Except (Failure σ) Production} (h : actor.tried action control = (failing, answer)) :
    failing.kind = actor.kind := by
  cases control <;> exact congrArg (·.1.kind) h.symm

theorem recover_panics_iff {actor : Actor σ} {handler : Handler σ} (known : actor.kind.handler = some handler)
    (failure : Failure σ) (payload : Panic) :
    (actor.recover failure).2 = .panic payload ↔ ∃ after, handler actor.state failure = (after, .panic payload) := by
  unfold recover
  rw [known]
  dsimp only
  rcases hanswer : handler actor.state failure with ⟨after, (_ | production) | e | payload'⟩
  · simp
  · by_cases hfull : production.length = failure.action.condition.outputs.length
    · simp [Action.checkProduction_full hfull]
    · simp [Action.checkProduction_short hfull]
  · simp
  · simp

theorem fire_panics_iff_run {actor : Actor σ} {action : Action σ} {control : Option TokenKind}
    (h : actor.chosen = some (action, control)) (payload : Panic) :
    actor.fire.value.2 = .panic payload ↔ (actor.run action control).2 = .panic payload := by
  rw [fire_value, h]
  dsimp only
  rcases actor.run action control with ⟨ran, (_ | production) | e | payload'⟩ <;> simp

theorem fire_panics_iff {actor : Actor σ} {handler : Handler σ} (known : actor.kind.handler = some handler)
    (payload : Panic) :
    actor.fire.value.2 = .panic payload ↔
      ∃ state failure after, actor.handover? = some (state, failure) ∧
        handler state failure = (after, .panic payload) := by
  unfold handover?
  cases hchosen : actor.chosen with
  | none =>
    rw [fire_value, hchosen]
    simp
  | some choice =>
    obtain ⟨action, control⟩ := choice
    rw [fire_panics_iff_run hchosen, run_tried]
    dsimp only
    rcases htried : actor.tried action control with ⟨failing, failure | production⟩
    · have hknown : failing.kind.handler = some handler := by
        rw [tried_kind htried]
        exact known
      rw [recover_panics_iff hknown]
      simp
    · simp

theorem tried_handledBy (actor : Actor σ) (handler : Handler σ) (action : Action σ) (control : Option TokenKind) :
    (actor.handledBy handler).tried action control =
      ((actor.tried action control).1.handledBy handler, (actor.tried action control).2) := by
  cases control <;> rfl

theorem handover?_handledBy (actor : Actor σ) (handler : Handler σ) :
    (actor.handledBy handler).handover? = actor.handover? := by
  have hchosen : (actor.handledBy handler).chosen = actor.chosen := rfl
  unfold handover?
  rw [hchosen]
  rcases actor.chosen with _ | ⟨action, control⟩
  · rfl
  · dsimp only
    rw [tried_handledBy]
    rcases actor.tried action control with ⟨failing, failure | production⟩ <;> rfl

theorem tried_failure {actor failing : Actor σ} {action : Action σ} {control : Option TokenKind} {failure : Failure σ}
    (h : actor.tried action control = (failing, .error failure)) :
    failure.action = action ∧ failure.args = (action.condition.consume actor.ports).1 ∧
      (failure.isEndOfStream = true ↔ control = some .endOfStream) := by
  cases control with
  | some kind =>
    cases h
    refine ⟨rfl, rfl, ?_⟩
    simp [Failure.isEndOfStream]
  | none =>
    unfold tried at h
    dsimp only at h
    rcases hattempt : action.attempt actor.state (action.condition.consume actor.ports).1 with ⟨state, e | production⟩
    all_goals
      rw [hattempt] at h
      cases h
    refine ⟨rfl, rfl, ?_⟩
    simp [Failure.isEndOfStream]

/-- A failure with the tokens that were taken, and what it tells about them. -/
structure Tells (actor : Actor σ) (failure : Failure σ) : Prop where
  taken : failure.action.condition.Heads actor.ports failure.args
  first : failure.isEndOfStream = true ↔ Action.controlAmong failure.args = some .endOfStream
  rightly : (failure.isEndOfStream = true ↔ Token.endOfStream ∈ failure.args) ↔ ¬Action.EndHidden failure.args

theorem handover?_tells {actor : Actor σ} {state : σ} {failure : Failure σ}
    (h : actor.handover? = some (state, failure)) : actor.Tells failure := by
  unfold handover? at h
  cases hchosen : actor.chosen with
  | none =>
    rw [hchosen] at h
    cases h
  | some choice =>
    obtain ⟨action, control⟩ := choice
    rw [hchosen] at h
    dsimp only at h
    rcases htried : actor.tried action control with ⟨failing, failure' | production⟩
    · rw [htried] at h
      cases h
      obtain ⟨rfl, hargs, hcontrol⟩ := tried_failure htried
      obtain ⟨heads, hheads, rfl⟩ := Action.standing_heads (Action.select_mem hchosen).2
      rw [hheads.consume (chosen_accepted hchosen).1] at hargs
      subst hargs
      refine ⟨hheads, hcontrol, ?_⟩
      rw [hcontrol]
      exact Action.controlAmong_rightly failure.args
    · rw [htried] at h
      cases h

/-- A handler is told of the end of a stream that was taken unless an exception stands before it. -/
theorem end_told_unless_hidden (actor : Actor σ) :
    (∀ handler payload, (actor.handledBy handler).fire.value.2 = .panic payload ↔
        ∃ state failure after, actor.handover? = some (state, failure) ∧
          handler state failure = (after, .panic payload)) ∧
      ∀ state failure, actor.handover? = some (state, failure) → actor.Tells failure := by
  refine ⟨fun handler payload => ?_, fun state failure => handover?_tells⟩
  have hknown : (actor.handledBy handler).kind.handler = some handler := rfl
  rw [fire_panics_iff hknown, handover?_handledBy]

end Actor

def crossed : Actor Nat :=
  { Actor.new ⟨"j"⟩ junction 0 with
    ports := (junction.newPorts.push "b" [.exception "cut"]).push "a" [.endOfStream] }

/-- The end of a stream is taken, and the handler is not told. -/
theorem Actor.end_untold_crossed :
    ¬∀ state failure, crossed.handover? = some (state, failure) →
      (failure.isEndOfStream = true ↔ Token.endOfStream ∈ failure.args) := by
  intro h
  have htold := (h 0 ⟨passing, [.exception "cut", .endOfStream], .control .exception⟩ rfl).mpr (by simp)
  cases htold

end ActorNet
