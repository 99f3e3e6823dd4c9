import ActorNet.Proofs.Selection
import ActorNet.Proofs.Confluence
import ActorNet.Proofs.Merging

set_option autoImplicit false

/-!
# What a firing comes to

A firing that selects an action takes the head of each of its inputs. Then the body of the action, or the handler of
the type in its place, either comes up with one token for each output, or with none at all: outputs are written in
full or not touched. What is written is what the result tells, and an error tells what went wrong last.
-/
namespace ActorNet

variable {σ : Type}

namespace Ports

def told (name : String) (tokens : List (String × Token)) : Option (List Token) :=
  if name ∈ tokens.map Prod.fst then some (tokensOn name tokens) else none

theorem told_cons (name : String) (head : String × Token) (tokens : List (String × Token)) :
    told name (head :: tokens) =
      ProductionMap.joined (if head.1 = name then some [head.2] else none) (told name tokens) := by
  unfold told
  rw [tokensOn_cons]
  by_cases hmore : name ∈ tokens.map Prod.fst
  · by_cases hhead : head.1 = name <;> simp [hhead, hmore, ProductionMap.joined]
  · have hnone : tokensOn name tokens = [] := by
      unfold tokensOn
      rw [List.filter_eq_nil_iff.mpr fun entry hentry hsame => ?_]
      · rfl
      · exact hmore (List.mem_map.mpr ⟨entry, hentry, of_decide_eq_true hsame⟩)
    by_cases hhead : head.1 = name
    · simp [hhead, hmore, hnone]
    · simp [hhead, hmore, Ne.symm hhead]

end Ports

theorem Condition.Heads.head?_of_mem_zip {condition : Condition} {ports : Ports} {heads : List Token}
    (h : condition.Heads ports heads) {entry : String × Token} (mem : entry ∈ condition.inputs.zip heads) :
    (ports.queueOf entry.1).head? = some entry.2 := by
  unfold Condition.Heads at h
  generalize condition.inputs = names at h mem
  induction names generalizing heads with
  | nil => cases mem
  | cons name names ih =>
    cases heads with
    | nil => cases mem
    | cons head heads =>
      obtain ⟨hfirst, hrest⟩ := List.cons.inj h
      rcases List.mem_cons.mp mem with rfl | hmem
      · exact hfirst.symm
      · exact ih hrest hmem

theorem Condition.Heads.length {condition : Condition} {ports : Ports} {heads : List Token}
    (h : condition.Heads ports heads) : heads.length = condition.inputs.length := by
  have hlength := congrArg List.length h
  rwa [List.length_map, List.length_map] at hlength

theorem Condition.consume_of_notMem {condition : Condition} {name : String} (h : name ∉ condition.inputs)
    (ports : Ports) : (condition.consume ports).2[name]? = ports[name]? := by
  rw [consume_getElem?, List.count_eq_zero_of_not_mem h]
  cases ports[name]? <;> rfl

theorem ActorType.input_ne_output (kind : ActorType σ) {name : String} (input : name ∈ kind.inputs) :
    name ∉ kind.outputs := fun output => List.disjoint_of_nodup_append kind.valid.2.1 input output

namespace Action

variable {action : Action σ} {state : σ} {heads : List Token}

structure Yields (action : Action σ) (state : σ) (heads : List Token) (after : σ) (production : Production) :
    Prop where
  data : AllData heads
  answer : action.body state heads = (after, .ok production)
  full : production.length = action.condition.outputs.length

/-- Why there is no production by the body. It is not even asked when a control token is among the heads. -/
inductive Fails (action : Action σ) (state : σ) (heads : List Token) : σ → Cause → Prop
  | control (kind : TokenKind) (first : controlAmong heads = some kind) : Fails action state heads state (.control kind)
  | error (data : AllData heads) (after : σ) (e : ActionError)
    (answer : action.body state heads = (after, .error e)) : Fails action state heads after (.body e)
  | panic (data : AllData heads) (after : σ) (payload : Panic)
    (answer : action.body state heads = (after, .panic payload)) :
    Fails action state heads after (.body (.failed ("action panicked: " ++ payload.message)))
  | miscount (data : AllData heads) (after : σ) (production : Production)
    (answer : action.body state heads = (after, .ok production))
    (short : production.length ≠ action.condition.outputs.length) :
    Fails action state heads after
      (.body (.productionArity action.name action.condition.outputs.length production.length))

theorem checkProduction_full {production : Production} (h : production.length = action.condition.outputs.length) :
    action.checkProduction production = .ok production := if_pos h

theorem checkProduction_short {production : Production} (h : production.length ≠ action.condition.outputs.length) :
    action.checkProduction production =
      .error (.productionArity action.name action.condition.outputs.length production.length) := if_neg h

theorem attempt_value (action : Action σ) (state : σ) (heads : List Token) :
    action.attempt state heads = ((action.body state heads).1,
      ((action.body state heads).2.andThen action.checkProduction).catchPanic
        fun payload => .failed ("action panicked: " ++ payload.message)) := rfl

theorem attempt_cases (action : Action σ) (state : σ) (data : AllData heads) :
    (∃ after production, action.Yields state heads after production ∧
      action.attempt state heads = (after, .ok production)) ∨
    ∃ after e, action.Fails state heads after (.body e) ∧ action.attempt state heads = (after, .error e) := by
  rw [attempt_value]
  rcases hanswer : action.body state heads with ⟨after, production | e | payload⟩
  · by_cases hfull : production.length = action.condition.outputs.length
    · refine .inl ⟨after, production, ⟨data, hanswer, hfull⟩, ?_⟩
      simp only [Outcome.andThen, checkProduction_full hfull, Outcome.catchPanic]
    · refine .inr ⟨after, _, .miscount data after production hanswer hfull, ?_⟩
      simp only [Outcome.andThen, checkProduction_short hfull, Outcome.catchPanic]
  · exact .inr ⟨after, e, .error data after e hanswer, rfl⟩
  · exact .inr ⟨after, _, .panic data after payload hanswer, rfl⟩

theorem control_or_data (heads : List Token) :
    (∃ kind, controlAmong heads = some kind) ∨ controlAmong heads = none ∧ AllData heads := by
  cases hfirst : controlAmong heads with
  | some kind => exact .inl ⟨kind, rfl⟩
  | none => exact .inr ⟨rfl, allData_iff.mpr hfirst⟩

theorem Fails.data {after : σ} {e : ActionError} (h : action.Fails state heads after (.body e)) : AllData heads := by
  cases h <;> assumption

end Action

namespace Actor

variable {actor : Actor σ} {action : Action σ} {heads : List Token}

inductive Produces (actor : Actor σ) (action : Action σ) (heads : List Token) : σ → Production → Prop
  | body (state : σ) (production : Production) (yields : action.Yields actor.state heads state production) :
    Produces actor action heads state production
  | handler (failed state : σ) (cause : Cause) (production : Production) (handler : Handler σ)
    (fails : action.Fails actor.state heads failed cause) (known : actor.kind.handler = some handler)
    (answer : handler failed ⟨action, heads, cause⟩ = (state, .ok (.fired production)))
    (full : production.length = action.condition.outputs.length) : Produces actor action heads state production

inductive Misses (actor : Actor σ) (action : Action σ) (heads : List Token) :
    σ → Outcome FiringError FiringResult → Prop
  | absorbed (failed state : σ) (cause : Cause) (handler : Handler σ)
    (fails : action.Fails actor.state heads failed cause) (known : actor.kind.handler = some handler)
    (answer : handler failed ⟨action, heads, cause⟩ = (state, .ok .absorbed)) :
    Misses actor action heads state (.ok .idle)
  | refused (failed state : σ) (cause : Cause) (handler : Handler σ) (e : ActionError)
    (fails : action.Fails actor.state heads failed cause) (known : actor.kind.handler = some handler)
    (answer : handler failed ⟨action, heads, cause⟩ = (state, .error e)) :
    Misses actor action heads state (.error (.action actor.id action.name e))
  | miscounted (failed state : σ) (cause : Cause) (handler : Handler σ) (production : Production)
    (fails : action.Fails actor.state heads failed cause) (known : actor.kind.handler = some handler)
    (answer : handler failed ⟨action, heads, cause⟩ = (state, .ok (.fired production)))
    (short : production.length ≠ action.condition.outputs.length) :
    Misses actor action heads state (.error (.action actor.id action.name
      (.productionArity action.name action.condition.outputs.length production.length)))
  | panicked (failed state : σ) (cause : Cause) (handler : Handler σ) (payload : Panic)
    (fails : action.Fails actor.state heads failed cause) (known : actor.kind.handler = some handler)
    (answer : handler failed ⟨action, heads, cause⟩ = (state, .panic payload)) :
    Misses actor action heads state (.panic payload)
  | control (kind : TokenKind) (first : Action.controlAmong heads = some kind) (unhandled : actor.kind.handler = none) :
    Misses actor action heads actor.state (.error (.controlToken actor.id action.name kind))
  | failed (state : σ) (e : ActionError) (fails : action.Fails actor.state heads state (.body e))
    (unhandled : actor.kind.handler = none) :
    Misses actor action heads state (.error (.action actor.id action.name e))

/-- The tokens that a production has for a port, in the order in which the action declares its outputs. -/
def written (action : Action σ) (production : Production) (name : String) : List Token :=
  Ports.tokensOn name (action.condition.outputs.zip production)

/-- The firing writes a production: to the outputs of the action, and to its result. -/
structure Writes (actor : Actor σ) (action : Action σ) (production : Production) (after : Actor σ)
    (result : FiringResult) : Prop where
  full : production.length = action.condition.outputs.length
  outputs : ∀ name ∈ action.condition.outputs, ∃ queue, actor.ports[name]? = some ⟨.output, queue⟩ ∧
    after.ports[name]? = some ⟨.output, queue ++ written action production name⟩
  didFire : result.didFire = true
  told : ∀ addr : PortAddr, result.production[addr]? =
    if addr.actor = actor.id ∧ addr.port ∈ action.condition.outputs then some (written action production addr.port)
    else none
  affected : result.affected = {actor.id}

/-- How a firing of the selected action ends: outputs are written in full, or left alone. -/
inductive Ends (actor : Actor σ) (action : Action σ) (heads : List Token) (after : Actor σ) :
    Outcome FiringError FiringResult → Prop
  | fired (production : Production) (result : FiringResult)
    (produces : actor.Produces action heads after.state production)
    (writes : actor.Writes action production after result)
    (others : ∀ name ∈ actor.kind.outputs, name ∉ action.condition.outputs →
      after.ports[name]? = actor.ports[name]?) :
    Ends actor action heads after (.ok result)
  | unfired (outcome : Outcome FiringError FiringResult) (misses : actor.Misses action heads after.state outcome)
    (untouched : ∀ name ∈ actor.kind.outputs, after.ports[name]? = actor.ports[name]?) :
    Ends actor action heads after outcome

/-- The action is the first one that qualifies, with these tokens at the heads of its inputs. -/
structure Selects (actor : Actor σ) (action : Action σ) (heads : List Token) : Prop where
  first : ∃ before after, actor.kind.actions = before ++ action :: after ∧
    ∀ earlier ∈ before, ¬earlier.Qualifies actor.ports actor.state
  qualifies : action.Qualifies actor.ports actor.state
  here : action.condition.Heads actor.ports heads

/-- What the firing of the selected action does to the actor, and what comes of it. -/
structure Effect (actor : Actor σ) (action : Action σ) (heads : List Token) (after : Actor σ)
    (outcome : Outcome FiringError FiringResult) : Prop where
  same : after.id = actor.id ∧ after.kind = actor.kind
  fits : after.Fits
  complete : heads.length = action.condition.inputs.length
  inputs : ∀ entry ∈ action.condition.inputs.zip heads, ∃ queue,
    actor.ports[entry.1]? = some ⟨.input, entry.2 :: queue⟩ ∧ after.ports[entry.1]? = some ⟨.input, queue⟩
  others : ∀ name ∈ actor.kind.inputs, name ∉ action.condition.inputs → after.ports[name]? = actor.ports[name]?
  ends : actor.Ends action heads after outcome
  control : ∀ kind, outcome = .error (.controlToken actor.id action.name kind) ↔
    Action.controlAmong heads = some kind ∧ actor.kind.handler = none
  named : ∀ e, outcome = .error e →
    (∃ kind, e = .controlToken actor.id action.name kind) ∨ ∃ source, e = .action actor.id action.name source

inductive Concludes (actor : Actor σ) (action : Action σ) (heads : List Token) :
    σ → Outcome FiringError (Option Production) → Prop
  | produced (state : σ) (production : Production) (h : actor.Produces action heads state production) :
    Concludes actor action heads state (.ok (some production))
  | absorbed (state : σ) (h : actor.Misses action heads state (.ok .idle)) :
    Concludes actor action heads state (.ok none)
  | failed (state : σ) (e : FiringError) (h : actor.Misses action heads state (.error e)) :
    Concludes actor action heads state (.error e)
  | panicked (state : σ) (payload : Panic) (h : actor.Misses action heads state (.panic payload)) :
    Concludes actor action heads state (.panic payload)

theorem Produces.full {state : σ} {production : Production} (h : actor.Produces action heads state production) :
    production.length = action.condition.outputs.length := by
  cases h with
  | body _ _ yields => exact yields.full
  | handler _ _ _ _ _ _ _ _ full => exact full

theorem Produces.handled {state : σ} {production : Production} (h : actor.Produces action heads state production)
    {kind : TokenKind} (first : Action.controlAmong heads = some kind) : actor.kind.handler ≠ none := by
  intro hunhandled
  cases h with
  | body _ _ yields =>
    rw [Action.allData_iff.mp yields.data] at first
    cases first
  | handler _ _ _ _ _ _ known =>
    rw [hunhandled] at known
    cases known

theorem Misses.control_iff {state : σ} {outcome : Outcome FiringError FiringResult}
    (h : actor.Misses action heads state outcome) (kind : TokenKind) :
    outcome = .error (.controlToken actor.id action.name kind) ↔
      Action.controlAmong heads = some kind ∧ actor.kind.handler = none := by
  cases h with
  | absorbed _ _ _ _ _ known | refused _ _ _ _ _ _ known | miscounted _ _ _ _ _ _ known
  | panicked _ _ _ _ _ _ known => simp [known]
  | control first hfirst unhandled => simp [hfirst, unhandled]
  | failed _ _ fails => simp [Action.allData_iff.mp fails.data]

theorem Misses.named {state : σ} {e : FiringError} (h : actor.Misses action heads state (.error e)) :
    (∃ kind, e = .controlToken actor.id action.name kind) ∨
      ∃ source, e = .action actor.id action.name source := by
  cases h with
  | refused | miscounted | failed => exact .inr ⟨_, rfl⟩
  | control kind => exact .inl ⟨kind, rfl⟩

theorem reraise_misses {state : σ} {cause : Cause} (fails : action.Fails actor.state heads state cause)
    (unhandled : actor.kind.handler = none) :
    actor.Misses action heads state (.error (reraise actor.id action cause)) := by
  cases cause with
  | control kind =>
    cases fails with
    | control _ first => exact .control kind first unhandled
  | body e => exact .failed state e fails unhandled

theorem recover_concludes {failing : Actor σ} {cause : Cause} (sameId : failing.id = actor.id)
    (sameKind : failing.kind = actor.kind) (fails : action.Fails actor.state heads failing.state cause) :
    actor.Concludes action heads (failing.recover ⟨action, heads, cause⟩).1
      (failing.recover ⟨action, heads, cause⟩).2 := by
  unfold recover
  rw [sameId, sameKind]
  cases hhandler : actor.kind.handler with
  | none => exact .failed failing.state _ (reraise_misses fails hhandler)
  | some handler =>
    dsimp only
    rcases hanswer : handler failing.state ⟨action, heads, cause⟩ with ⟨state, (_ | production) | e | payload⟩
    · exact .absorbed state (.absorbed failing.state state cause handler fails hhandler hanswer)
    · dsimp only
      by_cases hfull : production.length = action.condition.outputs.length
      · rw [Action.checkProduction_full hfull]
        exact .produced state production
          (.handler failing.state state cause production handler fails hhandler hanswer hfull)
      · rw [Action.checkProduction_short hfull]
        exact .failed state _ (.miscounted failing.state state cause handler production fails hhandler hanswer hfull)
    · exact .failed state _ (.refused failing.state state cause handler e fails hhandler hanswer)
    · exact .panicked state payload (.panicked failing.state state cause handler payload fails hhandler hanswer)

theorem Selects.declared (h : actor.Selects action heads) : action ∈ actor.kind.actions := by
  obtain ⟨before, after, hdeclared, -⟩ := h.first
  rw [hdeclared]
  exact List.mem_append_right before List.mem_cons_self

theorem Selects.accepted (h : actor.Selects action heads) : actor.kind.Accepts action :=
  actor.kind.valid.2.2.2 action h.declared

theorem Selects.chosen (h : actor.Selects action heads) :
    actor.chosen = some (action, Action.controlAmong heads) := by
  obtain ⟨before, after, hdeclared, hbefore⟩ := h.first
  obtain ⟨obstacles, -, hpassed⟩ := Action.passed_of_not_qualifies hbefore
  obtain ⟨heads', hheads, hready⟩ := h.qualifies.standing
  have hsame : heads' = heads :=
    Option.some.inj ((Condition.peek?_eq_some_iff.mpr hheads).symm.trans (Condition.peek?_eq_some_iff.mpr h.here))
  rw [hsame] at hready
  rw [Actor.chosen, hdeclared, Action.select_passed hpassed, Action.select, hready]

theorem run_concludes (selects : actor.Selects action heads) :
    actor.Concludes action heads (actor.run action (Action.controlAmong heads)).1.state
      (actor.run action (Action.controlAmong heads)).2 := by
  have htaken := selects.here.consume selects.accepted.1
  unfold run
  generalize action.condition.consume actor.ports = consumed at htaken ⊢
  obtain ⟨args, ports⟩ := consumed
  cases htaken
  rcases Action.control_or_data args with ⟨kind, hcontrol⟩ | ⟨hcontrol, hdata⟩
  · rw [hcontrol]
    exact recover_concludes rfl rfl (.control kind hcontrol)
  · rw [hcontrol]
    dsimp only
    rcases action.attempt_cases actor.state hdata with
      ⟨state, production, hyields, hattempt⟩ | ⟨state, e, hfails, hattempt⟩
    · rw [hattempt]
      exact .produced state production (.body state production hyields)
    · rw [hattempt]
      exact recover_concludes rfl rfl hfails

theorem Selects.port (selects : actor.Selects action heads) (fits : actor.Fits) {entry : String × Token}
    (h : entry ∈ action.condition.inputs.zip heads) :
    ∃ queue, actor.ports[entry.1]? = some ⟨.input, entry.2 :: queue⟩ ∧
      (action.condition.consume actor.ports).2[entry.1]? = some ⟨.input, queue⟩ := by
  obtain ⟨hdistinct, hinputs, -⟩ := selects.accepted
  have hmem := (List.of_mem_zip h).1
  have hhead := selects.here.head?_of_mem_zip h
  rw [← Ports.peek?_eq, Ports.peek?] at hhead
  cases hport : actor.ports[entry.1]? with
  | none =>
    rw [hport] at hhead
    cases hhead
  | some port =>
    rw [hport] at hhead
    obtain ⟨queue, hqueue⟩ := List.head?_eq_some_iff.mp hhead
    have hdirection := fits.input (hinputs _ hmem) hport
    obtain ⟨direction, tokens⟩ := port
    dsimp only at hqueue hdirection
    subst hqueue hdirection
    refine ⟨queue, rfl, ?_⟩
    rw [Condition.consume_getElem?, hport, List.count_eq_one_of_mem hdistinct hmem]
    rfl

theorem emit_production (actor : Actor σ) (outputs : List String) (production : Production) (addr : PortAddr) :
    (actor.emit outputs production).2.production[addr]? =
      if addr.actor = actor.id then Ports.told addr.port (outputs.zip production) else none := by
  -- The induction is on the tokens, for any map that the earlier ones have led to.
  suffices h : ∀ (tokens : List (String × Token)) (map : ProductionMap),
      (tokens.foldl (fun map token => map.add ⟨actor.id, token.1⟩ [token.2]) map)[addr]? =
        ProductionMap.joined map[addr]? (if addr.actor = actor.id then Ports.told addr.port tokens else none) by
    refine (h (outputs.zip production) ∅).trans ?_
    rw [Std.ExtTreeMap.getElem?_empty, ProductionMap.none_joined]
  obtain ⟨owner, port⟩ := addr
  intro tokens
  induction tokens with
  | nil => simp [Ports.told]
  | cons head tokens ih =>
    intro map
    rw [List.foldl_cons, ih, ProductionMap.add_getElem?, ProductionMap.joined_assoc]
    by_cases howner : owner = actor.id
    · simp [howner, Ports.told_cons]
    · simp [howner, Ne.symm howner]

theorem emit_told (actor : Actor σ) {outputs : List String} {production : Production}
    (full : production.length = outputs.length) (addr : PortAddr) :
    (actor.emit outputs production).2.production[addr]? =
      if addr.actor = actor.id ∧ addr.port ∈ outputs then
        some (Ports.tokensOn addr.port (outputs.zip production)) else none := by
  have hnames : (outputs.zip production).map Prod.fst = outputs := List.map_fst_zip (Nat.le_of_eq full.symm)
  rw [emit_production, Ports.told, hnames]
  by_cases howner : addr.actor = actor.id <;> simp [howner]

section Run

variable (fits : actor.Fits) (selects : actor.Selects action heads) {state : σ}

include fits selects

theorem Selects.output {name : String} (h : name ∈ action.condition.outputs) :
    ∃ queue, actor.ports[name]? = some ⟨.output, queue⟩ := by
  have hname := fits name
  rw [actor.kind.newPorts_output (selects.accepted.2.2 name h)] at hname
  obtain ⟨port, hport, hdirection⟩ := Option.map_eq_some_iff.mp hname
  obtain ⟨direction, queue⟩ := port
  cases hdirection
  exact ⟨queue, hport⟩

omit fits in
theorem Selects.output_untouched {name : String} (h : name ∈ actor.kind.outputs) :
    (action.condition.consume actor.ports).2[name]? = actor.ports[name]? :=
  Condition.consume_of_notMem (fun hinput => actor.kind.input_ne_output (selects.accepted.2.1 name hinput) h) _

theorem unfired_effect {outcome : Outcome FiringError FiringResult} {after : Actor σ}
    (h : after = { actor with ports := (action.condition.consume actor.ports).2, state }) (still : after.Fits)
    (misses : actor.Misses action heads state outcome) : actor.Effect action heads after outcome := by
  subst h
  refine ⟨⟨rfl, rfl⟩, still, Condition.Heads.length selects.here, fun _ h => selects.port fits h, ?_, ?_,
    misses.control_iff, ?_⟩
  · exact fun name _ hname => Condition.consume_of_notMem hname _
  · exact .unfired outcome misses fun name hname => selects.output_untouched hname
  · rintro e rfl
    exact misses.named

theorem fired_effect {production : Production} {ran : Actor σ}
    (h : ran = { actor with ports := (action.condition.consume actor.ports).2, state })
    (still : (ran.emit action.condition.outputs production).1.Fits)
    (produces : actor.Produces action heads state production) :
    actor.Effect action heads (ran.emit action.condition.outputs production).1
      (.ok (ran.emit action.condition.outputs production).2) := by
  subst h
  obtain ⟨-, hinputs, houtputs⟩ := selects.accepted
  let ran : Actor σ := { actor with ports := (action.condition.consume actor.ports).2, state }
  have hkept : ∀ name : String, name ∉ action.condition.outputs →
      (ran.emit action.condition.outputs production).1.ports[name]? = ran.ports[name]? := by
    intro name hname
    rw [emit_getElem?, Ports.tokensOn_zip_of_notMem hname]
    cases ran.ports[name]? <;> simp
  have hinward : ∀ name ∈ actor.kind.inputs, name ∉ action.condition.outputs :=
    fun name hinput houtput => actor.kind.input_ne_output hinput (houtputs name houtput)
  refine ⟨⟨rfl, rfl⟩, still, Condition.Heads.length selects.here, fun entry hentry => ?_,
    fun name hdeclared hname => ?_,
    .fired production _ produces ⟨produces.full, fun name hname => ?_, rfl, ?_, rfl⟩ fun name hdeclared hname => ?_,
    fun kind => ⟨nofun, fun ⟨hfirst, hunhandled⟩ => absurd hunhandled (produces.handled hfirst)⟩, nofun⟩
  · obtain ⟨queue, hbefore, hafter⟩ := selects.port fits hentry
    exact ⟨queue, hbefore, (hkept _ (hinward _ (hinputs _ (List.of_mem_zip hentry).1))).trans hafter⟩
  · exact (hkept name (hinward name hdeclared)).trans (Condition.consume_of_notMem hname _)
  · obtain ⟨queue, hqueue⟩ := selects.output fits hname
    refine ⟨queue, hqueue, ?_⟩
    rw [emit_getElem?, selects.output_untouched (houtputs name hname), hqueue]
    rfl
  · exact ran.emit_told produces.full
  · exact (hkept name hname).trans (selects.output_untouched hdeclared)

end Run

/-- A firing takes the heads of the selected action's inputs, and writes its outputs in full or not at all. -/
theorem fires_fully_or_not (fits : actor.Fits) (selects : actor.Selects action heads) :
    actor.Effect action heads actor.fire.value.1 actor.fire.value.2 := by
  obtain ⟨state, hstate⟩ := actor.run_frame action (Action.controlAmong heads)
  have hconcludes := run_concludes selects
  have hfits := fits.congr actor.fire_fired.outline
  rw [fire_value, selects.chosen] at hfits ⊢
  dsimp only at hfits ⊢
  generalize actor.run action (Action.controlAmong heads) = result at hstate hconcludes hfits ⊢
  obtain ⟨ran, outcome⟩ := result
  dsimp only at hstate
  have hran : ran.state = state := congrArg Actor.state hstate
  -- Only a production gets as far as the outputs; in the other cases the actor is left as the run has left it.
  cases hconcludes with
  | produced production produces => exact fired_effect fits selects hstate hfits (hran ▸ produces)
  | absorbed misses => exact unfired_effect fits selects hstate hfits (hran ▸ misses)
  | failed e misses => exact unfired_effect fits selects hstate hfits (hran ▸ misses)
  | panicked payload misses => exact unfired_effect fits selects hstate hfits (hran ▸ misses)

end Actor

def passing : Action Nat :=
  ⟨"pass", ⟨["b", "a"], ["out", "log", "out"]⟩, none, fun seen _ => (seen + 1, .panic .nonText)⟩

def junction : ActorType Nat where
  name := "junction"
  inputs := ["a", "b"]
  outputs := ["out", "log", "spare"]
  actions := [passing]
  handler := some fun seen failure => (seen, .ok (.fired (.exception "broken" :: failure.args)))
  hooks := .none
  valid := by
    refine ⟨nofun, by decide, List.nodup_singleton _, ?_⟩
    simp [Declaration.Accepts, passing]

def jammed : Actor Nat :=
  { Actor.new ⟨"j"⟩ junction 0 with
    ports := (junction.newPorts.push "a" [.data .null, .endOfStream]).push "b" [.data (.bool true)] }

theorem jammed_fits : jammed.Fits := by
  intro name
  change ((junction.newPorts.push _ _).push _ _)[name]?.map Port.direction = _
  rw [Ports.push_getElem?, Ports.push_getElem?, Option.map_map, Option.map_map]
  rfl

theorem Actor.fires_fully_jammed :
    jammed.Selects passing [.data (.bool true), .data .null] ∧
      jammed.Effect passing [.data (.bool true), .data .null] jammed.fire.value.1 jammed.fire.value.2 ∧
      jammed.fire.value.1.ports.queueOf "out" = [.exception "broken", .data .null] ∧
      jammed.fire.value.1.ports.queueOf "log" = [.data (.bool true)] := by
  have hheads : passing.condition.Heads jammed.ports [.data (.bool true), .data .null] := rfl
  have hselects : jammed.Selects passing [.data (.bool true), .data .null] :=
    ⟨⟨[], [], rfl, nofun⟩, ⟨_, hheads, .inr (.unguarded rfl)⟩, hheads⟩
  exact ⟨hselects, Actor.fires_fully_or_not jammed_fits hselects, rfl, rfl⟩

end ActorNet
