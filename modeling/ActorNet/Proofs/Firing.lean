import ActorNet.Actor

set_option autoImplicit false

/-!
# What a firing does to the ports of an actor

A firing takes tokens from the front of inputs and appends tokens to outputs. What it takes is what the
action is given, and what it appends is what its result tells.
-/
namespace ActorNet

namespace Ports

def tokensOn (name : String) (tokens : List (String × Token)) : List Token :=
  (tokens.filter (·.1 = name)).map Prod.snd

theorem tokensOn_cons (name : String) (head : String × Token) (tokens : List (String × Token)) :
    tokensOn name (head :: tokens) = (if head.1 = name then [head.2] else []) ++ tokensOn name tokens := by
  by_cases h : head.1 = name <;> simp [tokensOn, h]

theorem tokensOn_zip_of_notMem {name : String} {names : List String} (h : name ∉ names) (tokens : List Token) :
    tokensOn name (names.zip tokens) = [] := by
  have hother : ∀ entry ∈ names.zip tokens, ¬entry.1 = name :=
    fun entry hentry hsame => h (hsame ▸ (List.of_mem_zip hentry).1)
  unfold tokensOn
  rw [List.filter_eq_nil_iff.mpr (by simpa using hother)]
  rfl

theorem modify_getElem? (ports : Ports) (name other : String) (f : Port → Port) :
    (ports.modify name f : Ports)[other]? = if name = other then ports[other]?.map f else ports[other]? := by
  rw [Std.ExtTreeMap.getElem?_modify]
  by_cases h : name = other
  · subst h
    simp
  · simp [h]

theorem push_getElem? (ports : Ports) (name other : String) (tokens : List Token) :
    (ports.push name tokens)[other]? =
      ports[other]?.map fun port => { port with queue := port.queue ++ if name = other then tokens else [] } := by
  unfold push
  rw [modify_getElem?]
  by_cases h : name = other <;> simp [h]

theorem setQueue_getElem? (ports : Ports) (name other : String) (queue : List Token) :
    (ports.setQueue name queue)[other]? =
      ports[other]?.map fun port => { port with queue := if name = other then queue else port.queue } := by
  unfold setQueue
  rw [modify_getElem?]
  by_cases h : name = other <;> simp [h]

theorem foldl_setQueue_getElem? (emptied : List (String × List Token)) (ports : Ports) (other : String) :
    (emptied.foldl (fun ports (name, _) => ports.setQueue name []) ports)[other]? =
      ports[other]?.map fun port =>
        { port with queue := if other ∈ emptied.map Prod.fst then [] else port.queue } := by
  induction emptied generalizing ports with
  | nil => simp
  | cons head emptied ih =>
    rw [List.foldl_cons, ih, setQueue_getElem?, Option.map_map]
    congr 1
    funext port
    by_cases h : head.1 = other
    · simp [h]
    · have hrest : other ∈ (head :: emptied).map Prod.fst ↔ other ∈ emptied.map Prod.fst := by
        rw [List.map_cons, List.mem_cons]
        exact or_iff_right (Ne.symm h)
      simp only [hrest, h, Function.comp_apply, if_false]

theorem pop_getElem? (ports : Ports) (name other : String) :
    (ports.pop name)[other]? =
      ports[other]?.map fun port => { port with queue := port.queue.drop (if name = other then 1 else 0) } := by
  unfold pop
  rw [modify_getElem?]
  by_cases h : name = other <;> simp [h]

def queueOf (ports : Ports) (name : String) : List Token := (ports[name]?.map Port.queue).getD []

theorem peek?_eq (ports : Ports) (name : String) : ports.peek? name = (ports.queueOf name).head? := by
  unfold peek? queueOf
  cases ports[name]? <;> rfl

theorem queueOf_pop (ports : Ports) (name other : String) :
    (ports.pop name).queueOf other = (ports.queueOf other).drop (if name = other then 1 else 0) := by
  unfold queueOf
  rw [pop_getElem?]
  cases ports[other]? <;> simp

theorem foldl_push_getElem? (tokens : List (String × Token)) (ports : Ports) (other : String) :
    (tokens.foldl (fun ports (name, token) => ports.push name [token]) ports)[other]? =
      ports[other]?.map fun port => { port with queue := port.queue ++ tokensOn other tokens } := by
  induction tokens generalizing ports with
  | nil => simp [tokensOn]
  | cons head tokens ih =>
    rw [List.foldl_cons, ih, push_getElem?, Option.map_map, tokensOn_cons]
    congr 1
    funext port
    simp

end Ports

namespace Condition

theorem takeEach_getElem? (names : List String) (ports : Ports) (other : String) :
    (takeEach names ports).2[other]? =
      ports[other]?.map fun port => { port with queue := port.queue.drop (names.count other) } := by
  induction names generalizing ports with
  | nil => simp [takeEach]
  | cons name names ih =>
    change (takeEach names (ports.pop name)).2[other]? = _
    rw [ih, Ports.pop_getElem?, Option.map_map]
    congr 1
    funext port
    by_cases h : name = other <;> simp [h]

theorem takeEach_fst {names : List String} {ports : Ports} (distinct : names.Nodup)
    (ready : ∀ name ∈ names, (ports.peek? name).isSome = true) (other : String) :
    Ports.tokensOn other (names.zip (takeEach names ports).1) =
      (ports.queueOf other).take (names.count other) := by
  induction names generalizing ports with
  | nil => simp [takeEach, Ports.tokensOn]
  | cons name names ih =>
    obtain ⟨hfresh, hdistinct⟩ := List.nodup_cons.mp distinct
    obtain ⟨token, htoken⟩ := Option.isSome_iff_exists.mp (ready name List.mem_cons_self)
    have hready : ∀ rest ∈ names, ((ports.pop name).peek? rest).isSome = true := by
      intro rest hrest
      have hother : name ≠ rest := fun hsame => hfresh (hsame ▸ hrest)
      have hpeek := ready rest (List.mem_cons_of_mem _ hrest)
      rw [Ports.peek?_eq] at hpeek
      rwa [Ports.peek?_eq, Ports.queueOf_pop, if_neg hother]
    have htaken : (takeEach (name :: names) ports).1 = token :: (takeEach names (ports.pop name)).1 := by
      rw [takeEach, htoken]
      rfl
    rw [htaken, List.zip_cons_cons, Ports.tokensOn_cons, ih hdistinct hready, Ports.queueOf_pop]
    rw [Ports.peek?_eq] at htoken
    by_cases hother : name = other
    · subst hother
      obtain ⟨queue, hqueue⟩ := List.head?_eq_some_iff.mp htoken
      simp [hqueue]
    · simp [hother]

def takenFrom (condition : Condition) (ports : Ports) (name : String) : List Token :=
  Ports.tokensOn name (condition.inputs.zip (condition.consume ports).1)

theorem consume_getElem? (condition : Condition) (ports : Ports) (name : String) :
    (condition.consume ports).2[name]? =
      ports[name]?.map fun port => { port with queue := port.queue.drop (condition.inputs.count name) } :=
  takeEach_getElem? condition.inputs ports name

theorem takenFrom_append {condition : Condition} {ports : Ports} (distinct : condition.inputs.Nodup)
    (ready : ∀ name ∈ condition.inputs, (ports.peek? name).isSome = true) {name : String} {port : Port}
    (hport : ports[name]? = some port) :
    condition.takenFrom ports name ++ port.queue.drop (condition.inputs.count name) = port.queue := by
  unfold takenFrom consume
  rw [takeEach_fst distinct ready, Ports.queueOf, hport]
  exact List.take_append_drop _ _

theorem peek?_isSome {condition : Condition} {ports : Ports} {heads : List Token}
    (h : condition.peek? ports = some heads) : ∀ name ∈ condition.inputs, (ports.peek? name).isSome = true := by
  unfold peek? at h
  generalize condition.inputs = names at h
  induction names generalizing heads with
  | nil => simp
  | cons name names ih =>
    rw [List.mapM_cons] at h
    cases hname : ports.peek? name with
    | none =>
      rw [hname] at h
      cases h
    | some head =>
      cases hnames : names.mapM ports.peek? with
      | none =>
        rw [hname, hnames] at h
        cases h
      | some rest =>
        rintro other hother
        rcases List.mem_cons.mp hother with rfl | hrest
        · rw [hname]
          rfl
        · exact ih hnames other hrest

end Condition

namespace Action

variable {σ : Type}

theorem select_mem {ports : Ports} {state : σ} {actions : List (Action σ)} {action : Action σ}
    {control : Option TokenKind} (h : (select ports state actions).2 = some (action, control)) :
    action ∈ actions ∧ action.standing ports state = .ready control := by
  induction actions with
  | nil => cases h
  | cons head actions ih =>
    rw [select] at h
    cases hstanding : head.standing ports state with
    | passed obstacle =>
      rw [hstanding] at h
      obtain ⟨hmem, hready⟩ := ih h
      exact ⟨List.mem_cons_of_mem _ hmem, hready⟩
    | ready control' =>
      rw [hstanding] at h
      cases h
      exact ⟨List.mem_cons_self, hstanding⟩

theorem standing_ready {action : Action σ} {ports : Ports} {state : σ} {control : Option TokenKind}
    (h : action.standing ports state = .ready control) : ∃ heads, action.condition.peek? ports = some heads := by
  unfold standing at h
  cases hpeek : action.condition.peek? ports with
  | none =>
    rw [hpeek] at h
    cases h
  | some heads => exact ⟨heads, rfl⟩

end Action

namespace ActorType

variable {σ : Type}

theorem newPorts_getElem? (kind : ActorType σ) {name : String} {port : Port}
    (h : (name, port) ∈ kind.inputs.map (·, (⟨.input, []⟩ : Port)) ++ kind.outputs.map (·, ⟨.output, []⟩)) :
    kind.newPorts[name]? = some port := by
  refine Std.ExtTreeMap.getElem?_ofList_of_mem Std.ReflOrd.compare_self ?_ h
  have hnames := kind.valid.2.1
  have hkeys : (kind.inputs.map (·, (⟨.input, []⟩ : Port)) ++
      kind.outputs.map (·, (⟨.output, []⟩ : Port))).map Prod.fst = kind.inputs ++ kind.outputs := by
    simp [Function.comp_def]
  rw [← hkeys, List.nodup_iff_pairwise_ne, List.pairwise_map] at hnames
  exact hnames.imp fun hne heq => hne (Std.LawfulEqOrd.compare_eq_iff_eq.mp heq)

theorem newPorts_input (kind : ActorType σ) {name : String} (h : name ∈ kind.inputs) :
    kind.newPorts[name]? = some ⟨.input, []⟩ :=
  kind.newPorts_getElem? (List.mem_append_left _ (List.mem_map_of_mem h))

theorem newPorts_output (kind : ActorType σ) {name : String} (h : name ∈ kind.outputs) :
    kind.newPorts[name]? = some ⟨.output, []⟩ :=
  kind.newPorts_getElem? (List.mem_append_right _ (List.mem_map_of_mem h))

end ActorType

namespace Actor

variable {σ : Type}

def chosen (actor : Actor σ) : Option (Action σ × Option TokenKind) :=
  (Action.select actor.ports actor.state actor.kind.actions).2

/-- What a firing takes from a port: tokens that the selected action is given. -/
def taken (actor : Actor σ) (name : String) : List Token :=
  match actor.chosen with
  | none => []
  | some (action, _) => action.condition.takenFrom actor.ports name

inductive Fired (actor : Actor σ) : Actor σ → Outcome FiringError FiringResult → Prop
  | idle (h : actor.chosen = none) : Fired actor actor (.ok .idle)
  | produced (action : Action σ) (control : Option TokenKind) (production : Production) (state : σ)
    (h : actor.chosen = some (action, control)) :
    Fired actor
      (emit { actor with ports := (action.condition.consume actor.ports).2, state }
        action.condition.outputs production).1
      (.ok (emit { actor with ports := (action.condition.consume actor.ports).2, state }
        action.condition.outputs production).2)
  | absorbed (action : Action σ) (control : Option TokenKind) (state : σ)
    (h : actor.chosen = some (action, control)) :
    Fired actor { actor with ports := (action.condition.consume actor.ports).2, state } (.ok .idle)
  | failed (action : Action σ) (control : Option TokenKind) (state : σ) (e : FiringError)
    (h : actor.chosen = some (action, control)) :
    Fired actor { actor with ports := (action.condition.consume actor.ports).2, state } (.error e)
  | panicked (action : Action σ) (control : Option TokenKind) (state : σ) (payload : Panic)
    (h : actor.chosen = some (action, control)) :
    Fired actor { actor with ports := (action.condition.consume actor.ports).2, state } (.panic payload)

/-- The actor has the ports that its type declares, each in its direction. -/
def Fits (actor : Actor σ) : Prop :=
  ∀ name : String, actor.ports[name]?.map Port.direction = actor.kind.newPorts[name]?.map Port.direction

theorem fits_new (id : ActorId) (kind : ActorType σ) (state : σ) : (Actor.new id kind state).Fits :=
  fun _ => rfl

theorem run_frame (actor : Actor σ) (action : Action σ) (control : Option TokenKind) :
    ∃ state, (actor.run action control).1 =
      { actor with ports := (action.condition.consume actor.ports).2, state } := by
  unfold run
  rcases action.condition.consume actor.ports with ⟨args, ports⟩
  cases control with
  | some kind => exact ⟨_, rfl⟩
  | none =>
    dsimp only
    rcases action.attempt actor.state args with ⟨state, answer⟩
    cases answer <;> exact ⟨_, rfl⟩

theorem fire_fired (actor : Actor σ) : Fired actor actor.fire.value.1 actor.fire.value.2 := by
  unfold fire
  rcases hselect : Action.select actor.ports actor.state actor.kind.actions with ⟨passed, chosen⟩
  have hchosen : actor.chosen = chosen := by
    rw [Actor.chosen, hselect]
  rw [Logged.value_bind]
  rcases chosen with _ | ⟨action, control⟩
  · exact .idle hchosen
  · obtain ⟨state, hrun⟩ := actor.run_frame action control
    dsimp only
    rcases hresult : actor.run action control with ⟨actor', outcome⟩
    rw [hresult] at hrun
    subst hrun
    rcases outcome with (_ | production) | e | payload
    · exact .absorbed action control state hchosen
    · exact .produced action control production state hchosen
    · exact .failed action control state e hchosen
    · exact .panicked action control state payload hchosen

theorem emit_getElem? (actor : Actor σ) (outputs : List String) (production : Production) (name : String) :
    (actor.emit outputs production).1.ports[name]? =
      actor.ports[name]?.map fun port =>
        { port with queue := port.queue ++ Ports.tokensOn name (outputs.zip production) } :=
  Ports.foldl_push_getElem? _ _ _

theorem emit_producedOn (actor : Actor σ) (outputs : List String) (production : Production) (name : String) :
    (actor.emit outputs production).2.producedOn ⟨actor.id, name⟩ =
      Ports.tokensOn name (outputs.zip production) := by
  suffices h : ∀ (tokens : List (String × Token)) (map : ProductionMap),
      ((tokens.foldl (fun (map : ProductionMap) (name, token) => map.add ⟨actor.id, name⟩ [token])
        map)[(⟨actor.id, name⟩ : PortAddr)]?).getD [] =
        (map[(⟨actor.id, name⟩ : PortAddr)]?).getD [] ++ Ports.tokensOn name tokens by
    exact (h (outputs.zip production) ∅).trans (by simp)
  intro tokens
  induction tokens with
  | nil => simp [Ports.tokensOn]
  | cons head tokens ih =>
    rcases head with ⟨other, token⟩
    intro map
    rw [List.foldl_cons, ih, Ports.tokensOn_cons]
    unfold ProductionMap.add
    rw [Std.ExtTreeMap.getElem?_alter]
    by_cases hname : other = name <;> simp [hname]

def producedBy (outcome : Outcome FiringError FiringResult) (addr : PortAddr) : List Token :=
  match outcome with
  | .ok result => result.producedOn addr
  | .error _ | .panic _ => []

variable {actor actor' : Actor σ} {outcome : Outcome FiringError FiringResult}

theorem chosen_accepted {action : Action σ} {control : Option TokenKind}
    (h : actor.chosen = some (action, control)) : actor.kind.Accepts action :=
  actor.kind.valid.2.2.2 action (Action.select_mem h).1

theorem Fits.input (fits : actor.Fits) {name : String} (h : name ∈ actor.kind.inputs) {port : Port}
    (hport : actor.ports[name]? = some port) : port.direction = .input := by
  have hname := fits name
  rw [hport, actor.kind.newPorts_input h] at hname
  exact Option.some.inj hname

theorem Fits.output (fits : actor.Fits) {name : String} (h : name ∈ actor.kind.outputs) {port : Port}
    (hport : actor.ports[name]? = some port) : port.direction = .output := by
  have hname := fits name
  rw [hport, actor.kind.newPorts_output h] at hname
  exact Option.some.inj hname

theorem consumed (fits : actor.Fits) {action : Action σ} {control : Option TokenKind}
    (h : actor.chosen = some (action, control)) {name : String} {port : Port}
    (hport : actor.ports[name]? = some port) :
    (port.direction = .output → port.queue.drop (action.condition.inputs.count name) = port.queue) ∧
      (port.direction = .input →
        actor.taken name ++ port.queue.drop (action.condition.inputs.count name) = port.queue) := by
  obtain ⟨hdistinct, hinputs, -⟩ := chosen_accepted h
  constructor
  · intro houtput
    have hnot : name ∉ action.condition.inputs := by
      intro hmem
      rw [fits.input (hinputs name hmem) hport] at houtput
      cases houtput
    rw [List.count_eq_zero_of_not_mem hnot]
    rfl
  · intro _
    obtain ⟨heads, hheads⟩ := Action.standing_ready (Action.select_mem h).2
    have htaken : actor.taken name = action.condition.takenFrom actor.ports name := by
      rw [taken, h]
    rw [htaken]
    exact Condition.takenFrom_append hdistinct (Condition.peek?_isSome hheads) hport

theorem Fired.port (h : actor.Fired actor' outcome) (fits : actor.Fits) {name : String} {port : Port}
    (hport : actor.ports[name]? = some port) :
    ∃ queue, actor'.ports[name]? = some { port with queue } ∧
      (port.direction = .output → queue = port.queue ++ producedBy outcome ⟨actor.id, name⟩) ∧
      (port.direction = .input → actor.taken name ++ queue = port.queue) := by
  have hrest : ∀ action : Action σ, (action.condition.consume actor.ports).2[name]? =
      some { port with queue := port.queue.drop (action.condition.inputs.count name) } := by
    intro action
    rw [Condition.consume_getElem?, hport]
    rfl
  cases h with
  | idle hchosen =>
    refine ⟨port.queue, hport, fun _ => ?_, fun _ => ?_⟩
    · simp [producedBy, FiringResult.idle, FiringResult.producedOn]
    · rw [taken, hchosen]
      rfl
  | absorbed action control state hchosen =>
    obtain ⟨houtput, hinput⟩ := consumed fits hchosen hport
    refine ⟨_, hrest action, fun hdirection => ?_, hinput⟩
    simp [houtput hdirection, producedBy, FiringResult.idle, FiringResult.producedOn]
  | failed action control state e hchosen =>
    obtain ⟨houtput, hinput⟩ := consumed fits hchosen hport
    refine ⟨_, hrest action, fun hdirection => ?_, hinput⟩
    simp [houtput hdirection, producedBy]
  | panicked action control state payload hchosen =>
    obtain ⟨houtput, hinput⟩ := consumed fits hchosen hport
    refine ⟨_, hrest action, fun hdirection => ?_, hinput⟩
    simp [houtput hdirection, producedBy]
  | produced action control production state hchosen =>
    obtain ⟨houtput, hinput⟩ := consumed fits hchosen hport
    obtain ⟨-, -, houtputs⟩ := chosen_accepted hchosen
    let consumed : Actor σ := { actor with ports := (action.condition.consume actor.ports).2, state }
    have hproduced := consumed.emit_producedOn action.condition.outputs production name
    have hports := consumed.emit_getElem? action.condition.outputs production name
    rw [hrest action] at hports
    refine ⟨_, hports, fun hdirection => ?_, fun hdirection => ?_⟩
    · rw [houtput hdirection, ← hproduced]
      rfl
    · have hnot : name ∉ action.condition.outputs := by
        intro hmem
        rw [fits.output (houtputs name hmem) hport] at hdirection
        cases hdirection
      rw [Ports.tokensOn_zip_of_notMem hnot, List.append_nil]
      exact hinput hdirection

end Actor

end ActorNet
