import ActorNet.Proofs.Wiring

set_option autoImplicit false

/-!
# Declarations and the ports they make

A declaration makes a type exactly when it is valid; otherwise it is refused for a fault that it has. The actors of a
type keep the declared ports whatever is done with them, so that no action ever looks for a port in vain: taking and
filling come to the same when they give up on a port that is missing or has the other direction.
-/
namespace ActorNet

variable {σ : Type}

theorem firstRepeat?_some {α : Type} [BEq α] [LawfulBEq α] {seen xs : List α} {x : α}
    (h : firstRepeat? seen xs = some x) : x ∈ xs ∧ (x ∈ seen ∨ 1 < xs.count x) := by
  induction xs generalizing seen with
  | nil => cases h
  | cons y xs ih =>
    rw [firstRepeat?] at h
    cases hy : seen.contains y with
    | true =>
      rw [hy] at h
      cases h
      exact ⟨List.mem_cons_self, .inl (List.contains_iff_mem.mp hy)⟩
    | false =>
      rw [hy] at h
      obtain ⟨hmem, hseen | hcount⟩ := ih h
      · refine ⟨List.mem_cons_of_mem y hmem, ?_⟩
        rcases List.mem_cons.mp hseen with rfl | hseen
        · have hpositive := List.count_pos_iff.mpr hmem
          rw [List.count_cons_self]
          exact .inr (Nat.succ_lt_succ hpositive)
        · exact .inl hseen
      · exact ⟨List.mem_cons_of_mem y hmem, .inr (Nat.lt_of_lt_of_le hcount List.count_le_count_cons)⟩

theorem firstRepeat?_repeats {α : Type} [BEq α] [LawfulBEq α] {xs : List α} {x : α}
    (h : firstRepeat? [] xs = some x) : 1 < xs.count x := (firstRepeat?_some h).2.resolve_left nofun

namespace Declaration

def direction? (d : Declaration σ) (name : String) : Option PortDirection :=
  if name ∈ d.inputs then some .input else if name ∈ d.outputs then some .output else none

inductive Has (d : Declaration σ) : TypeFault → Prop
  | noActions (h : d.actions = []) : Has d .noActions
  | portTwice (port : String) (h : 1 < (d.inputs ++ d.outputs).count port) : Has d (.portTwice port)
  | actionTwice (name : String) (h : 1 < (d.actions.map Action.name).count name) : Has d (.actionTwice name)
  | consumesTwice (action : Action σ) (port : String) (declared : action ∈ d.actions)
    (h : 1 < action.condition.inputs.count port) : Has d (.consumesTwice action.name port)
  | undeclaredInput (action : Action σ) (port : String) (declared : action ∈ d.actions)
    (consumed : port ∈ action.condition.inputs) (h : port ∉ d.inputs) : Has d (.undeclaredInput action.name port)
  | undeclaredOutput (action : Action σ) (port : String) (declared : action ∈ d.actions)
    (filled : port ∈ action.condition.outputs) (h : port ∉ d.outputs) : Has d (.undeclaredOutput action.name port)

theorem actionFault?_has {d : Declaration σ} {action : Action σ} (declared : action ∈ d.actions) {fault : TypeFault}
    (h : d.actionFault? action = some fault) : d.Has fault := by
  rcases Option.or_eq_some_iff.mp h with htwice | ⟨-, h⟩
  · obtain ⟨port, hport, rfl⟩ := Option.map_eq_some_iff.mp htwice
    exact .consumesTwice action port declared (firstRepeat?_repeats hport)
  rcases Option.or_eq_some_iff.mp h with hinput | ⟨-, houtput⟩
  · obtain ⟨port, hport, rfl⟩ := Option.map_eq_some_iff.mp hinput
    have hundeclared := List.find?_some hport
    exact .undeclaredInput action port declared (List.mem_of_find?_eq_some hport) (by simpa using hundeclared)
  · obtain ⟨port, hport, rfl⟩ := Option.map_eq_some_iff.mp houtput
    have hundeclared := List.find?_some hport
    exact .undeclaredOutput action port declared (List.mem_of_find?_eq_some hport) (by simpa using hundeclared)

theorem fault?_has {d : Declaration σ} {fault : TypeFault} (h : d.fault? = some fault) : d.Has fault := by
  rcases Option.or_eq_some_iff.mp h with hempty | ⟨-, h⟩
  · cases hactions : d.actions with
    | nil =>
      rw [hactions] at hempty
      cases hempty
      exact .noActions hactions
    | cons =>
      rw [hactions] at hempty
      cases hempty
  rcases Option.or_eq_some_iff.mp h with htwice | ⟨-, h⟩
  · obtain ⟨port, hport, rfl⟩ := Option.map_eq_some_iff.mp htwice
    exact .portTwice port (firstRepeat?_repeats hport)
  rcases Option.or_eq_some_iff.mp h with htwice | ⟨-, h⟩
  · obtain ⟨name, hname, rfl⟩ := Option.map_eq_some_iff.mp htwice
    exact .actionTwice name (firstRepeat?_repeats hname)
  · obtain ⟨action, hdeclared, hfault⟩ := List.exists_of_findSome?_eq_some h
    exact actionFault?_has hdeclared hfault

end Declaration

namespace ActorType

theorem build_ok (d : Declaration σ) (valid : d.Valid) : build d = .ok ⟨d, valid⟩ := by
  have hnone := d.fault?_eq_none_iff.mpr valid
  unfold build
  split
  case h_1 fault hfault =>
    rw [hnone] at hfault
    cases hfault
  case h_2 => rfl

theorem build_error {d : Declaration σ} (invalid : ¬d.Valid) :
    ∃ fault, d.Has fault ∧ build d = .error (.invalidType d.name fault.reason) := by
  cases hfault : d.fault? with
  | none => exact absurd (d.fault?_eq_none_iff.mp hfault) invalid
  | some fault =>
    refine ⟨fault, Declaration.fault?_has hfault, ?_⟩
    unfold build
    split
    case h_1 fault' hfault' =>
      rw [hfault] at hfault'
      cases hfault'
      rfl
    case h_2 hnone =>
      rw [hfault] at hnone
      cases hnone

theorem newPorts_direction (kind : ActorType σ) (name : String) :
    kind.newPorts[name]?.map Port.direction = kind.direction? name := by
  unfold Declaration.direction?
  by_cases hinput : name ∈ kind.inputs
  · rw [kind.newPorts_input hinput, if_pos hinput]
    rfl
  · by_cases houtput : name ∈ kind.outputs
    · rw [kind.newPorts_output houtput, if_neg hinput, if_pos houtput]
      rfl
    · have hnone : kind.newPorts[name]? = none := by
        refine Std.ExtTreeMap.getElem?_ofList_of_contains_eq_false ?_
        simp [hinput, houtput]
      rw [hnone, if_neg hinput, if_neg houtput]
      rfl

end ActorType

namespace Condition

def checkedPeek (condition : Condition) (ports : Ports) : Option (Option (List Token)) := do
  let inputs ← condition.inputs.mapM (ports.directed? · .input)
  return inputs.mapM (·.queue.head?)

def checkedTake : List String → Ports → Option (List Token × Ports)
  | [], ports => some ([], ports)
  | name :: names, ports => do
    let port ← ports.directed? name .input
    let (tokens, rest) ← checkedTake names (ports.pop name)
    return (port.queue.head?.toList ++ tokens, rest)

def checkedPut : List (String × Token) → Ports → Option Ports
  | [], ports => some ports
  | (name, token) :: tokens, ports => do
    let _ ← ports.directed? name .output
    checkedPut tokens (ports.push name [token])

end Condition

namespace Ports

variable {ports : Ports} {name : String} {direction : PortDirection}

theorem directed?_of_direction (h : ports[name]?.map Port.direction = some direction) :
    ∃ port, ports[name]? = some port ∧ ports.directed? name direction = some port := by
  obtain ⟨port, hport, hdirection⟩ := Option.map_eq_some_iff.mp h
  refine ⟨port, hport, ?_⟩
  rw [directed?, hport, Option.filter_some, decide_eq_true hdirection]
  rfl

theorem pop_direction (other : String) :
    (ports.pop other)[name]?.map Port.direction = ports[name]?.map Port.direction := by
  rw [pop_getElem?, Option.map_map]
  rfl

theorem push_direction (other : String) (tokens : List Token) :
    (ports.push other tokens)[name]?.map Port.direction = ports[name]?.map Port.direction := by
  rw [push_getElem?, Option.map_map]
  rfl

end Ports

namespace Condition

theorem mapM_directed? {names : List String} {ports : Ports}
    (inputs : ∀ name ∈ names, ports[name]?.map Port.direction = some .input) :
    ∃ found, names.mapM (ports.directed? · .input) = some found ∧
      found.mapM (·.queue.head?) = names.mapM ports.peek? := by
  induction names with
  | nil => exact ⟨[], rfl, rfl⟩
  | cons name names ih =>
    obtain ⟨port, hport, hdirected⟩ := Ports.directed?_of_direction (inputs name List.mem_cons_self)
    obtain ⟨found, hfound, hheads⟩ := ih fun other hother => inputs other (List.mem_cons_of_mem name hother)
    refine ⟨port :: found, ?_, ?_⟩
    · rw [List.mapM_cons, hdirected, hfound]
      rfl
    · rw [List.mapM_cons, List.mapM_cons, hheads, Ports.peek?, hport]
      rfl

theorem checkedPeek_eq {condition : Condition} {ports : Ports}
    (inputs : ∀ name ∈ condition.inputs, ports[name]?.map Port.direction = some .input) :
    condition.checkedPeek ports = some (condition.peek? ports) := by
  obtain ⟨found, hfound, hheads⟩ := mapM_directed? inputs
  rw [checkedPeek, hfound, peek?, ← hheads]
  rfl

theorem checkedTake_eq {names : List String} {ports : Ports}
    (inputs : ∀ name ∈ names, ports[name]?.map Port.direction = some .input) :
    checkedTake names ports = some (takeEach names ports) := by
  induction names generalizing ports with
  | nil => rfl
  | cons name names ih =>
    obtain ⟨port, hport, hdirected⟩ := Ports.directed?_of_direction (inputs name List.mem_cons_self)
    have hrest := @ih (ports.pop name) fun other hother => by
      rw [Ports.pop_direction]
      exact inputs other (List.mem_cons_of_mem name hother)
    rw [checkedTake, hdirected, hrest, takeEach, Ports.peek?, hport]
    rfl

theorem checkedPut_eq {tokens : List (String × Token)} {ports : Ports}
    (outputs : ∀ name ∈ tokens.map Prod.fst, ports[name]?.map Port.direction = some .output) :
    checkedPut tokens ports = some (tokens.foldl (fun ports (name, token) => ports.push name [token]) ports) := by
  induction tokens generalizing ports with
  | nil => rfl
  | cons head tokens ih =>
    obtain ⟨port, hport, hdirected⟩ := Ports.directed?_of_direction (outputs head.1 List.mem_cons_self)
    have hrest := @ih (ports.push head.1 [head.2]) fun other hother => by
      rw [Ports.push_direction]
      exact outputs other (List.mem_cons_of_mem head.1 hother)
    rw [checkedPut, hdirected, List.foldl_cons]
    exact hrest

end Condition

namespace Actor

inductive Use where
  | push (port : String) (token : Token)
  | drain (port : String)
  | fire

def use (actor : Actor σ) : Use → Actor σ
  | .push port token => (actor.pushInput port token).toOption.getD actor
  | .drain port => ((actor.drainOutput port).toOption.map Prod.snd).getD actor
  | .fire => actor.fire.value.1

def usedFor (actor : Actor σ) (uses : List Use) : Actor σ := uses.foldl use actor

theorem use_outline (actor : Actor σ) (use : Use) : (actor.use use).outline = actor.outline := by
  cases use with
  | push name token =>
    rw [Actor.use, pushInput]
    cases actor.port name .input with
    | error e => rfl
    | ok port => exact actor.outline_ports (fun other => Ports.push_direction name [token]) actor.state
  | drain name =>
    rw [Actor.use, drainOutput]
    cases actor.port name .output with
    | error e => rfl
    | ok port =>
      refine actor.outline_ports (fun other => ?_) actor.state
      rw [Ports.setQueue_getElem?, Option.map_map]
      rfl
  | fire => exact actor.fire_fired.outline

theorem usedFor_outline (actor : Actor σ) (uses : List Use) : (actor.usedFor uses).outline = actor.outline := by
  induction uses generalizing actor with
  | nil => rfl
  | cons use uses ih => exact (ih (actor.use use)).trans (actor.use_outline use)

/-- The ports are the declared ones. Those of an action are among them, and each lookup that is made for it finds its
port: of the inputs when they are peeked at, of each input as its token is taken, and of each output as it is filled. -/
structure Equipped (actor : Actor σ) : Prop where
  ports : ∀ name : String, actor.ports[name]?.map Port.direction = actor.kind.direction? name
  inputs : ∀ action ∈ actor.kind.actions, ∀ name ∈ action.condition.inputs,
    ∃ queue, actor.ports[name]? = some ⟨.input, queue⟩
  outputs : ∀ action ∈ actor.kind.actions, ∀ name ∈ action.condition.outputs,
    ∃ queue, actor.ports[name]? = some ⟨.output, queue⟩
  peek : ∀ action ∈ actor.kind.actions,
    action.condition.checkedPeek actor.ports = some (action.condition.peek? actor.ports)
  take : ∀ action ∈ actor.kind.actions,
    Condition.checkedTake action.condition.inputs actor.ports = some (action.condition.consume actor.ports)
  put : ∀ action ∈ actor.kind.actions, ∀ (state : σ) (production : Production),
    Condition.checkedPut (action.condition.outputs.zip production) (action.condition.consume actor.ports).2 =
      some (emit { actor with ports := (action.condition.consume actor.ports).2, state }
        action.condition.outputs production).1.ports

theorem Fits.equipped {actor : Actor σ} (fits : actor.Fits) : actor.Equipped := by
  have hinput : ∀ action ∈ actor.kind.actions, ∀ name ∈ action.condition.inputs,
      actor.ports[name]?.map Port.direction = some .input := by
    intro action haction name hname
    rw [fits name, actor.kind.newPorts_input ((actor.kind.valid.2.2.2 action haction).2.1 name hname)]
    rfl
  have houtput : ∀ action ∈ actor.kind.actions, ∀ name ∈ action.condition.outputs,
      actor.ports[name]?.map Port.direction = some .output := by
    intro action haction name hname
    rw [fits name, actor.kind.newPorts_output ((actor.kind.valid.2.2.2 action haction).2.2 name hname)]
    rfl
  refine ⟨fun name => (fits name).trans (actor.kind.newPorts_direction name), ?_, ?_, ?_, ?_, ?_⟩
  · intro action haction name hname
    obtain ⟨⟨_, queue⟩, hport, rfl⟩ := Option.map_eq_some_iff.mp (hinput action haction name hname)
    exact ⟨queue, hport⟩
  · intro action haction name hname
    obtain ⟨⟨_, queue⟩, hport, rfl⟩ := Option.map_eq_some_iff.mp (houtput action haction name hname)
    exact ⟨queue, hport⟩
  · exact fun action haction => Condition.checkedPeek_eq (hinput action haction)
  · exact fun action haction => Condition.checkedTake_eq (hinput action haction)
  · intro action haction state production
    refine Condition.checkedPut_eq fun name hname => ?_
    obtain ⟨entry, hentry, rfl⟩ := List.mem_map.mp hname
    rw [Condition.consume_getElem?, Option.map_map]
    exact houtput action haction entry.1 (List.of_mem_zip hentry).1

end Actor

/-- The type is made of the declaration as it stands, and its actors stay equipped, by themselves and in a registry. -/
structure ActorType.Made (d : Declaration σ) (kind : ActorType σ) : Prop where
  same : kind.toDeclaration = d
  used : ∀ id state uses, ((Actor.new id kind state).usedFor uses).kind = kind ∧
    ((Actor.new id kind state).usedFor uses).Equipped
  registered : ∀ operations id actor, (Registry.empty.after operations).actor? id = some actor → actor.kind = kind →
    actor.Equipped

theorem ActorType.made_of_build {d : Declaration σ} {kind : ActorType σ} (h : build d = .ok kind) : Made d kind where
  same := by
    by_cases hvalid : d.Valid
    · rw [build_ok d hvalid] at h
      rw [← Except.ok.inj h]
    · obtain ⟨fault, -, hrefused⟩ := build_error hvalid
      rw [hrefused] at h
      cases h
  used id state uses := by
    have houtline := (Actor.new id kind state).usedFor_outline uses
    exact ⟨congrArg Prod.fst houtline, ((Actor.fits_new id kind state).congr houtline).equipped⟩
  registered operations id actor hactor _ := ((Registry.wired_empty.after operations).fits id actor hactor).equipped

/-- A declaration makes a type exactly when it is valid, and is refused for a fault that it has otherwise. -/
theorem ActorType.build_exact (d : Declaration σ) :
    ((∃ kind, build d = .ok kind) ↔ d.Valid) ∧
      (∀ e, build d = .error e → ∃ fault, d.Has fault ∧ e = .invalidType d.name fault.reason) ∧
        ∀ kind, build d = .ok kind → Made d kind := by
  refine ⟨⟨?_, fun hvalid => ⟨_, build_ok d hvalid⟩⟩, fun e he => ?_, fun kind => made_of_build⟩
  · rintro ⟨kind, hkind⟩
    rw [← (made_of_build hkind).same]
    exact kind.valid
  · by_cases hvalid : d.Valid
    · rw [build_ok d hvalid] at he
      cases he
    · obtain ⟨fault, hfault, hrefused⟩ := build_error hvalid
      rw [hrefused] at he
      exact ⟨fault, hfault, (Except.error.inj he).symm⟩

end ActorNet
