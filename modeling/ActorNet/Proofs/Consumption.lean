import ActorNet.Proofs.Selection

set_option autoImplicit false

/-!
# What is seen at the inputs is what is taken

The inputs of a condition are looked at three times: tokens are counted, then seen at the heads, then taken. The
three agree as long as no input is named twice: the tokens that were seen are the ones taken, in declared order, and
each input keeps what stood behind its head.
-/
namespace ActorNet.Condition

variable {condition : Condition} {ports : Ports} {heads : List Token}

theorem isSatisfied_iff :
    condition.isSatisfied ports = true ↔ ∀ name ∈ condition.inputs, ports.queueOf name ≠ [] := by
  have hpending : ∀ name, ports.pending name = (ports.queueOf name).length := by
    intro name
    unfold Ports.pending Ports.queueOf
    cases ports[name]? <;> rfl
  simp [isSatisfied, hpending, List.length_pos_iff]

theorem peek?_isSome_iff :
    (condition.peek? ports).isSome = true ↔ ∀ name ∈ condition.inputs, ports.queueOf name ≠ [] := by
  constructor
  · intro h name hname hempty
    obtain ⟨heads, hheads⟩ := Option.isSome_iff_exists.mp h
    have hhead := peek?_isSome hheads name hname
    rw [Ports.peek?_eq, hempty] at hhead
    cases hhead
  · intro h
    by_contra hnone
    obtain ⟨name, hname, hempty⟩ := exists_empty_of_peek? (Option.not_isSome_iff_eq_none.mp hnone)
    exact h name hname hempty

/-- A port had the token at its head, and is left with what stood behind it. -/
def Loses (ports rest : Ports) (name : String) (head : Token) : Prop :=
  ∃ direction tail, ports[name]? = some ⟨direction, head :: tail⟩ ∧ rest[name]? = some ⟨direction, tail⟩

/-- The inputs lose these tokens, in declared order, and no other port changes. -/
structure Gives (condition : Condition) (ports : Ports) (heads : List Token) (rest : Ports) : Prop where
  inputs : List.Forall₂ (Loses ports rest) condition.inputs heads
  others : ∀ name, name ∉ condition.inputs → rest[name]? = ports[name]?

theorem Loses.consume (distinct : condition.inputs.Nodup) {name : String} (declared : name ∈ condition.inputs)
    {head : Token} (seen : ports.peek? name = some head) : Loses ports (condition.consume ports).2 name head := by
  obtain ⟨port, hport, hhead⟩ := Option.bind_eq_some_iff.mp seen
  obtain ⟨tail, hqueue⟩ := List.head?_eq_some_iff.mp hhead
  obtain ⟨direction, queue⟩ := port
  obtain rfl : queue = head :: tail := hqueue
  refine ⟨direction, tail, hport, ?_⟩
  rw [consume_getElem?, hport, distinct.count, if_pos declared]
  rfl

theorem Heads.gives (h : condition.Heads ports heads) (distinct : condition.inputs.Nodup) :
    condition.Gives ports heads (condition.consume ports).2 where
  inputs := by
    have hseen : List.Forall₂ (fun name head => ports.peek? name = some head) condition.inputs heads := by
      have hsame : heads.map some = condition.inputs.map ports.peek? :=
        h.trans (List.map_congr_left fun name _ => (ports.peek?_eq name).symm)
      rw [← List.forall₂_map_right_iff (f := some), hsame, List.forall₂_map_right_iff]
      exact List.forall₂_same.mpr fun name _ => rfl
    refine List.forall₂_iff_get.mpr ⟨hseen.length_eq, fun i hname hhead => ?_⟩
    exact .consume distinct (List.getElem_mem hname) ((List.forall₂_iff_get.mp hseen).2 i hname hhead)
  others name hname := by
    rw [consume_getElem?, List.count_eq_zero.mpr hname]
    simp

/-- A condition is satisfied exactly when tokens are seen at its inputs, and what is seen is what is taken. -/
theorem takes_what_is_seen (condition : Condition) (ports : Ports) :
    (condition.isSatisfied ports = true ↔ ∃ heads, condition.peek? ports = some heads) ∧
      (condition.inputs.Nodup → ∀ heads, condition.peek? ports = some heads →
        (condition.consume ports).1 = heads ∧ condition.Gives ports heads (condition.consume ports).2) := by
  constructor
  · rw [isSatisfied_iff, ← peek?_isSome_iff, Option.isSome_iff_exists]
  · intro hdistinct heads hpeek
    have hheads := peek?_eq_some_iff.mp hpeek
    exact ⟨hheads.consume hdistinct, hheads.gives hdistinct⟩

def waiting : Ports :=
  (((Ports.ofNames ["a", "b", "spare"] ["out"]).push "a" [.data (.bool true)]).push "b" [.endOfStream, .data .null]).push
    "spare" [.data .null]

theorem takes_what_is_seen_waiting :
    ["b", "a"].Nodup ∧ peek? ⟨["b", "a"], ["out"]⟩ waiting = some [.endOfStream, .data (.bool true)] ∧
      (consume ⟨["b", "a"], ["out"]⟩ waiting).1 = [.endOfStream, .data (.bool true)] ∧
        Gives ⟨["b", "a"], ["out"]⟩ waiting [.endOfStream, .data (.bool true)]
          (consume ⟨["b", "a"], ["out"]⟩ waiting).2 := by
  have hdistinct : ["b", "a"].Nodup := by decide
  have hpeek : peek? ⟨["b", "a"], ["out"]⟩ waiting = some [.endOfStream, .data (.bool true)] := rfl
  exact ⟨hdistinct, hpeek, (takes_what_is_seen ⟨["b", "a"], ["out"]⟩ waiting).2 hdistinct _ hpeek⟩

/-- Of an input that is named twice the head is seen twice, but two tokens are taken. -/
example : peek? ⟨["b", "b"], []⟩ waiting = some [.endOfStream, .endOfStream] ∧
    (consume ⟨["b", "b"], []⟩ waiting).1 = [.endOfStream, .data .null] := ⟨rfl, rfl⟩

end ActorNet.Condition
