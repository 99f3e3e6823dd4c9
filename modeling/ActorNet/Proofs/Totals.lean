import ActorNet.Proofs.Merging
import Mathlib.Data.List.FinRange
import Mathlib.Logic.Equiv.Defs

set_option autoImplicit false

/-!
# Totals in any grouping and order

However results are grouped for merging, and wherever idle results stand between them, their total is that of the
list. At an address the total has the tokens of the results that write it, in order, so that only those results have to
keep their order.
-/
namespace ActorNet

/-- A way in which merges are put together. -/
inductive Bracketing where
  | idle
  | one (result : FiringResult)
  | merge (first second : Bracketing)

namespace Bracketing

def results : Bracketing → List FiringResult
  | idle => []
  | one result => [result]
  | merge first second => first.results ++ second.results

def total : Bracketing → FiringResult
  | idle => .idle
  | one result => result
  | merge first second => first.total.merge second.total

end Bracketing

namespace FiringResult

/-- The results that write an address; one that has it with no tokens does. -/
def writers (addr : PortAddr) (results : List FiringResult) : List FiringResult :=
  results.filter (·.production.contains addr)

/-- Each result has its place in the other list, and those that share an address stand there in the same order. -/
structure Rearrangement (results others : List FiringResult) where
  place : Fin results.length ≃ Fin others.length
  same : ∀ i, others.get (place i) = results.get i
  kept : ∀ i j, i < j → ¬(results.get i).Apart (results.get j) → place i < place j

/-- The total of some results depends neither on their grouping nor on more of their order than their addresses ask. -/
structure Totals (results : List FiringResult) (total : FiringResult) : Prop where
  bracketed : ∀ bracketing : Bracketing, bracketing.results = results → bracketing.total = total
  rearranged : ∀ others, Rearrangement results others → collect others = total
  tokens : ∀ addr, total.producedOn addr = (writers addr results).flatMap (·.producedOn addr)
  present : ∀ addr, addr ∈ total.production ↔ ∃ result ∈ results, addr ∈ result.production

theorem collect_append (first second : List FiringResult) :
    collect (first ++ second) = (collect first).merge (collect second) := by
  rw [collect, List.foldl_append, foldl_merge]
  rfl

theorem bracketing_total (bracketing : Bracketing) : bracketing.total = collect bracketing.results := by
  induction bracketing with
  | idle => rfl
  | one result => exact (idle_merge result).symm
  | merge first second ihFirst ihSecond =>
    rw [Bracketing.total, Bracketing.results, collect_append, ihFirst, ihSecond]

theorem production_of_contains {result : FiringResult} {addr : PortAddr} (h : result.production.contains addr = true) :
    result.production[addr]? = some (result.producedOn addr) := by
  rw [producedOn, Std.ExtTreeMap.getElem?_eq_some_getElem (Std.ExtTreeMap.contains_iff_mem.mp h)]
  rfl

theorem production_of_not_contains {result : FiringResult} {addr : PortAddr}
    (h : result.production.contains addr = false) : result.production[addr]? = none :=
  Std.ExtTreeMap.getElem?_eq_none_of_contains_eq_false h

theorem not_apart_of_contains {a b : FiringResult} {addr : PortAddr} (ha : a.production.contains addr = true)
    (hb : b.production.contains addr = true) : ¬a.Apart b := by
  intro h
  rcases h addr with hnone | hnone
  · rw [production_of_contains ha] at hnone
    cases hnone
  · rw [production_of_contains hb] at hnone
    cases hnone

theorem collect_production (results : List FiringResult) (addr : PortAddr) :
    (collect results).production[addr]? =
      if writers addr results = [] then none else some ((writers addr results).flatMap (·.producedOn addr)) := by
  unfold writers
  induction results with
  | nil => exact Std.ExtTreeMap.getElem?_empty
  | cons result results ih =>
    rw [collect_cons, merge_production, ih, List.filter_cons]
    cases hwrites : result.production.contains addr with
    | false => rw [production_of_not_contains hwrites, ProductionMap.none_joined, if_neg Bool.false_ne_true]
    | true =>
      rw [production_of_contains hwrites, if_pos rfl, if_neg (List.cons_ne_nil _ _), List.flatMap_cons]
      by_cases hmore : results.filter (·.production.contains addr) = []
      · rw [if_pos hmore, hmore, ProductionMap.joined_none, List.flatMap_nil, List.append_nil]
      · rw [if_neg hmore]
        rfl

theorem collect_producedOn (results : List FiringResult) (addr : PortAddr) :
    (collect results).producedOn addr = (writers addr results).flatMap (·.producedOn addr) := by
  rw [producedOn, collect_production]
  by_cases hnobody : writers addr results = []
  · rw [if_pos hnobody, hnobody]
    rfl
  · rw [if_neg hnobody]
    rfl

theorem mem_collect_production (results : List FiringResult) (addr : PortAddr) :
    addr ∈ (collect results).production ↔ ∃ result ∈ results, addr ∈ result.production := by
  have hnobody : writers addr results = [] ↔ ¬∃ result ∈ results, addr ∈ result.production := by
    simp [writers]
  rw [Std.ExtTreeMap.mem_iff_isSome_getElem?, collect_production]
  by_cases h : writers addr results = []
  · simp [h, hnobody.mp h]
  · simp [h, not_not.mp (mt hnobody.mpr h)]

theorem collect_congr {results others : List FiringResult} (members : ∀ result, result ∈ others ↔ result ∈ results)
    (order : ∀ addr, writers addr others = writers addr results) : collect others = collect results := by
  refine ext_lookup ?_ (fun addr => ?_) fun id => ?_
  · rw [Bool.eq_iff_iff, collect_didFire, collect_didFire]
    simp only [members]
  · rw [collect_production, collect_production, order]
  · rw [mem_collect_affected, mem_collect_affected]
    simp only [members]

def places (holds : FiringResult → Bool) (results : List FiringResult) : List (Fin results.length) :=
  (List.finRange results.length).filter fun i => holds (results.get i)

theorem map_places (holds : FiringResult → Bool) (results : List FiringResult) :
    (places holds results).map results.get = results.filter holds := by
  conv_rhs => rw [← List.map_get_finRange results, List.filter_map]
  rfl

theorem mem_places {holds : FiringResult → Bool} {results : List FiringResult} {i : Fin results.length} :
    i ∈ places holds results ↔ holds (results.get i) = true := by
  simp [places]

theorem places_ordered (holds : FiringResult → Bool) (results : List FiringResult) :
    (places holds results).Pairwise (· < ·) := (List.pairwise_lt_finRange _).filter _

theorem places_nodup (holds : FiringResult → Bool) (results : List FiringResult) : (places holds results).Nodup :=
  (List.nodup_finRange _).filter _

namespace Rearrangement

variable {results others : List FiringResult}

theorem same_symm (r : Rearrangement results others) (j : Fin others.length) :
    results.get (r.place.symm j) = others.get j := by
  rw [← r.same, Equiv.apply_symm_apply]

theorem mem_iff (r : Rearrangement results others) (result : FiringResult) : result ∈ others ↔ result ∈ results := by
  simp only [List.mem_iff_get]
  constructor
  · rintro ⟨j, rfl⟩
    exact ⟨r.place.symm j, r.same_symm j⟩
  · rintro ⟨i, rfl⟩
    exact ⟨r.place i, r.same i⟩

variable {holds : FiringResult → Bool}

theorem map_place (r : Rearrangement results others)
    (clash : ∀ a b, holds a = true → holds b = true → ¬a.Apart b) :
    (places holds results).map r.place = places holds others := by
  have hperm : ((places holds results).map r.place).Perm (places holds others) := by
    refine (List.perm_ext_iff_of_nodup ((places_nodup _ _).map r.place.injective) (places_nodup _ _)).mpr fun j => ?_
    rw [List.mem_map, mem_places]
    constructor
    · rintro ⟨i, hi, rfl⟩
      rw [r.same]
      exact mem_places.mp hi
    · intro hj
      refine ⟨r.place.symm j, ?_, r.place.apply_symm_apply j⟩
      rw [mem_places, r.same_symm]
      exact hj
  have hordered : ((places holds results).map r.place).Pairwise (· < ·) := by
    rw [List.pairwise_map]
    refine (places_ordered holds results).imp_of_mem fun hi hj hlt => ?_
    exact r.kept _ _ hlt (clash _ _ (mem_places.mp hi) (mem_places.mp hj))
  exact hperm.eq_of_pairwise (fun i j _ _ hij hji => absurd (hij.trans hji) (lt_irrefl i)) hordered
    (places_ordered holds others)

theorem filter_eq (r : Rearrangement results others)
    (clash : ∀ a b, holds a = true → holds b = true → ¬a.Apart b) : others.filter holds = results.filter holds := by
  rw [← map_places, ← map_places, ← r.map_place clash, List.map_map]
  exact List.map_congr_left fun i _ => r.same i

end Rearrangement

/-- Any way of merging that keeps what its addresses ask comes to the total of the list. -/
theorem collect_totals :
    (∀ results : List FiringResult, Totals results (collect results)) ∧
      ∀ a b : FiringResult, a.Apart b → a.merge b = b.merge a := by
  refine ⟨fun results => ⟨?_, fun others r => ?_, collect_producedOn results, mem_collect_production results⟩,
    fun a b h => h.merge_comm⟩
  · rintro bracketing rfl
    exact bracketing_total bracketing
  · exact collect_congr r.mem_iff fun addr => r.filter_eq fun a b => not_apart_of_contains

end FiringResult

end ActorNet
