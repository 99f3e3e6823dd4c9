import ActorNet.FiringResult
import Mathlib.Data.List.Pairwise
import Mathlib.Data.List.Perm.Basic

set_option autoImplicit false

/-!
# How results of firings merge

Merging goes by address: the tokens of the second result stand behind those of the first, and an address that neither
has stays absent. So it is associative, the idle result changes nothing, and results that share no address merge in
either order.
-/
namespace ActorNet

namespace ProductionMap

def joined (old new : Option (List Token)) : Option (List Token) :=
  match new with
  | none => old
  | some tokens => some (old.getD [] ++ tokens)

@[simp] theorem joined_none (old : Option (List Token)) : joined old none = old := rfl

@[simp] theorem none_joined (new : Option (List Token)) : joined none new = new := by
  cases new <;> rfl

theorem joined_assoc (a b c : Option (List Token)) : joined (joined a b) c = joined a (joined b c) := by
  cases c with
  | none => rfl
  | some tokens => cases b <;> simp [joined]

theorem joined_comm {a b : Option (List Token)} (h : a = none ∨ b = none) : joined a b = joined b a := by
  rcases h with rfl | rfl <;> simp

theorem add_getElem? (map : ProductionMap) (addr other : PortAddr) (tokens : List Token) :
    (map.add addr tokens)[other]? = joined map[other]? (if addr = other then some tokens else none) := by
  unfold add
  rw [Std.ExtTreeMap.getElem?_alter]
  by_cases h : addr = other
  · subst h
    simp [joined]
  · simp [h]

theorem foldl_add_absent {entries : List (PortAddr × List Token)} {addr : PortAddr}
    (h : addr ∉ entries.map Prod.fst) (map : ProductionMap) :
    (entries.foldl (fun map (addr, tokens) => map.add addr tokens) map)[addr]? = map[addr]? := by
  induction entries generalizing map with
  | nil => rfl
  | cons entry entries ih =>
    obtain ⟨hfirst, hrest⟩ := not_or.mp (mt List.mem_cons.mpr h)
    rw [List.foldl_cons, ih hrest, add_getElem?, if_neg (Ne.symm hfirst), joined_none]

theorem foldl_add_present {entries : List (PortAddr × List Token)} (distinct : (entries.map Prod.fst).Nodup)
    {addr : PortAddr} {tokens : List Token} (h : (addr, tokens) ∈ entries) (map : ProductionMap) :
    (entries.foldl (fun map (addr, tokens) => map.add addr tokens) map)[addr]? = joined map[addr]? (some tokens) := by
  induction entries generalizing map with
  | nil => cases h
  | cons entry entries ih =>
    obtain ⟨hfresh, hdistinct⟩ := List.nodup_cons.mp distinct
    rw [List.foldl_cons]
    rcases List.mem_cons.mp h with rfl | hmem
    · rw [foldl_add_absent hfresh, add_getElem?, if_pos rfl]
    · have hother : entry.1 ≠ addr := fun hsame => hfresh (hsame ▸ List.mem_map_of_mem (f := Prod.fst) hmem)
      rw [ih hdistinct hmem, add_getElem?, if_neg hother, joined_none]

theorem nodup_toList (map : ProductionMap) : (map.toList.map Prod.fst).Nodup := by
  rw [Std.ExtTreeMap.map_fst_toList_eq_keys]
  exact Std.ExtTreeMap.nodup_keys

end ProductionMap

namespace FiringResult

theorem merge_production (a b : FiringResult) (addr : PortAddr) :
    (a.merge b).production[addr]? = ProductionMap.joined a.production[addr]? b.production[addr]? := by
  change (b.production.toList.foldl (fun map (addr, tokens) => map.add addr tokens) a.production)[addr]? = _
  cases hfound : b.production[addr]? with
  | some tokens =>
    have hmem := Std.ExtTreeMap.mem_toList_iff_getElem?_eq_some.mpr hfound
    exact ProductionMap.foldl_add_present (ProductionMap.nodup_toList _) hmem _
  | none =>
    refine ProductionMap.foldl_add_absent (fun hmem => ?_) _
    obtain ⟨⟨other, tokens⟩, hentry, rfl⟩ := List.mem_map.mp hmem
    rw [Std.ExtTreeMap.mem_toList_iff_getElem?_eq_some.mp hentry] at hfound
    cases hfound

theorem mem_merge_affected (a b : FiringResult) (id : ActorId) :
    id ∈ (a.merge b).affected ↔ id ∈ a.affected ∨ id ∈ b.affected := Std.ExtTreeSet.mem_union_iff

theorem ext_lookup {a b : FiringResult} (didFire : a.didFire = b.didFire)
    (production : ∀ addr : PortAddr, a.production[addr]? = b.production[addr]?)
    (affected : ∀ id, id ∈ a.affected ↔ id ∈ b.affected) : a = b := by
  have hproduction : a.production = b.production := Std.ExtTreeMap.ext_getElem? fun addr => production addr
  have haffected : a.affected = b.affected := Std.ExtTreeSet.ext_mem fun id => affected id
  cases a
  cases b
  rw [mk.injEq]
  exact ⟨didFire, hproduction, haffected⟩

theorem merge_assoc (a b c : FiringResult) : (a.merge b).merge c = a.merge (b.merge c) := by
  refine ext_lookup (Bool.or_assoc _ _ _) (fun addr => ?_) fun id => ?_
  · simp only [merge_production, ProductionMap.joined_assoc]
  · simp only [mem_merge_affected, or_assoc]

theorem idle_merge (a : FiringResult) : idle.merge a = a := by
  refine ext_lookup rfl (fun addr => ?_) fun id => ?_
  · rw [merge_production]
    exact (congrArg (ProductionMap.joined · _) Std.ExtTreeMap.getElem?_empty).trans (ProductionMap.none_joined _)
  · rw [mem_merge_affected]
    exact or_iff_right Std.ExtTreeSet.not_mem_empty

theorem merge_idle (a : FiringResult) : a.merge idle = a := by
  refine ext_lookup (Bool.or_false _) (fun addr => ?_) fun id => ?_
  · rw [merge_production]
    exact congrArg (ProductionMap.joined _) Std.ExtTreeMap.getElem?_empty
  · rw [mem_merge_affected]
    exact or_iff_left Std.ExtTreeSet.not_mem_empty

/-- No address stands in both results. -/
def Apart (a b : FiringResult) : Prop := ∀ addr : PortAddr, a.production[addr]? = none ∨ b.production[addr]? = none

instance : Std.Symm Apart := ⟨fun _ _ h addr => (h addr).symm⟩

theorem Apart.merge_comm {a b : FiringResult} (h : a.Apart b) : a.merge b = b.merge a := by
  refine ext_lookup (Bool.or_comm _ _) (fun addr => ?_) fun id => ?_
  · rw [merge_production, merge_production, ProductionMap.joined_comm (h addr)]
  · rw [mem_merge_affected, mem_merge_affected, or_comm]

theorem foldl_merge (a : FiringResult) (results : List FiringResult) :
    results.foldl merge a = a.merge (collect results) := by
  unfold collect
  induction results generalizing a with
  | nil => exact (merge_idle a).symm
  | cons result results ih =>
    rw [List.foldl_cons, List.foldl_cons, idle_merge, ih (a.merge result), ih result, merge_assoc]

theorem collect_cons (result : FiringResult) (results : List FiringResult) :
    collect (result :: results) = result.merge (collect results) := by
  rw [collect, List.foldl_cons, idle_merge, foldl_merge]

theorem mem_collect_affected (results : List FiringResult) (id : ActorId) :
    id ∈ (collect results).affected ↔ ∃ result ∈ results, id ∈ result.affected := by
  induction results with
  | nil => simp [collect, idle]
  | cons result results ih =>
    rw [collect_cons, mem_merge_affected, ih]
    simp

theorem collect_didFire (results : List FiringResult) :
    (collect results).didFire = true ↔ ∃ result ∈ results, result.didFire = true := by
  induction results with
  | nil => simp [collect, idle]
  | cons result results ih =>
    rw [collect_cons, merge, Bool.or_eq_true, ih]
    simp

theorem collect_perm {results others : List FiringResult} (h : results.Perm others) (apart : results.Pairwise Apart) :
    collect others = collect results := by
  have hpair : ∀ a ∈ results, ∀ b ∈ results, a.merge b = b.merge a := by
    intro a ha b hb
    rcases eq_or_ne a b with rfl | hne
    · rfl
    · exact (apart.forall ha hb hne).merge_comm
  refine (h.foldl_eq' (fun a ha b hb total => ?_) idle).symm
  rw [merge_assoc, merge_assoc, hpair a ha b hb]

end FiringResult

end ActorNet
