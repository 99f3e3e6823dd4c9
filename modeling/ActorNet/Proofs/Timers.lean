import ActorNet.Timers
import Mathlib.Data.List.Basic
import Mathlib.Data.List.Nodup
import Mathlib.Data.List.TakeWhile

set_option autoImplicit false

/-!
# The live part of a queue of timers

`live` lists the places of the pending timers in the order in which they come due. It is what each
operation of a sound queue is told by: scheduling inserts a place, cancelling takes one out, and what
expires is the first of them. Dead places on the agenda have no say.
-/
namespace ActorNet

namespace Slot

theorem before_iff (a b : Slot) :
    a.before b = true ↔
      a.1.nanos < b.1.nanos ∨ (a.1.nanos = b.1.nanos ∧ a.2.number ≤ b.2.number) := by
  simp [before]

theorem before_trans {a b c : Slot} (hab : a.before b = true) (hbc : b.before c = true) :
    a.before c = true := by
  rw [before_iff] at *
  omega

theorem before_of_not_before {a b : Slot} (h : ¬a.before b = true) : b.before a = true := by
  rw [before_iff] at *
  omega

end Slot

namespace TimerQueue

variable {α : Type}

def Ordered (slots : List Slot) : Prop := slots.Pairwise fun a b => a.before b = true

def live (q : TimerQueue α) : List Slot := q.agenda.filter fun slot => q.pending.contains slot.2

/-- Every pending timer has its place, and no number is given twice. -/
structure Sound (q : TimerQueue α) : Prop where
  ordered : Ordered q.agenda
  numbered : ∀ slot ∈ q.agenda, slot.2.number < q.nextNumber
  distinct : (q.agenda.map Prod.snd).Nodup
  listed : ∀ id ∈ q.pending, ∃ deadline, (deadline, id) ∈ q.agenda

/-- The queues hold the same timers; they may differ in what is dead on their agendas. -/
structure Same (q q' : TimerQueue α) : Prop where
  live : q'.live = q.live
  pending : q'.pending = q.pending
  nextNumber : q'.nextNumber = q.nextNumber
  sound : q.Sound → q'.Sound

theorem Same.refl (q : TimerQueue α) : q.Same q := ⟨rfl, rfl, rfl, id⟩

theorem sound_empty : ({} : TimerQueue α).Sound where
  ordered := List.Pairwise.nil
  numbered := by simp
  distinct := List.nodup_nil
  listed := by simp

theorem mem_live {q : TimerQueue α} {slot : Slot} :
    slot ∈ q.live ↔ slot ∈ q.agenda ∧ slot.2 ∈ q.pending := by
  simp [live]

theorem Sound.number_lt {q : TimerQueue α} (sound : q.Sound) {id : TimerId} (h : id ∈ q.pending) :
    id.number < q.nextNumber := by
  obtain ⟨deadline, hslot⟩ := sound.listed id h
  exact sound.numbered _ hslot

theorem Sound.exists_live {q : TimerQueue α} (sound : q.Sound) {id : TimerId} (h : id ∈ q.pending) :
    ∃ deadline, (deadline, id) ∈ q.live := by
  obtain ⟨deadline, hslot⟩ := sound.listed id h
  exact ⟨deadline, mem_live.mpr ⟨hslot, h⟩⟩

theorem Sound.fresh {q : TimerQueue α} (sound : q.Sound) {slot : Slot} (h : slot ∈ q.live) :
    (⟨q.nextNumber⟩ : TimerId) ≠ slot.2 := by
  intro heq
  have hlt := sound.number_lt (mem_live.mp h).2
  rw [← heq] at hlt
  exact Nat.lt_irrefl _ hlt

theorem mem_insertSlot {slot other : Slot} {slots : List Slot} :
    other ∈ insertSlot slot slots ↔ other = slot ∨ other ∈ slots := by
  induction slots with
  | nil => simp [insertSlot]
  | cons head tail ih =>
    rw [insertSlot]
    split
    · simp
    · simp only [List.mem_cons, ih]
      tauto

theorem insertSlot_perm (slot : Slot) (slots : List Slot) :
    (insertSlot slot slots).Perm (slot :: slots) := by
  induction slots with
  | nil => exact List.Perm.refl _
  | cons head tail ih =>
    rw [insertSlot]
    split
    · exact List.Perm.refl _
    · exact (ih.cons head).trans (List.Perm.swap slot head tail)

theorem insertSlot_ordered {slot : Slot} {slots : List Slot} (h : Ordered slots) :
    Ordered (insertSlot slot slots) := by
  induction slots with
  | nil => simp [insertSlot, Ordered]
  | cons head tail ih =>
    obtain ⟨hhead, htail⟩ := List.pairwise_cons.mp h
    rw [insertSlot]
    split
    case isTrue hb =>
      refine List.pairwise_cons.mpr ⟨fun other hother => ?_, h⟩
      rcases List.mem_cons.mp hother with rfl | hother
      · exact hb
      · exact Slot.before_trans hb (hhead other hother)
    case isFalse hb =>
      refine List.pairwise_cons.mpr ⟨fun other hother => ?_, ih htail⟩
      rcases mem_insertSlot.mp hother with rfl | hother
      · exact Slot.before_of_not_before hb
      · exact hhead other hother

theorem insertSlot_eq {slot : Slot} {slots : List Slot} (ordered : Ordered slots)
    (later : ∀ other ∈ slots, other.2.number < slot.2.number) :
    insertSlot slot slots = slots.filter (·.1 ≤ slot.1) ++ slot :: slots.filter (slot.1 < ·.1) := by
  induction slots with
  | nil => rfl
  | cons head tail ih =>
    obtain ⟨hhead, htail⟩ := List.pairwise_cons.mp ordered
    have hnumber := later head List.mem_cons_self
    rw [insertSlot]
    by_cases hdue : head.1 ≤ slot.1
    · have hbefore : ¬slot.before head = true := by
        have hnanos : head.1.nanos ≤ slot.1.nanos := hdue
        rw [Slot.before_iff]
        omega
      have hnot : ¬slot.1 < head.1 := Nat.not_lt_of_le hdue
      rw [if_neg hbefore, ih htail fun other hother => later other (List.mem_cons_of_mem _ hother)]
      simp [hdue, hnot]
    · have hafter : slot.1 < head.1 := Nat.lt_of_not_le hdue
      have hbefore : slot.before head = true := by
        have hnanos : slot.1.nanos < head.1.nanos := hafter
        rw [Slot.before_iff]
        omega
      have hrest : ∀ other ∈ tail, slot.1 < other.1 := by
        intro other hother
        have hnanos : slot.1.nanos < head.1.nanos := hafter
        have hordered := (Slot.before_iff head other).mp (hhead other hother)
        change slot.1.nanos < other.1.nanos
        omega
      have hnone : tail.filter (·.1 ≤ slot.1) = [] := by
        refine List.filter_eq_nil_iff.mpr fun other hother hle => ?_
        exact Nat.not_le_of_lt (hrest other hother) (of_decide_eq_true hle)
      have hall : tail.filter (slot.1 < ·.1) = tail :=
        List.filter_eq_self.mpr fun other hother => decide_eq_true (hrest other hother)
      rw [if_pos hbefore]
      simp [hdue, hafter, hnone, hall]

theorem scheduleAt_pending (q : TimerQueue α) (deadline : Instant) (payload : α) :
    (q.scheduleAt deadline payload).2.pending = q.pending.insert ⟨q.nextNumber⟩ payload := rfl

theorem scheduleAt_nextNumber (q : TimerQueue α) (deadline : Instant) (payload : α) :
    (q.scheduleAt deadline payload).2.nextNumber = q.nextNumber + 1 := rfl

theorem Sound.scheduleAt {q : TimerQueue α} (sound : q.Sound) (deadline : Instant) (payload : α) :
    (q.scheduleAt deadline payload).2.Sound where
  ordered := insertSlot_ordered sound.ordered
  numbered := by
    intro slot hslot
    rw [scheduleAt_nextNumber]
    rcases mem_insertSlot.mp hslot with rfl | hslot
    · exact Nat.lt_succ_self _
    · exact Nat.lt_succ_of_lt (sound.numbered slot hslot)
  distinct := by
    apply ((insertSlot_perm _ _).map Prod.snd).nodup_iff.mpr
    refine List.nodup_cons.mpr ⟨fun hmem => ?_, sound.distinct⟩
    obtain ⟨slot, hslot, hid⟩ := List.mem_map.mp hmem
    have hlt := sound.numbered slot hslot
    rw [hid] at hlt
    exact Nat.lt_irrefl _ hlt
  listed := by
    intro id hid
    rw [scheduleAt_pending, Std.ExtTreeMap.mem_insert] at hid
    rcases hid with heq | hid
    · rw [Std.LawfulEqOrd.compare_eq_iff_eq] at heq
      exact ⟨deadline, mem_insertSlot.mpr (.inl (by rw [heq]))⟩
    · obtain ⟨other, hslot⟩ := sound.listed id hid
      exact ⟨other, mem_insertSlot.mpr (.inr hslot)⟩

theorem mem_live_scheduleAt {q : TimerQueue α} (sound : q.Sound) {deadline : Instant} {payload : α}
    {slot : Slot} :
    slot ∈ (q.scheduleAt deadline payload).2.live ↔
      slot = (deadline, ⟨q.nextNumber⟩) ∨ slot ∈ q.live := by
  rw [mem_live, mem_live, scheduleAt_pending, Std.ExtTreeMap.mem_insert,
    Std.LawfulEqOrd.compare_eq_iff_eq]
  change slot ∈ insertSlot (deadline, ⟨q.nextNumber⟩) q.agenda ∧ _ ↔ _
  rw [mem_insertSlot]
  constructor
  · rintro ⟨rfl | hslot, hid | hid⟩
    · exact .inl rfl
    · exact .inl rfl
    · have hlt := sound.numbered slot hslot
      rw [← hid] at hlt
      exact (Nat.lt_irrefl _ hlt).elim
    · exact .inr ⟨hslot, hid⟩
  · rintro (rfl | ⟨hslot, hid⟩)
    · exact ⟨.inl rfl, .inl rfl⟩
    · exact ⟨.inr hslot, .inr hid⟩

theorem live_scheduleAt {q : TimerQueue α} (sound : q.Sound) (deadline : Instant) (payload : α) :
    (q.scheduleAt deadline payload).2.live =
      q.live.filter (·.1 ≤ deadline) ++ (deadline, ⟨q.nextNumber⟩) :: q.live.filter (deadline < ·.1) := by
  let id : TimerId := ⟨q.nextNumber⟩
  have hpending : ∀ slots : List Slot, (∀ slot ∈ slots, slot ∈ q.agenda) →
      (slots.filter fun slot => (q.pending.insert id payload).contains slot.2) =
        slots.filter fun slot => q.pending.contains slot.2 := by
    intro slots hslots
    refine List.filter_congr fun slot hslot => ?_
    have hne : id ≠ slot.2 := by
      rintro heq
      have hlt := sound.numbered slot (hslots slot hslot)
      rw [← heq] at hlt
      exact Nat.lt_irrefl _ hlt
    rw [Std.ExtTreeMap.contains_insert, beq_eq_false_iff_ne.mpr (mt Std.LawfulEqOrd.compare_eq_iff_eq.mp hne),
      Bool.false_or]
  change (insertSlot (deadline, id) q.agenda).filter (fun slot => (q.pending.insert id payload).contains slot.2) = _
  rw [insertSlot_eq sound.ordered sound.numbered, List.filter_append,
    List.filter_cons_of_pos (by simp), hpending _ fun _ hslot => (List.mem_filter.mp hslot).1,
    hpending _ fun _ hslot => (List.mem_filter.mp hslot).1]
  simp only [live, List.filter_filter, Bool.and_comm, id]

theorem cancel_pending (q : TimerQueue α) (id : TimerId) :
    (q.cancel id).2.pending = q.pending.erase id := rfl

theorem Sound.cancel {q : TimerQueue α} (sound : q.Sound) (id : TimerId) : (q.cancel id).2.Sound where
  ordered := sound.ordered
  numbered := sound.numbered
  distinct := sound.distinct
  listed := fun other hother => sound.listed other (Std.ExtTreeMap.mem_erase.mp hother).2

theorem mem_live_cancel {q : TimerQueue α} {id : TimerId} {slot : Slot} :
    slot ∈ (q.cancel id).2.live ↔ slot.2 ≠ id ∧ slot ∈ q.live := by
  rw [mem_live, mem_live, cancel_pending, Std.ExtTreeMap.mem_erase, Ne,
    Std.LawfulEqOrd.compare_eq_iff_eq, eq_comm (a := id)]
  change slot ∈ q.agenda ∧ _ ↔ _
  tauto

/-- The timer that comes due first expires: it is due, and all others stay as they are. -/
structure Expires (q : TimerQueue α) (now : Instant) (id : TimerId) (payload : α) (q' : TimerQueue α) :
    Prop where
  payload : q.pending[id]? = some payload
  live : ∃ deadline, deadline ≤ now ∧ q.live = (deadline, id) :: q'.live
  pending : q'.pending = q.pending.erase id
  nextNumber : q'.nextNumber = q.nextNumber
  sound : q'.Sound

theorem Expires.pending_iff {q q' : TimerQueue α} {now : Instant} {id other : TimerId} {payload kept : α}
    (expires : q.Expires now id payload q') :
    q'.pending[other]? = some kept ↔ other ≠ id ∧ q.pending[other]? = some kept := by
  simp only [expires.pending, Std.ExtTreeMap.getElem?_erase, Std.LawfulEqOrd.compare_eq_iff_eq]
  by_cases hid : id = other <;> simp [hid, eq_comm]

theorem popSlot_some {now : Instant} {pending : Std.ExtTreeMap TimerId α compare}
    {slots rest : List Slot} {id : TimerId} {payload : α}
    (h : popSlot now pending slots = (some (id, payload), rest)) :
    ∃ dead deadline, slots = dead ++ (deadline, id) :: rest ∧ (∀ slot ∈ dead, slot.2 ∉ pending) ∧
      pending[id]? = some payload ∧ deadline ≤ now := by
  induction slots with
  | nil => simp [popSlot] at h
  | cons head tail ih =>
    obtain ⟨deadline, other⟩ := head
    rw [popSlot] at h
    split at h
    case isTrue => simp at h
    case isFalse hdue =>
      split at h
      case h_1 found hfound =>
        simp only [Prod.mk.injEq, Option.some.injEq] at h
        obtain ⟨⟨rfl, rfl⟩, rfl⟩ := h
        exact ⟨[], deadline, rfl, by simp, hfound, Nat.le_of_not_lt hdue⟩
      case h_2 hnone =>
        obtain ⟨dead, due, rfl, hdead, hpayload, hle⟩ := ih h
        have hother : other ∉ pending := by
          rw [Std.ExtTreeMap.mem_iff_isSome_getElem?, hnone]; simp
        exact ⟨(deadline, other) :: dead, due, rfl, List.forall_mem_cons.mpr ⟨hother, hdead⟩, hpayload, hle⟩

theorem popSlot_none {now : Instant} {pending : Std.ExtTreeMap TimerId α compare}
    {slots rest : List Slot} (h : popSlot now pending slots = (none, rest)) :
    ∃ dead, slots = dead ++ rest ∧ ∀ slot ∈ dead, slot.2 ∉ pending := by
  induction slots with
  | nil =>
    simp only [popSlot, Prod.mk.injEq, true_and] at h
    exact ⟨[], h, by simp⟩
  | cons head tail ih =>
    obtain ⟨deadline, other⟩ := head
    rw [popSlot] at h
    split at h
    case isTrue =>
      simp only [Prod.mk.injEq, true_and] at h
      exact ⟨[], h, by simp⟩
    case isFalse =>
      split at h
      case h_1 => simp at h
      case h_2 hnone =>
        obtain ⟨dead, rfl, hdead⟩ := ih h
        have hother : other ∉ pending := by
          rw [Std.ExtTreeMap.mem_iff_isSome_getElem?, hnone]; simp
        exact ⟨(deadline, other) :: dead, rfl, List.forall_mem_cons.mpr ⟨hother, hdead⟩⟩

theorem Sound.dropDead {q : TimerQueue α} (sound : q.Sound) {dead rest : List Slot}
    (h : q.agenda = dead ++ rest) (hdead : ∀ slot ∈ dead, slot.2 ∉ q.pending) :
    ({ q with agenda := rest } : TimerQueue α).Sound where
  ordered := sound.ordered.sublist (h ▸ List.sublist_append_right dead rest)
  numbered := fun slot hslot => sound.numbered slot (h ▸ List.mem_append_right dead hslot)
  distinct := sound.distinct.sublist ((h ▸ List.sublist_append_right dead rest).map Prod.snd)
  listed := by
    intro id hid
    obtain ⟨deadline, hslot⟩ := sound.listed id hid
    rw [h, List.mem_append] at hslot
    rcases hslot with hslot | hslot
    · exact (hdead _ hslot hid).elim
    · exact ⟨deadline, hslot⟩

theorem filter_dead {q : TimerQueue α} {dead : List Slot} (hdead : ∀ slot ∈ dead, slot.2 ∉ q.pending) :
    (dead.filter fun slot => q.pending.contains slot.2) = [] := by
  rw [List.filter_eq_nil_iff]
  intro slot hslot
  simpa using hdead slot hslot

theorem same_dropDead {q : TimerQueue α} {dead rest : List Slot} (h : q.agenda = dead ++ rest)
    (hdead : ∀ slot ∈ dead, slot.2 ∉ q.pending) : q.Same { q with agenda := rest } where
  live := by
    change rest.filter _ = q.agenda.filter _
    rw [h, List.filter_append, filter_dead hdead, List.nil_append]
  pending := rfl
  nextNumber := rfl
  sound := fun sound => sound.dropDead h hdead

theorem Sound.popDue_some {q q' : TimerQueue α} (sound : q.Sound) {now : Instant} {id : TimerId}
    {payload : α} (h : q.popDue now = (some (id, payload), q')) : q.Expires now id payload q' := by
  unfold popDue at h
  split at h
  case h_2 => simp at h
  case h_1 found other rest hpop =>
    simp only [Prod.mk.injEq, Option.some.injEq] at h
    obtain ⟨⟨rfl, rfl⟩, rfl⟩ := h
    obtain ⟨dead, deadline, hagenda, hdead, hpayload, hle⟩ := popSlot_some hpop
    have hmem : found ∈ q.pending := by
      rw [Std.ExtTreeMap.mem_iff_isSome_getElem?, hpayload]; rfl
    have hrest : (q.cancel found).2.agenda = (dead ++ [(deadline, found)]) ++ rest := by
      change q.agenda = _
      rw [hagenda, List.append_assoc, List.singleton_append]
    have hgone : ∀ slot ∈ dead ++ [(deadline, found)], slot.2 ∉ (q.cancel found).2.pending := by
      intro slot hslot hpending
      obtain ⟨hne, hpending⟩ := Std.ExtTreeMap.mem_erase.mp hpending
      rcases List.mem_append.mp hslot with hslot | hslot
      · exact hdead slot hslot hpending
      · rw [List.mem_singleton.mp hslot] at hne
        exact hne (Std.LawfulEqOrd.compare_eq_iff_eq.mpr rfl)
    refine ⟨hpayload, ⟨deadline, hle, ?_⟩, rfl, rfl, (sound.cancel found).dropDead hrest hgone⟩
    change q.agenda.filter _ = (deadline, found) :: rest.filter _
    rw [hagenda, List.filter_append, filter_dead hdead, List.nil_append,
      List.filter_cons_of_pos (by simpa using hmem)]
    refine congrArg ((deadline, found) :: ·) (List.filter_congr fun slot hslot => ?_)
    have hdistinct := sound.distinct
    rw [hagenda, List.map_append, List.map_cons] at hdistinct
    have hne : found ≠ slot.2 := fun heq =>
      (List.nodup_cons.mp hdistinct.of_append_right).1 (List.mem_map.mpr ⟨slot, hslot, heq.symm⟩)
    rw [Std.ExtTreeMap.contains_erase, bne_iff_ne.mpr (mt Std.LawfulEqOrd.compare_eq_iff_eq.mp hne),
      Bool.true_and]

theorem same_popDue_none {q q' : TimerQueue α} {now : Instant} (h : q.popDue now = (none, q')) :
    q.Same q' := by
  unfold popDue at h
  split at h
  case h_1 => simp at h
  case h_2 rest hpop =>
    simp only [Prod.mk.injEq, true_and] at h
    obtain ⟨dead, hagenda, hdead⟩ := popSlot_none hpop
    exact h ▸ same_dropDead hagenda hdead

theorem popSlot_none_due {now : Instant} {pending : Std.ExtTreeMap TimerId α compare} {slots rest : List Slot}
    (ordered : Ordered slots) (h : popSlot now pending slots = (none, rest)) :
    ∀ slot ∈ slots, slot.2 ∈ pending → now < slot.1 := by
  induction slots generalizing rest with
  | nil => exact fun _ hslot => absurd hslot List.not_mem_nil
  | cons head tail ih =>
    obtain ⟨deadline, id⟩ := head
    obtain ⟨hhead, htail⟩ := List.pairwise_cons.mp ordered
    rw [popSlot] at h
    intro slot hslot hpending
    split at h
    case isTrue hlater =>
      rcases List.mem_cons.mp hslot with rfl | hrest
      · exact hlater
      · have hbefore : deadline.nanos < slot.1.nanos ∨ deadline.nanos = slot.1.nanos ∧ id.number ≤ slot.2.number :=
          (Slot.before_iff (deadline, id) slot).mp (hhead slot hrest)
        have hle : deadline.nanos ≤ slot.1.nanos := by omega
        exact Nat.lt_of_lt_of_le hlater hle
    case isFalse =>
      split at h
      case h_1 => cases h
      case h_2 hdead =>
        rcases List.mem_cons.mp hslot with rfl | hrest
        · rw [Std.ExtTreeMap.mem_iff_isSome_getElem?, hdead] at hpending
          cases hpending
        · exact ih htail h slot hrest hpending

theorem Sound.popDue_none {q q' : TimerQueue α} (sound : q.Sound) {now : Instant} (h : q.popDue now = (none, q')) :
    ∀ slot ∈ q.live, now < slot.1 := by
  intro slot hslot
  obtain ⟨hagenda, hpending⟩ := mem_live.mp hslot
  unfold popDue at h
  split at h
  case h_1 => cases h
  case h_2 rest hnone => exact popSlot_none_due sound.ordered hnone slot hagenda hpending

theorem nextDeadline_fst (q : TimerQueue α) : q.nextDeadline.1 = q.live.head?.map (·.1) := by
  rw [live, List.head?_filter, List.find?_eq_head?_dropWhile_not]
  rfl

theorem same_nextDeadline (q : TimerQueue α) : q.Same q.nextDeadline.2 := by
  have hagenda : q.agenda = q.agenda.takeWhile (fun slot => !q.pending.contains slot.2) ++
      liveFrom q.pending q.agenda := (List.takeWhile_append_dropWhile).symm
  apply same_dropDead hagenda
  intro slot hslot hmem
  have hdead := List.all_eq_true.mp List.all_takeWhile slot hslot
  rw [Std.ExtTreeMap.contains_iff_mem.mpr hmem] at hdead
  exact Bool.noConfusion hdead

def left (q : TimerQueue α) (slots : List Slot) : List Slot := slots.filter (·.2 ∈ q.pending)

theorem left_append (q : TimerQueue α) (slots others : List Slot) :
    q.left (slots ++ others) = q.left slots ++ q.left others := List.filter_append ..

theorem left_eq_self {q : TimerQueue α} {slots : List Slot} (h : ∀ slot ∈ slots, slot.2 ∈ q.pending) :
    q.left slots = slots :=
  List.filter_eq_self.mpr fun slot hslot => decide_eq_true (h slot hslot)

theorem left_live (q : TimerQueue α) : q.left q.live = q.live :=
  left_eq_self fun _ hslot => (mem_live.mp hslot).2

structure Shrinks (q q' : TimerQueue α) : Prop where
  nextNumber : q'.nextNumber = q.nextNumber
  live : q'.live = q'.left q.live
  pending : ∀ (id : TimerId) (payload : α), q'.pending[id]? = some payload → q.pending[id]? = some payload

theorem Shrinks.mem {q q' : TimerQueue α} (h : q.Shrinks q') {id : TimerId} (hmem : id ∈ q'.pending) :
    id ∈ q.pending := by
  have hold := h.pending id _ (Std.ExtTreeMap.getElem?_eq_some_getElem hmem)
  exact (Std.ExtTreeMap.getElem?_eq_some_iff.mp hold).1

theorem Shrinks.left {q q' : TimerQueue α} (h : q.Shrinks q') (slots : List Slot) :
    q'.left (q.left slots) = q'.left slots := by
  unfold TimerQueue.left
  rw [List.filter_filter]
  refine List.filter_congr fun slot _ => ?_
  rw [Bool.eq_iff_iff]
  simpa using h.mem

theorem Same.left {q q' : TimerQueue α} (h : q.Same q') (slots : List Slot) : q'.left slots = q.left slots := by
  unfold TimerQueue.left
  rw [h.pending]

theorem Same.shrinks {q q' : TimerQueue α} (h : q.Same q') : q.Shrinks q' where
  nextNumber := h.nextNumber
  live := by rw [h.live, h.left, left_live]
  pending := by
    rw [h.pending]
    exact fun _ _ => id

theorem shrinks_cancel (q : TimerQueue α) (id : TimerId) : q.Shrinks (q.cancel id).2 where
  nextNumber := rfl
  live := by
    unfold live left
    rw [List.filter_filter]
    refine List.filter_congr fun slot _ => ?_
    rw [cancel_pending, Bool.eq_iff_iff]
    simp
  pending := by
    intro other payload h
    rw [cancel_pending, Std.ExtTreeMap.getElem?_erase] at h
    split at h
    · cases h
    · exact h

theorem Expires.shrinks {q q' : TimerQueue α} {now : Instant} {id : TimerId} {payload : α}
    (h : q.Expires now id payload q') : q.Shrinks q' where
  nextNumber := h.nextNumber
  live := by
    obtain ⟨deadline, -, hlive⟩ := h.live
    have hgone : id ∉ q'.pending := by simp [h.pending]
    rw [hlive, left, List.filter_cons_of_neg (by simpa using hgone)]
    exact q'.left_live.symm
  pending := fun _ _ hpending => (h.pending_iff.mp hpending).2

theorem countP_payloads {q : TimerQueue α} {kind : α → Bool} {ids : List TimerId} (nodup : ids.Nodup)
    (h : ∀ id, id ∈ ids ↔ ∃ payload, q.pending[id]? = some payload ∧ kind payload = true) :
    q.payloads.countP kind = ids.length := by
  let entries := q.pending.toList.filter fun entry => kind entry.2
  have hkeys : (q.pending.toList.map Prod.fst).Nodup := by
    rw [Std.ExtTreeMap.map_fst_toList_eq_keys]
    exact Std.ExtTreeMap.nodup_keys
  have hdistinct : (entries.map Prod.fst).Nodup := hkeys.sublist (List.filter_sublist.map _)
  have hmem : ∀ id, id ∈ entries.map Prod.fst ↔ id ∈ ids := by
    intro id
    rw [h]
    simp [entries, List.mem_filter, Std.ExtTreeMap.mem_toList_iff_getElem?_eq_some]
  have hperm : (entries.map Prod.fst).Perm ids := (List.perm_ext_iff_of_nodup hdistinct nodup).mpr hmem
  rw [payloads, List.countP_map, List.countP_eq_length_filter, ← hperm.length_eq, List.length_map]
  rfl

end TimerQueue

end ActorNet
