import Mathlib.Data.List.Induction
import Mathlib.Order.Bounds.Basic
import ManagedHeap.Arena.Lemmas

/-!
# Slots taken and given back

An arena is asked for slots and given slots back in any order, also slots that nobody holds.
What it remembers of all this is the list of free slots.  Nothing is lost by that: the slot
that was freed last is in front, and since the arena grows only when no slot is free, it is as
large as the greatest number of entities that it ever held at a time.
-/

namespace ManagedHeap

namespace Arena

inductive Request (kind : Kind) (α : Type) where
  | push (entity : α)
  | release (handle : Handle kind)

variable {kind : Kind} {α : Type}

def serve (arena : Arena kind α) : Request kind α → Arena kind α
  | .push entity => (arena.push entity).2
  | .release handle => (arena.release handle).2

/-- What the empty arena becomes. -/
def served (requests : List (Request kind α)) : Arena kind α := requests.foldl serve empty

def IsEmpty (arena : Arena kind α) (slot : Nat) : Prop := arena.slots[slot]? = some none

/-- Of some slots this one was freed last: none of them has been in use since. -/
def FreedLast (requests : List (Request kind α)) (handle : Handle kind) (slots : Nat → Prop) :
    Prop :=
  ∃ earlier later, requests = earlier ++ .release handle :: later ∧
    (served earlier).isLive handle = true ∧
    ∀ slot, slots slot → ∀ since, since <+: later →
      (served (earlier ++ .release handle :: since)).IsEmpty slot

/-- An entity has been put into a slot where there was none. -/
structure Takes (before : Arena kind α) (entity : α) (handle : Handle kind)
    (after : Arena kind α) : Prop where
  get?_before : before.get? handle = none
  slot_eq : after.slots[handle.slot]? = some (some entity)
  others_eq : ∀ slot ≠ handle.slot, after.slots[slot]? = before.slots[slot]?
  /-- The slot numbers of an arena that is not too large fit a word. -/
  ofNumber_eq : after.size ≤ Handle.limit → Handle.ofNumber handle.slot = .ok handle

/-- The entity in a slot, if there is one, has been taken out. -/
structure Frees (before : Arena kind α) (handle : Handle kind) (answer : Option α)
    (after : Arena kind α) : Prop where
  answer_eq : answer = before.get? handle
  of_live : before.isLive handle = true →
    after.IsEmpty handle.slot ∧ ∀ slot ≠ handle.slot, after.slots[slot]? = before.slots[slot]?
  of_dead : before.isLive handle = false → after = before

/-! ## One request -/

variable {arena : Arena kind α} {requests : List (Request kind α)}

theorem push_of_free_eq_nil (hfree : arena.free = []) (entity : α) :
    arena.push entity =
      (⟨arena.size⟩, { arena with slots := arena.slots.push (some entity) }) := by
  unfold push
  rw [hfree]

theorem push_of_free_eq_cons {slot : Nat} {rest : List Nat} (hfree : arena.free = slot :: rest)
    (entity : α) :
    arena.push entity =
      (⟨slot⟩, { slots := arena.slots.setIfInBounds slot (some entity), free := rest }) := by
  unfold push
  rw [hfree]

theorem release_of_get?_eq_some {handle : Handle kind} {entity : α}
    (hget : arena.get? handle = some entity) :
    arena.release handle =
      (some entity,
        { slots := arena.slots.setIfInBounds handle.slot none
          free := handle.slot :: arena.free }) := by
  unfold release
  rw [hget]

theorem WellFormed.takes (harena : arena.WellFormed) (entity : α) :
    arena.Takes entity (arena.push entity).1 (arena.push entity).2 := by
  have hbefore := get?_push_fst harena entity
  have hself := get?_push_self harena entity
  have hsize := slot_lt_size_of_get? hself
  refine ⟨hbefore, ?_, ?_, ?_⟩
  · simpa [get?, Option.join_eq_some_iff] using hself
  · intro slot hslot
    cases hfree : arena.free with
    | nil =>
        rw [push_of_free_eq_nil hfree] at hslot ⊢
        have hbehind : slot ≠ arena.slots.size := hslot
        rw [Array.getElem?_push, if_neg hbehind]
    | cons first rest =>
        rw [push_of_free_eq_cons hfree] at hslot ⊢
        rw [Array.getElem?_setIfInBounds_ne (Ne.symm hslot)]
  · intro hlimit
    exact Handle.ofNumber_eq_ok (Nat.lt_of_lt_of_le hsize hlimit)

theorem WellFormed.liveCount_push (harena : arena.WellFormed) (entity : α) :
    (arena.push entity).2.liveCount = arena.liveCount + 1 := by
  have hfew : arena.free.length ≤ arena.size := by
    rw [harena.free_perm.length_eq]
    exact Nat.le_trans (List.length_filter_le _ _) (Nat.le_of_eq List.length_range)
  unfold liveCount
  cases hfree : arena.free with
  | nil =>
      rw [push_of_free_eq_nil hfree]
      simp [size, hfree]
  | cons slot rest =>
      rw [hfree, List.length_cons] at hfew
      rw [push_of_free_eq_cons hfree]
      simp only [size, Array.size_setIfInBounds, List.length_cons] at hfew ⊢
      omega

theorem frees_release (arena : Arena kind α) (handle : Handle kind) :
    arena.Frees handle (arena.release handle).1 (arena.release handle).2 where
  answer_eq := release_fst arena handle
  of_live := by
    intro hlive
    obtain ⟨entity, hget⟩ := isLive_iff.1 hlive
    have hsize : handle.slot < arena.slots.size := slot_lt_size_of_get? hget
    rw [release_of_get?_eq_some hget]
    refine ⟨Array.getElem?_setIfInBounds_self_of_lt hsize, ?_⟩
    intro slot hslot
    exact Array.getElem?_setIfInBounds_ne (Ne.symm hslot)
  of_dead := by
    intro hdead
    have hget : arena.get? handle = none := by simpa [isLive] using hdead
    rw [release_of_get?_eq_none hget]

theorem WellFormed.serve (harena : arena.WellFormed) (request : Request kind α) :
    (arena.serve request).WellFormed := by
  cases request with
  | push entity => exact harena.push entity
  | release handle => exact harena.release handle

theorem size_le_size_serve (arena : Arena kind α) (request : Request kind α) :
    arena.size ≤ (arena.serve request).size := by
  cases request with
  | release handle => exact Nat.le_of_eq (size_release arena handle).symm
  | push entity => exact size_le_size_push arena entity

theorem pairwise_handles (arena : Arena kind α) :
    arena.handles.Pairwise fun first second => first.slot < second.slot := by
  unfold handles
  apply List.Pairwise.filter
  rw [List.pairwise_map]
  exact List.pairwise_lt_range

/-! ## Any number of requests -/

theorem served_append (first second : List (Request kind α)) :
    served (first ++ second) = second.foldl serve (served first) := by
  simp [served, List.foldl_append]

theorem served_concat (requests : List (Request kind α)) (request : Request kind α) :
    served (requests ++ [request]) = (served requests).serve request :=
  served_append requests [request]

theorem wellFormed_served (requests : List (Request kind α)) : (served requests).WellFormed := by
  induction requests using List.reverseRecOn with
  | nil => exact wellFormed_empty
  | append_singleton requests request ih =>
      rw [served_concat]
      exact ih.serve request

theorem size_served_le (first second : List (Request kind α)) :
    (served first).size ≤ (served (first ++ second)).size := by
  induction second using List.reverseRecOn with
  | nil => rw [List.append_nil]
  | append_singleton second request ih =>
      rw [← List.append_assoc, served_concat]
      exact Nat.le_trans ih (size_le_size_serve _ request)

/-- One request more does not change which slot was freed last, if the slots are still empty. -/
theorem FreedLast.concat {handle : Handle kind} {slots : Nat → Prop}
    (hfreed : FreedLast requests handle slots) (request : Request kind α)
    (hempty : ∀ slot, slots slot → (served (requests ++ [request])).IsEmpty slot) :
    FreedLast (requests ++ [request]) handle slots := by
  obtain ⟨earlier, later, rfl, hlive, hsince⟩ := hfreed
  refine ⟨earlier, later ++ [request], by simp, hlive, ?_⟩
  intro slot hslot since hprefix
  rcases List.prefix_concat_iff.1 hprefix with rfl | hbefore
  · simpa using hempty slot hslot
  · exact hsince slot hslot since hbefore

/-- The free list is in the order in which its slots were freed, the last in front. -/
theorem freedLast_of_suffix {slot : Nat} {rest : List Nat}
    (hsuffix : slot :: rest <:+ (served requests).free) :
    FreedLast requests ⟨slot⟩ (· ∈ slot :: rest) := by
  induction requests using List.reverseRecOn with
  | nil => exact absurd (List.suffix_nil.1 hsuffix) (List.cons_ne_nil _ _)
  | append_singleton requests request ih =>
      have hempty : ∀ other, other ∈ slot :: rest →
          (served (requests ++ [request])).IsEmpty other := by
        intro other hother
        exact ((wellFormed_served _).mem_free_iff other).1 (hsuffix.subset hother)
      rw [served_concat] at hsuffix
      cases request with
      | push entity =>
          refine FreedLast.concat (ih ?_) _ hempty
          cases hfree : (served requests).free with
          | nil =>
              rw [serve, push_of_free_eq_nil hfree] at hsuffix
              simp [hfree] at hsuffix
          | cons first others =>
              rw [serve, push_of_free_eq_cons hfree] at hsuffix
              exact hsuffix.trans (List.suffix_cons first others)
      | release handle =>
          cases hget : (served requests).get? handle with
          | none =>
              rw [serve, release_of_get?_eq_none hget] at hsuffix
              exact FreedLast.concat (ih hsuffix) _ hempty
          | some entity =>
              rw [serve, release_of_get?_eq_some hget] at hsuffix
              rcases List.suffix_cons_iff.1 hsuffix with hall | hbefore
              · obtain ⟨rfl, rfl⟩ := List.cons.inj hall
                refine ⟨requests, [], rfl, isLive_iff.2 ⟨entity, hget⟩, ?_⟩
                intro other hother since hprefix
                rw [List.prefix_nil.1 hprefix]
                exact hempty other hother
              · exact FreedLast.concat (ih hbefore) _ hempty

theorem freedLast_push (entity : α) (hfree : (served requests).free ≠ []) :
    FreedLast requests ((served requests).push entity).1 (served requests).IsEmpty := by
  obtain ⟨slot, rest, hcons⟩ := List.exists_cons_of_ne_nil hfree
  have hsuffix : slot :: rest <:+ (served requests).free := ⟨[], hcons.symm⟩
  obtain ⟨earlier, later, hsplit, hlive, hsince⟩ := freedLast_of_suffix hsuffix
  rw [push_of_free_eq_cons hcons]
  refine ⟨earlier, later, hsplit, hlive, ?_⟩
  intro other hempty
  apply hsince
  rw [← hcons]
  exact ((wellFormed_served requests).mem_free_iff other).2 hempty

theorem liveCount_le_size (arena : Arena kind α) : arena.liveCount ≤ arena.size :=
  Nat.sub_le _ _

/-- An arena had all its slots in use when it came to its size. -/
theorem exists_full (requests : List (Request kind α)) :
    ∃ earlier, earlier <+: requests ∧ (served earlier).liveCount = (served requests).size := by
  induction requests using List.reverseRecOn with
  | nil => exact ⟨[], List.prefix_rfl, rfl⟩
  | append_singleton requests request ih =>
      obtain ⟨earlier, hprefix, hfull⟩ := ih
      have hlonger := hprefix.trans (List.prefix_append requests [request])
      cases request with
      | release handle =>
          refine ⟨earlier, hlonger, ?_⟩
          rw [served_concat, serve, size_release, hfull]
      | push entity =>
          cases hfree : (served requests).free with
          | nil =>
              refine ⟨requests ++ [.push entity], List.prefix_rfl, ?_⟩
              rw [served_concat, serve, push_of_free_eq_nil hfree, liveCount]
              simp [hfree]
          | cons slot rest =>
              refine ⟨earlier, hlonger, ?_⟩
              rw [served_concat, serve, push_of_free_eq_cons hfree, hfull]
              simp [size]

/-- Whatever an arena is asked for, the free list holds each empty slot once.  An entity goes
into the slot that was freed last, and only if there is none into a new one; and there have
never been more slots than were needed. -/
theorem slots_served (requests : List (Request kind α)) :
    let arena := served requests
    (arena.free.Nodup ∧ ∀ slot, slot ∈ arena.free ↔ arena.IsEmpty slot) ∧
    (arena.handles.Pairwise (fun first second => first.slot < second.slot) ∧
      ∀ handle, handle ∈ arena.handles ↔ arena.isLive handle = true) ∧
    arena.liveCount = arena.handles.length ∧
    IsGreatest {count | ∃ earlier, earlier <+: requests ∧
      count = (served earlier).handles.length} arena.size ∧
    (∀ entity,
      arena.Takes entity (arena.push entity).1 (arena.push entity).2 ∧
      ((∃ slot, arena.IsEmpty slot) →
        FreedLast requests (arena.push entity).1 arena.IsEmpty ∧
          (arena.push entity).2.size = arena.size) ∧
      ((∀ slot, ¬arena.IsEmpty slot) →
        (arena.push entity).1.slot = arena.size ∧
          (arena.push entity).2.size = arena.size + 1)) ∧
    ∀ handle, arena.Frees handle (arena.release handle).1 (arena.release handle).2 := by
  intro arena
  have harena : arena.WellFormed := wellFormed_served requests
  refine ⟨⟨harena.nodup_free, harena.mem_free_iff⟩, ⟨pairwise_handles arena, fun _ => mem_handles⟩,
    harena.liveCount_eq, ⟨?_, ?_⟩, ?_, frees_release arena⟩
  · obtain ⟨earlier, hprefix, hfull⟩ := exists_full requests
    refine ⟨earlier, hprefix, ?_⟩
    rw [← (wellFormed_served earlier).liveCount_eq, hfull]
  · rintro count ⟨earlier, ⟨later, rfl⟩, rfl⟩
    rw [← (wellFormed_served earlier).liveCount_eq]
    exact Nat.le_trans (liveCount_le_size _) (size_served_le earlier later)
  · intro entity
    refine ⟨harena.takes entity, ?_, ?_⟩
    · rintro ⟨slot, hslot⟩
      have hfree : arena.free ≠ [] := List.ne_nil_of_mem ((harena.mem_free_iff slot).2 hslot)
      obtain ⟨first, rest, hcons⟩ := List.exists_cons_of_ne_nil hfree
      refine ⟨freedLast_push entity hfree, ?_⟩
      rw [push_of_free_eq_cons hcons]
      simp [size]
    · intro hnone
      have hfree : arena.free = [] := by
        rw [List.eq_nil_iff_forall_not_mem]
        intro slot hslot
        exact hnone slot ((harena.mem_free_iff slot).1 hslot)
      rw [push_of_free_eq_nil hfree]
      simp [size]

example : ((served [.push 'a', .push 'b', .release ⟨0⟩, .release ⟨1⟩, .release ⟨0⟩] :
    Arena .string Char).push 'c').1 = ⟨1⟩ := rfl

end Arena

end ManagedHeap
