import ManagedHeap.Arena

/-!
# Lemmas about arenas

What each operation does to `get?`.  Releasing and changing an entity say so for
any arena.  Pushing one relies on the free list, and keeps it in order: it holds
each empty slot exactly once and nothing else.
-/

namespace ManagedHeap

namespace Arena

variable {kind : Kind} {α : Type}

/-- The free list holds each empty slot exactly once and nothing else. -/
structure WellFormed (arena : Arena kind α) : Prop where
  mem_free_iff : ∀ slot, slot ∈ arena.free ↔ arena.slots[slot]? = some none
  nodup_free : arena.free.Nodup

theorem deref_eq_ok_iff {arena : Arena kind α} {handle : Handle kind} {entity : α} :
    arena.deref handle = .ok entity ↔ arena.get? handle = some entity := by
  unfold deref get?
  rcases arena.slots[handle.slot]? with _ | _ | stored <;> simp

theorem deref_eq_error_iff {arena : Arena kind α} {handle : Handle kind} {cause : Fault} :
    arena.deref handle = .error cause ↔
      (arena.size ≤ handle.slot ∧ cause = .handleOutOfBounds) ∨
        (arena.slots[handle.slot]? = some none ∧ cause = .slotEmpty) := by
  unfold deref size
  rcases hslot : arena.slots[handle.slot]? with _ | _ | stored
  · have hsize := Array.getElem?_eq_none_iff.1 hslot
    simp [hsize, eq_comm]
  · obtain ⟨hsize, _⟩ := Array.getElem?_eq_some_iff.1 hslot
    simp [Nat.not_le.2 hsize, eq_comm]
  · obtain ⟨hsize, _⟩ := Array.getElem?_eq_some_iff.1 hslot
    simp [Nat.not_le.2 hsize]

/-- An empty slot is one inside the arena in which there is no entity. -/
theorem slots_eq_some_none_iff (arena : Arena kind α) (handle : Handle kind) :
    arena.slots[handle.slot]? = some none ↔
      handle.slot < arena.size ∧ arena.get? handle = none := by
  unfold get? size
  rcases hslot : arena.slots[handle.slot]? with _ | _ | stored
  · have hsize := Array.getElem?_eq_none_iff.1 hslot
    simp [Nat.not_lt.2 hsize]
  · obtain ⟨hsize, _⟩ := Array.getElem?_eq_some_iff.1 hslot
    simp [hsize]
  · simp

theorem deref_of_get?_eq_none {arena : Arena kind α} {handle : Handle kind}
    (hget : arena.get? handle = none) : ∃ cause, arena.deref handle = .error cause := by
  cases hderef : arena.deref handle with
  | error cause => exact ⟨cause, rfl⟩
  | ok entity =>
      rw [deref_eq_ok_iff.1 hderef] at hget
      contradiction

theorem isLive_iff {arena : Arena kind α} {handle : Handle kind} :
    arena.isLive handle = true ↔ ∃ entity, arena.get? handle = some entity := by
  simp [isLive, Option.isSome_iff_exists]

theorem slot_lt_size_of_get? {arena : Arena kind α} {handle : Handle kind} {entity : α}
    (hget : arena.get? handle = some entity) : handle.slot < arena.size := by
  have hslot : arena.slots[handle.slot]? = some (some entity) := by
    simpa [get?, Option.join_eq_some_iff] using hget
  exact (Array.getElem?_eq_some_iff.1 hslot).1

theorem mem_handles {arena : Arena kind α} {handle : Handle kind} :
    handle ∈ arena.handles ↔ arena.isLive handle = true := by
  unfold handles
  rw [List.mem_filter]
  constructor
  · exact fun h => h.2
  · intro hlive
    obtain ⟨entity, hget⟩ := isLive_iff.1 hlive
    exact ⟨List.mem_map.2 ⟨handle.slot, List.mem_range.2 (slot_lt_size_of_get? hget), rfl⟩, hlive⟩

/-! ## Changing an entity -/

@[simp] theorem size_modify (arena : Arena kind α) (handle : Handle kind) (change : α → α) :
    (arena.modify handle change).size = arena.size := by
  simp [modify, size]

@[simp] theorem get?_modify_self (arena : Arena kind α) (handle : Handle kind)
    (change : α → α) :
    (arena.modify handle change).get? handle = (arena.get? handle).map change := by
  simp only [modify, get?, Array.getElem?_modify]
  rcases arena.slots[handle.slot]? with _ | _ | stored <;> simp

theorem get?_modify_of_ne (arena : Arena kind α) {handle other : Handle kind}
    (change : α → α) (hne : other ≠ handle) :
    (arena.modify handle change).get? other = arena.get? other := by
  have hslot : handle.slot ≠ other.slot := fun h => hne (by cases handle; cases other; simp_all)
  simp [modify, get?, Array.getElem?_modify, hslot]

theorem deref_modify_self (arena : Arena kind α) (handle : Handle kind) (change : α → α) :
    (arena.modify handle change).deref handle = (arena.deref handle).map change := by
  simp only [modify, deref, Array.getElem?_modify]
  rcases arena.slots[handle.slot]? with _ | _ | stored <;> simp [Except.map]

theorem deref_modify_of_ne (arena : Arena kind α) {handle other : Handle kind}
    (change : α → α) (hne : other ≠ handle) :
    (arena.modify handle change).deref other = arena.deref other := by
  have hslot : handle.slot ≠ other.slot := fun h => hne (by cases handle; cases other; simp_all)
  simp [modify, deref, Array.getElem?_modify, hslot]

theorem WellFormed.modify {arena : Arena kind α} (harena : arena.WellFormed)
    (handle : Handle kind) (change : α → α) : (arena.modify handle change).WellFormed where
  mem_free_iff slot := by
    have hfree := harena.mem_free_iff slot
    simp only [Arena.modify, Array.getElem?_modify]
    rw [hfree]
    split
    · rcases arena.slots[slot]? with _ | _ | stored <;> simp
    · rfl
  nodup_free := harena.nodup_free

/-- A change counts only for what it does to the entity that is there. -/
theorem modify_congr {arena : Arena kind α} {handle : Handle kind} {entity : α}
    {first second : α → α} (hget : arena.get? handle = some entity)
    (heq : first entity = second entity) :
    arena.modify handle first = arena.modify handle second := by
  have hslot : arena.slots[handle.slot]? = some (some entity) := by
    simpa [get?, Option.join_eq_some_iff] using hget
  have hslots :
      arena.slots.modify handle.slot (Option.map first) =
        arena.slots.modify handle.slot (Option.map second) := by
    apply Array.ext_getElem?
    intro slot
    rw [Array.getElem?_modify, Array.getElem?_modify]
    by_cases hslotEq : handle.slot = slot
    · subst hslotEq
      rw [if_pos rfl, if_pos rfl, hslot]
      simp [heq]
    · rw [if_neg hslotEq, if_neg hslotEq]
  simp only [modify, hslots]

theorem modify_eq_self {arena : Arena kind α} {handle : Handle kind} {entity : α}
    {change : α → α} (hget : arena.get? handle = some entity)
    (heq : change entity = entity) : arena.modify handle change = arena := by
  have hid : arena.modify handle change = arena.modify handle id := modify_congr hget heq
  rw [hid]
  simp only [modify, Option.map_id]
  congr 1
  apply Array.ext_getElem?
  intro slot
  rw [Array.getElem?_modify]
  split <;> simp

theorem modify_modify (arena : Arena kind α) (handle : Handle kind) (first second : α → α) :
    (arena.modify handle first).modify handle second =
      arena.modify handle (second ∘ first) := by
  simp only [modify]
  congr 1
  apply Array.ext_getElem?
  intro slot
  simp only [Array.getElem?_modify]
  split <;> simp

/-! ## Releasing an entity -/

@[simp] theorem size_release (arena : Arena kind α) (handle : Handle kind) :
    (arena.release handle).2.size = arena.size := by
  unfold release
  split <;> simp [size]

theorem release_fst (arena : Arena kind α) (handle : Handle kind) :
    (arena.release handle).1 = arena.get? handle := by
  unfold release
  split <;> simp_all

theorem release_of_get?_eq_none {arena : Arena kind α} {handle : Handle kind}
    (hget : arena.get? handle = none) : arena.release handle = (none, arena) := by
  unfold release
  rw [hget]

@[simp] theorem get?_release_self (arena : Arena kind α) (handle : Handle kind) :
    (arena.release handle).2.get? handle = none := by
  unfold release
  split
  · assumption
  · simp only [get?, Array.getElem?_setIfInBounds, if_true]
    split <;> rfl

theorem get?_release_of_ne (arena : Arena kind α) {handle other : Handle kind}
    (hne : other ≠ handle) :
    (arena.release handle).2.get? other = arena.get? other := by
  have hslot : handle.slot ≠ other.slot := fun h => hne (by cases handle; cases other; simp_all)
  unfold release
  split
  · rfl
  · simp [get?, hslot]

theorem WellFormed.release {arena : Arena kind α} (harena : arena.WellFormed)
    (handle : Handle kind) : (arena.release handle).2.WellFormed := by
  rcases hget : arena.get? handle with _ | entity
  · rw [release_of_get?_eq_none hget]
    exact harena
  · have hsize := slot_lt_size_of_get? hget
    have hslot : arena.slots[handle.slot]? = some (some entity) := by
      simpa [get?, Option.join_eq_some_iff] using hget
    have hfresh : handle.slot ∉ arena.free := by
      rw [harena.mem_free_iff, hslot]
      simp
    unfold Arena.release
    rw [hget]
    constructor
    · intro slot
      simp only [List.mem_cons, Array.getElem?_setIfInBounds]
      by_cases heq : handle.slot = slot
      · subst heq
        simp only [true_or, if_true, true_iff]
        exact if_pos hsize
      · rw [if_neg heq, ← harena.mem_free_iff]
        exact ⟨fun h => h.resolve_left (Ne.symm heq), Or.inr⟩
    · exact List.nodup_cons.2 ⟨hfresh, harena.nodup_free⟩

theorem release_modify_of_ne (arena : Arena kind α) {handle other : Handle kind}
    (change : α → α) (hne : other ≠ handle) :
    (arena.release handle).2.modify other change =
      ((arena.modify other change).release handle).2 := by
  have hslot : other.slot ≠ handle.slot := by
    intro hslot
    exact hne (by cases handle; cases other; simp_all)
  have hkeep := get?_modify_of_ne arena change (Ne.symm hne)
  unfold release
  rw [hkeep]
  rcases arena.get? handle with _ | entity
  · rfl
  · simp only [modify]
    congr 1
    apply Array.ext_getElem?
    intro slot
    simp only [Array.getElem?_modify, Array.getElem?_setIfInBounds, Array.size_modify]
    by_cases hhandle : handle.slot = slot
    · subst hhandle
      rw [if_neg hslot, if_pos rfl]
      simp
    · rw [if_neg hhandle, if_neg hhandle]

/-! ## Pushing an entity -/

theorem wellFormed_empty : (empty : Arena kind α).WellFormed where
  mem_free_iff slot := by simp [empty]
  nodup_free := List.nodup_nil

theorem wellFormed_ofList (entities : List α) :
    (ofList entities : Arena kind α).WellFormed where
  mem_free_iff slot := by
    simp only [ofList, List.not_mem_nil, false_iff, List.getElem?_toArray, List.getElem?_map]
    rcases entities[slot]? <;> simp
  nodup_free := List.nodup_nil

theorem size_le_size_push (arena : Arena kind α) (entity : α) :
    arena.size ≤ (arena.push entity).2.size := by
  unfold push
  split <;> simp [size]

/-- A pushed entity goes where there was none. -/
theorem get?_push_fst {arena : Arena kind α} (harena : arena.WellFormed) (entity : α) :
    arena.get? (arena.push entity).1 = none := by
  unfold push
  split
  · simp [get?, size]
  · rename_i slot rest hfree
    have hslot := (harena.mem_free_iff slot).1 (by simp [hfree])
    simp [get?, hslot]

theorem get?_push_self {arena : Arena kind α} (harena : arena.WellFormed) (entity : α) :
    (arena.push entity).2.get? (arena.push entity).1 = some entity := by
  unfold push
  split
  · simp [get?, size]
  · rename_i slot rest hfree
    have hslot := (harena.mem_free_iff slot).1 (by simp [hfree])
    obtain ⟨hsize, _⟩ := Array.getElem?_eq_some_iff.1 hslot
    simp [get?, hsize]

theorem get?_push_of_ne {arena : Arena kind α} {entity : α} {other : Handle kind}
    (hne : other ≠ (arena.push entity).1) :
    (arena.push entity).2.get? other = arena.get? other := by
  revert hne
  unfold push
  split
  · intro hne
    have hslot : other.slot ≠ arena.slots.size := fun h => hne (by cases other; simp_all [size])
    simp [get?, Array.getElem?_push, hslot]
  · rename_i slot rest _
    intro hne
    have hslot : slot ≠ other.slot := fun h => hne (by cases other; simp_all)
    simp [get?, hslot]

/-- Where an entity goes does not depend on the entity. -/
theorem push_fst_congr (arena : Arena kind α) (first second : α) :
    (arena.push first).1 = (arena.push second).1 := by
  unfold push
  split <;> rfl

theorem push_modify {arena : Arena kind α} (harena : arena.WellFormed) (entity : α)
    (change : α → α) :
    (arena.push entity).2.modify (arena.push entity).1 change =
      (arena.push (change entity)).2 := by
  unfold push
  split
  · simp only [modify]
    congr 1
    apply Array.ext_getElem?
    intro slot
    simp only [Array.getElem?_modify, Array.getElem?_push, size]
    by_cases hslot : slot = arena.slots.size
    · simp [hslot]
    · rw [if_neg (Ne.symm hslot), if_neg hslot, if_neg hslot]
  · rename_i slot rest hfree
    have hempty := (harena.mem_free_iff slot).1 (by simp [hfree])
    obtain ⟨hsize, _⟩ := Array.getElem?_eq_some_iff.1 hempty
    simp only [modify]
    congr 1
    apply Array.ext_getElem?
    intro other
    simp only [Array.getElem?_modify, Array.getElem?_setIfInBounds]
    by_cases hother : slot = other
    · subst hother
      simp [hsize]
    · simp [hother]

theorem WellFormed.push {arena : Arena kind α} (harena : arena.WellFormed) (entity : α) :
    (arena.push entity).2.WellFormed := by
  unfold Arena.push
  split
  · rename_i hfree
    constructor
    · intro slot
      have hslot := harena.mem_free_iff slot
      rw [hfree] at hslot
      simp only [hfree, Array.getElem?_push]
      split
      · simp
      · exact hslot
    · rw [hfree]
      exact List.nodup_nil
  · rename_i first rest hfree
    have hnodup := harena.nodup_free
    rw [hfree, List.nodup_cons] at hnodup
    constructor
    · intro slot
      have hslot := harena.mem_free_iff slot
      rw [hfree, List.mem_cons] at hslot
      simp only [Array.getElem?_setIfInBounds]
      by_cases heq : first = slot
      · subst heq
        simp only [if_true, hnodup.1, false_iff]
        split <;> simp
      · rw [if_neg heq, ← hslot]
        exact ⟨Or.inr, fun h => h.resolve_left (Ne.symm heq)⟩
    · exact hnodup.2

/-! ## Counting the entities -/

/-- The free list holds the unoccupied slots in some order. -/
theorem WellFormed.free_perm {arena : Arena kind α} (harena : arena.WellFormed) :
    arena.free.Perm ((List.range arena.size).filter fun slot => !arena.isLive ⟨slot⟩) := by
  have hrange : (List.range arena.size).Nodup := List.nodup_range
  rw [List.perm_ext_iff_of_nodup harena.nodup_free (hrange.filter _)]
  intro slot
  rw [harena.mem_free_iff, List.mem_filter, List.mem_range, isLive, get?]
  constructor
  · intro hempty
    have hslot : slot < arena.size := (Array.getElem?_eq_some_iff.1 hempty).1
    simp [hslot, hempty]
  · rintro ⟨hslot, hfree⟩
    rw [Array.getElem?_eq_getElem hslot] at hfree ⊢
    cases hentity : arena.slots[slot] with
    | none => rfl
    | some entity => simp [hentity] at hfree

theorem WellFormed.liveCount_eq {arena : Arena kind α} (harena : arena.WellFormed) :
    arena.liveCount = arena.handles.length := by
  have hhandles : arena.handles.length =
      (List.range arena.size).countP fun slot => arena.isLive ⟨slot⟩ := by
    rw [handles, ← List.countP_eq_length_filter, List.countP_map]
    rfl
  have hfree : arena.free.length =
      (List.range arena.size).countP fun slot => !arena.isLive ⟨slot⟩ := by
    rw [harena.free_perm.length_eq, List.countP_eq_length_filter]
  have hsum := List.length_eq_countP_add_countP (l := List.range arena.size)
    fun slot => arena.isLive ⟨slot⟩
  simp only [List.length_range, Bool.not_eq_true, Bool.decide_eq_false] at hsum
  unfold liveCount
  omega

end Arena

end ManagedHeap
