import ManagedHeap.Proofs.ArrayChanges

/-!
# New arrays

A new array has the empty body and no store.  An array of given elements or of a
given capacity is a new array that moves into its first store at once.  If there is
no such store to be had, the array stays empty.
-/

namespace ManagedHeap

def ArrayRecord.ofTag (tag : UInt32) : ArrayRecord :=
  .new (some (.ordinary arrayPrototype)) tag

namespace Heap

variable {heap : Heap}

/-! ## The empty array -/

def withArray (heap : Heap) (record : ArrayRecord) : Heap :=
  { heap with arrays := (heap.arrays.push record).2 }

def nextArray (heap : Heap) (record : ArrayRecord) : ArrayHandle :=
  (heap.arrays.push record).1

variable {record : ArrayRecord}

theorem get?_nextArray (hsound : heap.Sound) (record : ArrayRecord) :
    heap.arrays.get? (heap.nextArray record) = none :=
  Arena.get?_push_fst hsound.arenas.arrays record

theorem get?_withArray_self (hsound : heap.Sound) (record : ArrayRecord) :
    (heap.withArray record).arrays.get? (heap.nextArray record) = some record :=
  Arena.get?_push_self hsound.arenas.arrays record

theorem get?_withArray_of_ne {other : ArrayHandle} (hne : other ≠ heap.nextArray record) :
    (heap.withArray record).arrays.get? other = heap.arrays.get? other :=
  Arena.get?_push_of_ne hne

theorem holds_withArray_self (hsound : heap.Sound) (tag : UInt32) :
    (heap.withArray (.ofTag tag)).Holds (heap.nextArray (.ofTag tag)) (.ofTag tag) .empty := by
  refine ⟨get?_withArray_self hsound _, rfl, Body.fits_empty, fun _ => rfl, ?_, ?_⟩
  · intro store hstore
    simp [ArrayRecord.ofTag, ArrayRecord.new] at hstore
  · intro hstore
    exact absurd rfl hstore

theorem holds_withArray_of_holds (hsound : heap.Sound) {array : ArrayHandle}
    {arrayRecord : ArrayRecord} {body : Body} (hholds : heap.Holds array arrayRecord body) :
    (heap.withArray record).Holds array arrayRecord body := by
  refine ⟨?_, hholds.window_eq, hholds.fits, hholds.eq_empty, hholds.stores_eq,
    hholds.size_pos⟩
  rw [get?_withArray_of_ne]
  · exact hholds.get?_eq
  · intro heq
    have hget := hholds.get?_eq
    rw [heq, get?_nextArray hsound record] at hget
    contradiction

theorem owns_withArray_iff (hsound : heap.Sound) (tag : UInt32) {array : ArrayHandle}
    {store : StoreHandle} :
    (heap.withArray (.ofTag tag)).Owns array store ↔ heap.Owns array store := by
  unfold Owns
  by_cases harray : array = heap.nextArray (.ofTag tag)
  · rw [harray, get?_withArray_self hsound, get?_nextArray hsound]
    simp [ArrayRecord.ofTag, ArrayRecord.new]
  · rw [get?_withArray_of_ne harray]

theorem sound_withArray (hsound : heap.Sound) (tag : UInt32) :
    (heap.withArray (.ofTag tag)).Sound := by
  have harenas := hsound.arenas
  apply Sound.of_holds
  · exact ⟨harenas.arrays.push _, harenas.objects, harenas.closures, harenas.numbers,
      harenas.strings, harenas.stores⟩
  · constructor
    · intro first second store hfirst hsecond
      rw [owns_withArray_iff hsound] at hfirst hsecond
      exact hsound.ownership.owner_unique hfirst hsecond
    · intro array store howned
      rw [owns_withArray_iff hsound] at howned
      exact hsound.ownership.owned_live howned
    · intro store hlive
      obtain ⟨array, howned⟩ := hsound.ownership.live_owned hlive
      exact ⟨array, (owns_withArray_iff hsound tag).2 howned⟩
  · intro array arrayRecord hget
    by_cases harray : array = heap.nextArray (.ofTag tag)
    · rw [harray, get?_withArray_self hsound, Option.some.injEq] at hget
      rw [harray, ← hget]
      exact ⟨.empty, holds_withArray_self hsound tag⟩
    · rw [get?_withArray_of_ne harray] at hget
      obtain ⟨body, hbody⟩ := hsound.exists_holds hget
      exact ⟨body, holds_withArray_of_holds hsound hbody⟩

end Heap

/-! ## The first store -/

namespace Body

def reserve (options : Options) (capacity : Nat) : Change :=
  if capacity = 0 then .settle .empty
  else .moving options [] (0 + capacity) ⟨0, capacity, []⟩

def ofElements (options : Options) (elements : List Value) : Change :=
  if elements = [] then .settle .empty
  else .moving options [] (0 + elements.length) ⟨0, elements.length, elements⟩

variable {options : Options}

theorem suits_reserve (capacity : Nat) : (reserve options capacity).Suits .empty := by
  unfold reserve
  split
  · exact ⟨fits_empty, rfl⟩
  · apply Change.suits_moving
    · intro hroom
      exact ⟨Nat.zero_le capacity, hroom⟩
    · change 0 < 0 + capacity
      omega

theorem suits_ofElements (elements : List Value) :
    (ofElements options elements).Suits .empty := by
  unfold ofElements
  split
  · exact ⟨fits_empty, rfl⟩
  · rename_i hne
    have hpos := List.length_pos_iff.2 hne
    apply Change.suits_moving
    · intro hroom
      exact ⟨Nat.le_refl _, hroom⟩
    · change 0 < 0 + elements.length
      omega

/-- The store is the same whatever the policy, if there is one to be had. -/
theorem reserve_eq_of_granted (capacity : Nat)
    (hgranted : (reserve options capacity).refusal? = none) :
    reserve options capacity =
      if capacity = 0 then .settle .empty else .move [] ⟨0, capacity, []⟩ := by
  unfold reserve at hgranted ⊢
  by_cases hzero : capacity = 0
  · rw [if_pos hzero, if_pos hzero]
  · rw [if_neg hzero, Change.refusal?_moving] at hgranted
    rw [if_neg hzero, if_neg hzero, Change.moving_of_none hgranted]

theorem ofElements_eq_of_granted (elements : List Value)
    (hgranted : (ofElements options elements).refusal? = none) :
    ofElements options elements =
      if elements = [] then .settle .empty
      else .move [] ⟨0, elements.length, elements⟩ := by
  unfold ofElements at hgranted ⊢
  by_cases hnil : elements = []
  · rw [if_pos hnil, if_pos hnil]
  · rw [if_neg hnil, Change.refusal?_moving] at hgranted
    rw [if_neg hnil, if_neg hnil, Change.moving_of_none hgranted]

theorem discreet_reserve (capacity : Nat) : (reserve options capacity).Discreet := by
  unfold reserve
  split
  · simp [Change.Discreet, Change.notices]
  · simp [Change.Discreet]

theorem discreet_ofElements (elements : List Value) :
    (ofElements options elements).Discreet := by
  unfold ofElements
  split
  · simp [Change.Discreet, Change.notices]
  · simp [Change.Discreet]

end Body

def Agent.withArray (agent : Agent) (tag : UInt32) : Agent :=
  { agent with heap := agent.heap.withArray (.ofTag tag) }

namespace ArrayHandle

open ManagedHeap.Action

theorem perform_newArray (tag : UInt32) (agent : Agent) :
    (newArray tag).perform agent =
      (.ok (agent.heap.nextArray (.ofTag tag)), agent.withArray tag) := rfl

/-- An array with room for a number of elements. -/
theorem perform_withCapacity {agent : Agent} (hsound : agent.heap.Sound) (capacity : Nat)
    (tag : UInt32) :
    (withCapacity capacity tag).perform agent =
      (Body.reserve agent.options capacity).carryOut (agent.heap.nextArray (.ofTag tag))
        (.ofTag tag) (agent.heap.nextArray (.ofTag tag)) (agent.withArray tag) := by
  have hholds := Heap.holds_withArray_self hsound tag
  have hsoundAfter := Heap.sound_withArray hsound tag
  unfold withCapacity Body.reserve
  rw [perform_bind, perform_newArray, andThen_ok]
  by_cases hzero : capacity = 0
  · rw [if_pos hzero, carryOut_settle_self hholds, if_neg (by omega)]
    rfl
  · have hreallocate := @perform_reallocate _ _ _ (agent.withArray tag) hsoundAfter hholds
      ⟨0, capacity, []⟩ (Nat.zero_le capacity) rfl
    simp only at hreallocate
    rw [if_pos (by omega), if_neg hzero, perform_bind, hreallocate]
    exact carryOut_andThen_pure _ _

/-- Filling an array that has just as much room as there are elements. -/
theorem perform_fillEmpty (agent : Agent) {array : ArrayHandle} {record : ArrayRecord}
    {elements : List Value}
    (hholds : agent.heap.Holds array record ⟨0, elements.length, []⟩) :
    (do
      let record ← read fun heap => heap.arrayRecord array
      replaceRange record 0 elements.length fun _ => elements.toArray
      setWindow array { record.window with length := elements.length }
      pure array : Action ArrayHandle).perform agent =
      (.ok array, agent.reshape array record ⟨0, elements.length, elements⟩) := by
  let body : Body := ⟨0, elements.length, []⟩
  have hlength : body.elements.length ≤ body.capacity := Nat.zero_le _
  have hinside : elements.length ≤ body.slots.size := by
    rw [Body.size_slots hlength]
    exact Nat.le_of_eq (Nat.zero_add _).symm
  have hfilled : overwrite body.slots 0 elements.toArray =
      Body.slots ⟨0, elements.length, elements⟩ := by
    rw [Body.slots_of_elements_eq_nil rfl]
    exact Body.overwrite_replicate 0 elements.length (Nat.le_refl _)
  have hwindow : { record.window with length := elements.length } =
      Body.window ⟨0, elements.length, elements⟩ := by
    rw [hholds.window_eq]
    rfl
  rw [perform_bind, perform_read, hholds.arrayRecord_eq, andThen_ok, perform_bind,
    perform_replaceRange agent hholds.storeOf_eq hinside, andThen_ok, perform_bind,
    perform_setWindow, andThen_ok, perform_pure, hwindow, hfilled]
  rfl

/-- An array of given elements. -/
theorem perform_literal {agent : Agent} (hsound : agent.heap.Sound) (elements : List Value)
    (tag : UInt32) :
    (literal elements.toArray tag).perform agent =
      (Body.ofElements agent.options elements).carryOut (agent.heap.nextArray (.ofTag tag))
        (.ofTag tag) (agent.heap.nextArray (.ofTag tag)) (agent.withArray tag) := by
  have hholds := Heap.holds_withArray_self hsound tag
  have hsoundAfter := Heap.sound_withArray hsound tag
  unfold literal Body.ofElements
  rw [perform_bind, perform_newArray, andThen_ok]
  by_cases hnil : elements = []
  · rw [if_pos hnil, carryOut_settle_self hholds, if_pos (by simp [hnil])]
    rfl
  · rw [if_neg hnil, if_neg (by simpa using hnil), perform_bind, List.size_toArray]
    have hpos := List.length_pos_iff.2 hnil
    have hreallocate := @perform_reallocate _ _ _ (agent.withArray tag) hsoundAfter hholds
      ⟨0, elements.length, []⟩ (Nat.zero_le elements.length) rfl
    simp only at hreallocate
    rw [hreallocate]
    apply Change.moving_andThen hsoundAfter hholds
    · intro hroom
      exact ⟨Nat.zero_le elements.length, hroom⟩
    · change 0 < 0 + elements.length
      omega
    · rw [@Body.size_slots ⟨0, elements.length, elements⟩ (Nat.le_refl _),
        @Body.size_slots ⟨0, elements.length, []⟩ (Nat.zero_le _)]
    · intro after movedRecord hmoved
      exact perform_fillEmpty after hmoved

end ArrayHandle

end ManagedHeap
