import ManagedHeap.Agent

/-!
# Backing stores

Allocation and release of backing stores, both of which are reported, and the
move of an array into a new store.  The new store is allocated before the old
one is released, so the two always have different handles, and an array whose
new store is refused stays where it is.
-/

namespace ManagedHeap

/-- Puts `values` over the slots from `start` on. -/
def overwrite (slots : Array Value) (start : Nat) (values : Array Value) : Array Value :=
  slots.extract 0 start ++ values ++ slots.extract (start + values.size) slots.size

theorem size_overwrite {slots values : Array Value} {start : Nat}
    (hfits : start + values.size ≤ slots.size) :
    (overwrite slots start values).size = slots.size := by
  simp only [overwrite, Array.size_append, Array.size_extract]
  omega

theorem getElem?_overwrite {slots values : Array Value} {start : Nat}
    (hfits : start + values.size ≤ slots.size) (position : Nat) :
    (overwrite slots start values)[position]? =
      if start ≤ position ∧ position < start + values.size then values[position - start]?
      else slots[position]? := by
  have hstart : min start slots.size - 0 = start := by omega
  simp only [overwrite, Array.getElem?_append, Array.size_append, Array.size_extract, hstart,
    Array.getElem?_extract]
  by_cases hbefore : position < start
  · have hall : position < start + values.size := by omega
    have hin : ¬(start ≤ position ∧ position < start + values.size) := by omega
    rw [if_neg hin]
    simp [hbefore, hall]
  · by_cases hinside : position < start + values.size
    · have hin : start ≤ position ∧ position < start + values.size := by omega
      simp [hbefore, hinside, hin]
    · have hin : ¬(start ≤ position ∧ position < start + values.size) := by omega
      rw [if_neg hinside, if_neg hin]
      have hposition :
          start + values.size + (position - (start + values.size)) = position := by omega
      by_cases hsize : position < slots.size
      · have hlast : position - (start + values.size) <
            min slots.size slots.size - (start + values.size) := by omega
        rw [if_pos hlast, hposition]
      · have hlast : ¬position - (start + values.size) <
            min slots.size slots.size - (start + values.size) := by omega
        rw [if_neg hlast, Array.getElem?_eq_none (by omega)]

namespace Action

/-- A store of undefined slots, if the allocator grants it. -/
def allocateStore (slots : Nat) : Action StoreHandle := do
  if (← options).grants slots then
    let store ← transform fun heap =>
      let (store, stores) := heap.stores.push (Array.replicate slots .undefined)
      (store, { heap with stores := stores })
    emit (.storeAllocated store slots)
    pure store
  else failAllocation (.outOfMemory slots)

/-- Answers what the store held. -/
def releaseStore (store : StoreHandle) : Action (Option (Array Value)) := do
  let contents ← transform fun heap =>
    let (contents, stores) := heap.stores.release store
    (contents, { heap with stores := stores })
  emit (.storeReleased store (contents.map Array.size))
  pure contents

def changeStore (store : StoreHandle) (change : Array Value → Array Value) : Action Unit :=
  update fun heap => { heap with stores := heap.stores.modify store change }

def changeArray (array : ArrayHandle) (change : ArrayRecord → ArrayRecord) : Action Unit :=
  update fun heap => { heap with arrays := heap.arrays.modify array change }

def setWindow (array : ArrayHandle) (window : Window) : Action Unit :=
  changeArray array fun record => { record with window := window }

/-- Replaces the values in the positions from `first` up to `last`. -/
def replaceRange (record : ArrayRecord) (first last : Nat)
    (change : Array Value → Array Value) : Action Unit := do
  let size ← read fun heap => (heap.storeOf record).map Array.size
  if size < last then throw .positionOutOfRange
  else
    match record.store with
    | none => pure ()
    | some store =>
        changeStore store fun slots =>
          overwrite slots first (change (slots.extract first last))

def write (record : ArrayRecord) (position : Nat) (value : Value) : Action Unit := do
  let size ← read fun heap => (heap.storeOf record).map Array.size
  if size ≤ position then throw .positionOutOfRange
  else
    match record.store with
    | none => pure ()
    | some store => changeStore store fun slots => slots.setIfInBounds position value

/-- Answers the value in one position and leaves the position undefined. -/
def take (record : ArrayRecord) (position : Nat) : Action Value := do
  let value ← read fun heap => do
    match (← heap.storeOf record)[position]? with
    | some value => .ok value
    | none => .error .positionOutOfRange
  write record position .undefined
  pure value

/-- Releases an old store and puts the elements that its window shows into a new
one, behind the headroom. -/
def transfer (old : StoreHandle) (window : Window) (store : StoreHandle)
    (headroom : Nat) : Action Unit := do
  match ← releaseStore old with
  | none => pure ()
  | some contents =>
      let last := window.position window.length
      if contents.size < last then throw .positionOutOfRange
      else
        changeStore store fun slots =>
          overwrite slots headroom (contents.extract window.offset last)

/-- Moves an array into a new store of `headroom + capacity` slots.  Its elements
keep their indices and begin behind the headroom; all other slots are undefined. -/
def reallocate (array : ArrayHandle) (capacity headroom : Nat) : Action Unit := do
  if maxCapacity < headroom + capacity then
    failAllocation (.capacityOverflow (headroom + capacity))
  else
    let record ← read fun heap => heap.arrays.deref array
    if capacity < record.window.length then throw .lengthBeyondCapacity
    else
      let store ← allocateStore (headroom + capacity)
      record.store.forM fun old => transfer old record.window store headroom
      changeArray array fun record =>
        { record with
          window := { record.window with capacity := capacity, offset := headroom }
          store := some store }

def grow (array : ArrayHandle) (required : Nat) : Action Unit := do
  let record ← read fun heap => heap.arrays.deref array
  let capacity := record.window.capacity
  match (← options).growth.grownCapacity capacity required with
  | .error error => failAllocation error
  | .ok newCapacity =>
      emit (.growing array capacity newCapacity)
      reallocate array newCapacity 0

/-- Moves an array to where there is room in front of its elements. -/
def reserveHeadroom (array : ArrayHandle) : Action Unit := do
  let record ← read fun heap => heap.arrays.deref array
  let capacity := record.window.capacity
  let headroom := (← options).growth.headroom record.window.length
  emit (.reservingHeadroom array capacity headroom)
  reallocate array capacity headroom

def requireCapacity (array : ArrayHandle) (required : Nat) : Action Unit := do
  let record ← read fun heap => heap.arrays.deref array
  if record.window.capacity < required then grow array required

def requireHeadroom (array : ArrayHandle) : Action Unit := do
  let record ← read fun heap => heap.arrays.deref array
  if record.window.offset = 0 then reserveHeadroom array

end Action

end ManagedHeap
