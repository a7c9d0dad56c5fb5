import ManagedHeap.Arena.Lemmas
import ManagedHeap.Growth
import ManagedHeap.Heap

/-!
# Invariants of the heap

What holds of every heap that an agent can bring about, whatever handles its
client uses: how an array lies in its backing store, and who owns which store.
The elements of an array, as a list, are the view that its operations are
described by.
-/

namespace ManagedHeap

/-- How an array lies in its backing store.  Every slot outside the window is
undefined, those in front of it as well as those behind its length. -/
structure ArrayRecord.LiesIn (record : ArrayRecord) (slots : Array Value) : Prop where
  length_le : record.window.length ≤ record.window.capacity
  size_eq : record.window.offset + record.window.capacity = slots.size
  size_pos : 0 < slots.size
  size_le : slots.size ≤ maxCapacity
  undefined_outside : ∀ position < slots.size,
    position < record.window.position 0 ∨
      record.window.position record.window.length ≤ position →
    slots[position]? = some .undefined

namespace Heap

/-- An array without a store shows nothing; any other lies in a store that is there. -/
def Represents (heap : Heap) (record : ArrayRecord) : Prop :=
  match record.store with
  | none => record.window = .empty
  | some store => ∃ slots, heap.stores.get? store = some slots ∧ record.LiesIn slots

/-- The array that a store belongs to. -/
def Owns (heap : Heap) (array : ArrayHandle) (store : StoreHandle) : Prop :=
  ∃ record, heap.arrays.get? array = some record ∧ record.store = some store

structure Ownership (heap : Heap) : Prop where
  owner_unique : ∀ {first second : ArrayHandle} {store : StoreHandle},
    heap.Owns first store → heap.Owns second store → first = second
  owned_live : ∀ {array : ArrayHandle} {store : StoreHandle},
    heap.Owns array store → heap.stores.isLive store = true
  live_owned : ∀ {store : StoreHandle}, heap.stores.isLive store = true →
    ∃ array, heap.Owns array store

structure ArenasWellFormed (heap : Heap) : Prop where
  arrays : heap.arrays.WellFormed
  objects : heap.objects.WellFormed
  closures : heap.closures.WellFormed
  numbers : heap.numbers.WellFormed
  strings : heap.strings.WellFormed
  stores : heap.stores.WellFormed

/-- What holds of a heap whatever its client does. -/
structure Sound (heap : Heap) : Prop where
  arenas : heap.ArenasWellFormed
  represents : ∀ {array : ArrayHandle} {record : ArrayRecord},
    heap.arrays.get? array = some record → heap.Represents record
  ownership : heap.Ownership

/-- The elements of a living array. -/
def elements? (heap : Heap) (array : ArrayHandle) : Option (List Value) := do
  let record ← heap.arrays.get? array
  let slots ←
    match record.store with
    | none => some #[]
    | some store => heap.stores.get? store
  let window := record.window
  some ((List.range window.length).map fun index =>
    slots[window.position index]?.getD .undefined)

theorem arenasWellFormed_fresh : fresh.ArenasWellFormed where
  arrays := Arena.wellFormed_empty
  objects := Arena.wellFormed_ofList _
  closures := Arena.wellFormed_ofList _
  numbers := Arena.wellFormed_empty
  strings := Arena.wellFormed_empty
  stores := Arena.wellFormed_empty

theorem not_owns_fresh (array : ArrayHandle) (store : StoreHandle) :
    ¬fresh.Owns array store := by
  rintro ⟨record, hrecord, _⟩
  simp [fresh, Arena.get?, Arena.empty] at hrecord

theorem sound_fresh : fresh.Sound where
  arenas := arenasWellFormed_fresh
  represents hrecord := by
    simp [fresh, Arena.get?, Arena.empty] at hrecord
  ownership :=
    { owner_unique := fun howns => absurd howns (not_owns_fresh _ _)
      owned_live := fun howns => absurd howns (not_owns_fresh _ _)
      live_owned := fun hlive => by
        simp [fresh, Arena.isLive, Arena.get?, Arena.empty] at hlive }

end Heap

end ManagedHeap
