import ManagedHeap.Collector.Mark
import ManagedHeap.Store

/-!
# Sweeping

Frees every entity that was not marked.  Slots are freed in ascending order
within each arena, so the highest of them is the first to be used again.
Marking is complete before the first slot is freed, and a collection that faults
has changed nothing.
-/

namespace ManagedHeap

/-- The entities that a collection frees. -/
structure Garbage where
  arrays : List ArrayHandle
  objects : List ObjectHandle
  closures : List ClosureHandle
  numbers : List NumberHandle
  strings : List StringHandle
  stores : List StoreHandle

def Garbage.counts (garbage : Garbage) : ByKind Nat where
  array := garbage.arrays.length
  object := garbage.objects.length
  closure := garbage.closures.length
  number := garbage.numbers.length
  string := garbage.strings.length
  store := garbage.stores.length

def Arena.unmarked {kind : Kind} {α : Type} (arena : Arena kind α) (marks : Array Bool) :
    List (Handle kind) :=
  arena.handles.filter fun handle => decide (marks[handle.slot]? ≠ some true)

namespace Heap

def garbage (heap : Heap) (marks : ByKind (Array Bool)) : Garbage where
  arrays := heap.arrays.unmarked marks.array
  objects := heap.objects.unmarked marks.object
  closures := heap.closures.unmarked marks.closure
  numbers := heap.numbers.unmarked marks.number
  strings := heap.strings.unmarked marks.string
  stores := heap.stores.unmarked marks.store

/-- Frees all garbage but the backing stores. -/
def discard (heap : Heap) (garbage : Garbage) : Heap :=
  { heap with
    arrays := heap.arrays.releaseAll garbage.arrays
    objects := heap.objects.releaseAll garbage.objects
    closures := heap.closures.releaseAll garbage.closures
    numbers := heap.numbers.releaseAll garbage.numbers
    strings := heap.strings.releaseAll garbage.strings }

end Heap

namespace Action

/-- Backing stores come last, and the release of each is reported. -/
def sweep (marks : ByKind (Array Bool)) : Action Unit := do
  let garbage ← read fun heap => .ok (heap.garbage marks)
  update fun heap => heap.discard garbage
  garbage.stores.forM fun store => do
    let _ ← releaseStore store
  emit (.collectionFinished garbage.counts)

/-- Frees everything that neither the roots nor the array methods lead to. -/
def collect (roots : List Value) : Action Unit := do
  if (← options).disableCollection then pure ()
  else
    let marks ← read fun heap => heap.mark roots
    sweep marks

end Action

end ManagedHeap
