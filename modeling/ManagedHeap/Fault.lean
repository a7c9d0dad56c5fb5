/-!
# Faults

An action on the heap either answers or faults.  This file lists the causes of
a fault and fixes the one text that reports each of them.  Most causes come
from the caller: a handle that names no living entity, or a request for a backing
store that is not to be had.  A stale handle may also name what has taken the slot
since, and by way of it a prototype chain can be closed to a circle, which stands for
a search that never ends.  The last three can only arise from a heap that breaks its
own invariants, and they have a text for completeness.
-/

namespace ManagedHeap

/-- Why a backing store could not be provided. -/
inductive AllocationError where
  /-- More slots were requested than an array length can count. -/
  | capacityOverflow (requested : Nat)
  /-- The memory for the slots could not be had. -/
  | outOfMemory (slots : Nat)
deriving DecidableEq

def AllocationError.message : AllocationError → String
  | .capacityOverflow requested =>
      s!"array capacity overflow: {requested} slots requested"
  | .outOfMemory slots =>
      s!"out of memory allocating a backing store of {slots} slots"

inductive Fault where
  /-- The handle names a slot whose entity has been freed. -/
  | slotEmpty
  /-- The handle names a slot that its arena does not have. -/
  | handleOutOfBounds
  | allocation (error : AllocationError)
  /-- No handle has this slot number.  Arenas do not look at it, see `Arena.push`. -/
  | slotNumberTooLarge
  /-- The largest 32-bit word is set aside and names no slot. -/
  | slotWordReserved
  /-- A prototype chain runs in a circle, and to follow it would take for ever. -/
  | endlessChain
  /-- An array's length, capacity or offset left the range of its word. -/
  | windowOutOfRange
  /-- A position outside a backing store was accessed. -/
  | positionOutOfRange
  /-- An array was to be moved into a store with less room than elements. -/
  | lengthBeyondCapacity
deriving DecidableEq

def Fault.message : Fault → String
  | .slotEmpty => "Heap slot empty"
  | .handleOutOfBounds => "Heap handle out of bounds"
  | .allocation error => error.message
  | .slotNumberTooLarge => "assertion failed: value < u32::MAX as usize"
  | .slotWordReserved => "assertion failed: value != u32::MAX"
  | .endlessChain => "prototype chain without an end"
  | .windowOutOfRange => "array window out of range"
  | .positionOutOfRange => "backing store position out of range"
  | .lengthBeyondCapacity => "array length beyond its capacity"

end ManagedHeap
