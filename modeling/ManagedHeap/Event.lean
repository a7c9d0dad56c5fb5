import ManagedHeap.Handle

/-!
# Events

What an agent reports while it works.  The events about backing stores are a
complete record of their arena: `ManagedHeap.Ledger` replays them.
-/

namespace ManagedHeap

inductive Event where
  | storeAllocated (store : StoreHandle) (slots : Nat)
  /-- The number of slots is missing if the store was gone already. -/
  | storeReleased (store : StoreHandle) (slots : Option Nat)
  | growing (array : ArrayHandle) (capacity newCapacity : Nat)
  | reservingHeadroom (array : ArrayHandle) (capacity headroom : Nat)
  | allocationFailed (error : AllocationError)
  | collectionFinished (freed : ByKind Nat)
deriving DecidableEq

inductive Event.Level where
  | trace
  | debug
  | error
deriving DecidableEq

namespace Event

def Level.name : Level → String
  | .trace => "trace"
  | .debug => "debug"
  | .error => "error"

def level : Event → Level
  | .storeAllocated .. | .storeReleased .. | .growing .. | .reservingHeadroom .. => .trace
  | .collectionFinished _ => .debug
  | .allocationFailed _ => .error

def message : Event → String
  | .storeAllocated .. => "allocated backing store"
  | .storeReleased .. => "released backing store"
  | .growing .. => "growing array backing store"
  | .reservingHeadroom .. => "reserving array headroom"
  | .allocationFailed _ => "array backing store allocation failed"
  | .collectionFinished _ => "garbage collection finished"

def details : Event → List (String × String)
  | .storeAllocated store slots =>
      [("store", toString store.slot), ("slots", toString slots)]
  | .storeReleased store (some slots) =>
      [("store", toString store.slot), ("slots", toString slots)]
  | .storeReleased store none => [("store", toString store.slot)]
  | .growing array capacity newCapacity =>
      [("array", toString array.slot), ("capacity", toString capacity),
        ("new_capacity", toString newCapacity)]
  | .reservingHeadroom array capacity headroom =>
      [("array", toString array.slot), ("capacity", toString capacity),
        ("headroom", toString headroom)]
  | .allocationFailed error => [("error", error.message)]
  | .collectionFinished freed =>
      [("freed_arrays", toString freed.array), ("freed_backing_stores", toString freed.store),
        ("freed_closures", toString freed.closure), ("freed_numbers", toString freed.number),
        ("freed_objects", toString freed.object), ("freed_strings", toString freed.string)]

end Event

end ManagedHeap
