import ManagedHeap.Heap

/-!
# Snapshots

Everything that can be read from an object at one moment.
-/

namespace ManagedHeap

structure ArraySnapshot where
  window : Window
  store : Option StoreHandle
  elements : Array Value
  /-- How many slots between the length and the capacity are not undefined. -/
  stale : Nat

structure Snapshot where
  map : ObjectMap
  tag : UInt32
  proto : Option Object
  fields : List Value
  array : Option ArraySnapshot

namespace Heap

def arraySnapshot (heap : Heap) (array : ArrayHandle) : Except Fault ArraySnapshot := do
  let record ← heap.arrays.deref array
  let elements ← heap.slice array
  let slots ← heap.storeOf record
  let window := record.window
  let spare := slots.extract (window.position window.length) (window.position window.capacity)
  .ok
    { window := window
      store := record.store
      elements := elements
      stale := spare.countP fun value => !value.isUndefined }

def snapshot (heap : Heap) (object : Object) : Except Fault Snapshot := do
  let map ← heap.objectMap object
  let header ← heap.header object
  let fields ← (List.range map.fields.length).mapM (heap.field object)
  let array ←
    match object with
    | .ordinary _ => pure none
    | .array array => some <$> heap.arraySnapshot array
  .ok { map := map, tag := header.tag, proto := header.proto, fields := fields, array := array }

end Heap

end ManagedHeap
