import ManagedHeap.Collector.Mark

/-!
# Reachability

What a collection has to keep, said without saying how to find it.  A living
entity refers to others; an array refers to its elements itself, so what else
its backing store holds does not count.
-/

namespace ManagedHeap

namespace Heap

/-- One living entity refers to another, which may have been freed. -/
inductive Refers (heap : Heap) : Entity → Entity → Prop where
  | arrayHeader {array : ArrayHandle} {record : ArrayRecord} {value : Value}
      {target : Entity} (hrecord : heap.arrays.get? array = some record)
      (hvalue : value ∈ record.header.values) (htarget : value.entity? = some target) :
      Refers heap array.entity target
  | arrayStore {array : ArrayHandle} {record : ArrayRecord} {store : StoreHandle}
      (hrecord : heap.arrays.get? array = some record)
      (hstore : record.store = some store) :
      Refers heap array.entity store.entity
  | arrayElement {array : ArrayHandle} {record : ArrayRecord} {store : StoreHandle}
      {slots : Array Value} {index : Nat} {value : Value} {target : Entity}
      (hrecord : heap.arrays.get? array = some record)
      (hstore : record.store = some store) (hslots : heap.stores.get? store = some slots)
      (hindex : index < record.window.length)
      (hvalue : slots[record.window.position index]? = some value)
      (htarget : value.entity? = some target) :
      Refers heap array.entity target
  | objectHeader {object : ObjectHandle} {record : ObjectRecord} {value : Value}
      {target : Entity} (hrecord : heap.objects.get? object = some record)
      (hvalue : value ∈ record.header.values) (htarget : value.entity? = some target) :
      Refers heap object.entity target
  | objectField {object : ObjectHandle} {record : ObjectRecord} {value : Value}
      {target : Entity} (hrecord : heap.objects.get? object = some record)
      (hvalue : value ∈ record.fields) (htarget : value.entity? = some target) :
      Refers heap object.entity target
  | closureEnv {closure : ClosureHandle} {record : ClosureRecord} {target : Entity}
      (hrecord : heap.closures.get? closure = some record)
      (htarget : record.env.entity? = some target) :
      Refers heap closure.entity target

/-- An entity that the roots or the array methods lead to. -/
inductive Reaches (heap : Heap) (roots : List Value) : Entity → Prop where
  | root {value : Value} {target : Entity} (hvalue : value ∈ roots ++ permanent)
      (htarget : value.entity? = some target) : Reaches heap roots target
  | step {source target : Entity} (hsource : Reaches heap roots source)
      (hrefers : heap.Refers source target) : Reaches heap roots target

theorem Reaches.of_subset {heap : Heap} {roots others : List Value} {entity : Entity}
    (hsubset : ∀ value ∈ roots, value ∈ others) (hreaches : heap.Reaches roots entity) :
    heap.Reaches others entity := by
  induction hreaches with
  | root hvalue htarget =>
      refine .root ?_ htarget
      rcases List.mem_append.1 hvalue with hroot | hpermanent
      · exact List.mem_append_left _ (hsubset _ hroot)
      · exact List.mem_append_right _ hpermanent
  | step _ hrefers ih => exact .step ih hrefers

end Heap

end ManagedHeap
