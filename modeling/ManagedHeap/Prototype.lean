import ManagedHeap.Store

/-!
# Prototype chains and properties

A property is looked up in the field slots and the bag of an object, then in
those of its prototype, and so on along the chain.  Both the look-up and the
check that a new prototype closes no circle are questions about one thing, the
chain that starts at an object.

A chain can be circular only if an object was created with a prototype handle
that was stale at the time.  `Heap.chainFrom` visits at most as many objects as
there are slots, and one more, so it finds that out instead of going round.
-/

namespace ManagedHeap

/-- How a prototype chain ends. -/
inductive ChainEnd where
  /-- At an object that has no prototype. -/
  | noPrototype
  /-- At a handle that names no object. -/
  | fault (cause : Fault)
deriving DecidableEq

/-- The objects on a chain, nearest first.  If the chain ends with a fault, the
last of them is the handle that caused it. -/
structure Chain where
  objects : List Object
  ending : ChainEnd
deriving DecidableEq

namespace Heap

/-- The chain that starts at `next`, as far as `steps` objects. -/
def follow (heap : Heap) : Nat → Option Object → Chain
  | _, none => ⟨[], .noPrototype⟩
  | 0, some _ => ⟨[], .fault .endlessChain⟩
  | steps + 1, some object =>
      match heap.header object with
      | .error cause => ⟨[object], .fault cause⟩
      | .ok header =>
          let rest := follow heap steps header.proto
          ⟨object :: rest.objects, rest.ending⟩

def chainFrom (heap : Heap) (start : Option Object) : Chain :=
  heap.follow (heap.objects.size + heap.arrays.size + 1) start

/-- The property that an object has itself: a field if its map names one, else an
entry of its bag. -/
def own? (heap : Heap) (object : Object) (key : String) : Option Value :=
  match heap.objectMap object, heap.header object with
  | .ok map, .ok header =>
      match map.slotOf? key with
      | some slot => (heap.field object slot).toOption
      | none => header.bag.get? key
  | _, _ => none

/-- The property of the nearest object on the chain that has one.  A property
that no object has is undefined. -/
def property (heap : Heap) (object : Object) (key : String) : Except Fault Value :=
  let chain := heap.chainFrom (some object)
  match chain.objects.findSome? fun owner => heap.own? owner key with
  | some value => .ok value
  | none =>
      match chain.ending with
      | .noPrototype => .ok .undefined
      | .fault cause => .error cause

end Heap

namespace Object

open ManagedHeap.Action

def changeHeader (object : Object) (change : Header → Header) : Action Unit :=
  match object with
  | .ordinary handle =>
      update fun heap =>
        { heap with
          objects := heap.objects.modify handle fun record =>
            { record with header := change record.header } }
  | .array handle => changeArray handle fun record => { record with header := change record.header }

/-- Writes a field slot, and answers whether there is one that takes the value.
The only field of an array that can be written is its length, and only to
extend the array within its capacity. -/
def setField (object : Object) (slot : Nat) (value : Value) : Action Bool :=
  match object with
  | .ordinary handle => do
      let record ← read fun heap => heap.objects.deref handle
      if slot < record.fields.size then
        update fun heap =>
          { heap with
            objects := heap.objects.modify handle fun record =>
              { record with fields := record.fields.setIfInBounds slot value } }
        pure true
      else pure false
  | .array handle => do
      let record ← read fun heap => heap.arrays.deref handle
      let window := record.window
      match slot, value with
      | 0, .integer length =>
          if window.length ≤ length.toInt ∧ length.toInt ≤ window.capacity then
            setWindow handle { window with length := length.toInt.toNat }
            pure true
          else pure false
      | _, _ => pure false

/-- Writes a property of the object itself: a field if its map names one, else an
entry of its bag. -/
def setProperty (object : Object) (key : String) (value : Value) : Action Bool := do
  let map ← read fun heap => heap.objectMap object
  match map.slotOf? key with
  | some slot => object.setField slot value
  | none =>
      object.changeHeader fun header => { header with bag := header.bag.insert key value }
      pure true

/-- Replaces the prototype.  A prototype whose chain passes through the object is
refused. -/
def setPrototype (object : Object) (proto : Option Object) : Action Bool := do
  let chain ← read fun heap => .ok (heap.chainFrom proto)
  if object ∈ chain.objects then pure false
  else
    match chain.ending with
    | .fault cause => throw cause
    | .noPrototype =>
        let _ ← read fun heap => heap.header object
        object.changeHeader fun header => { header with proto := proto }
        pure true

end Object

end ManagedHeap
