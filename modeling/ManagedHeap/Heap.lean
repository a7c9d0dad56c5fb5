import ManagedHeap.Arena
import ManagedHeap.Record

/-!
# The heap

The six arenas.  A fresh heap is not empty: it holds the prototype of all arrays
and, as the properties of that prototype, the closures of the array methods.
Their handles are the same in every heap and nothing frees them.

Reading never changes the heap, so whatever only reads is a function from the
heap to an answer or a fault.
-/

namespace ManagedHeap

def arrayPrototype : ObjectHandle := ⟨0⟩

def ArrayMethod.closure : ArrayMethod → ClosureHandle
  | .pop => ⟨0⟩
  | .push => ⟨1⟩
  | .shift => ⟨2⟩
  | .unshift => ⟨3⟩
  | .reverse => ⟨4⟩

structure Heap where
  arrays : Arena .array ArrayRecord
  objects : Arena .object ObjectRecord
  closures : Arena .closure ClosureRecord
  numbers : Arena .number Binary64
  strings : Arena .string String
  stores : Arena .store (Array Value)

namespace Heap

/-- The prototype of all arrays in a fresh heap. -/
def prototypeRecord : ObjectRecord where
  header :=
    { proto := none
      bag := ⟨ArrayMethod.all.map fun method => (method.name, .closure method.closure)⟩
      tag := 0 }
  map := .plain
  fields := #[]

def fresh : Heap where
  arrays := .empty
  objects := .ofList [prototypeRecord]
  closures := .ofList (ArrayMethod.all.map fun method => ⟨.undefined, .arrayMethod method⟩)
  numbers := .empty
  strings := .empty
  stores := .empty

def isLive (heap : Heap) (entity : Entity) : Bool :=
  match entity.kind with
  | .array => heap.arrays.isLive ⟨entity.slot⟩
  | .object => heap.objects.isLive ⟨entity.slot⟩
  | .closure => heap.closures.isLive ⟨entity.slot⟩
  | .number => heap.numbers.isLive ⟨entity.slot⟩
  | .string => heap.strings.isLive ⟨entity.slot⟩
  | .store => heap.stores.isLive ⟨entity.slot⟩

def sizes (heap : Heap) : ByKind Nat where
  array := heap.arrays.size
  object := heap.objects.size
  closure := heap.closures.size
  number := heap.numbers.size
  string := heap.strings.size
  store := heap.stores.size

def liveCounts (heap : Heap) : ByKind Nat where
  array := heap.arrays.liveCount
  object := heap.objects.liveCount
  closure := heap.closures.liveCount
  number := heap.numbers.liveCount
  string := heap.strings.liveCount
  store := heap.stores.liveCount

/-- The exact number that a value stands for, if it stands for a number. -/
def toBinary64? (heap : Heap) : Value → Except Fault (Option Binary64)
  | .integer n => .ok (some (.ofInt32 n))
  | .number handle => (heap.numbers.deref handle).map some
  | _ => .ok none

/-! ## Arrays -/

/-- An array that is ready for use: if it has a backing store, that is there too. -/
def arrayRecord (heap : Heap) (array : ArrayHandle) : Except Fault ArrayRecord := do
  let record ← heap.arrays.deref array
  match record.store with
  | none => pure record
  | some store => do
      let _ ← heap.stores.deref store
      pure record

/-- The whole backing store of an array, which is empty if it has none. -/
def storeOf (heap : Heap) (record : ArrayRecord) : Except Fault (Array Value) :=
  match record.store with
  | none => .ok #[]
  | some store => heap.stores.deref store

/-- The element at an index.  Whatever lies outside the capacity is undefined. -/
def element (heap : Heap) (array : ArrayHandle) (index : Int) : Except Fault Value := do
  let record ← heap.arrays.deref array
  let slots ← heap.storeOf record
  if 0 ≤ index ∧ index < record.window.capacity then
    match slots[record.window.position index.toNat]? with
    | some value => .ok value
    | none => .error .positionOutOfRange
  else .ok .undefined

def slice (heap : Heap) (array : ArrayHandle) : Except Fault (Array Value) := do
  let record ← heap.arrays.deref array
  let slots ← heap.storeOf record
  let first := record.window.position 0
  let last := record.window.position record.window.length
  if last ≤ slots.size then .ok (slots.extract first last)
  else .error .positionOutOfRange

/-! ## Objects of any sort -/

def header (heap : Heap) : Object → Except Fault Header
  | .ordinary handle => (heap.objects.deref handle).map ObjectRecord.header
  | .array handle => (heap.arrays.deref handle).map ArrayRecord.header

def objectMap (heap : Heap) : Object → Except Fault ObjectMap
  | .ordinary handle => (heap.objects.deref handle).map ObjectRecord.map
  | .array handle => (heap.arrays.deref handle).map fun _ => .array

/-- The fields of an array: its length and four of the methods. -/
def arrayField (record : ArrayRecord) : Nat → Value
  | 0 => .integer (Int32.ofNat record.window.length)
  | 1 => .closure ArrayMethod.pop.closure
  | 2 => .closure ArrayMethod.push.closure
  | 3 => .closure ArrayMethod.shift.closure
  | 4 => .closure ArrayMethod.unshift.closure
  | _ => .undefined

/-- The field in a slot.  Slots behind the last field are undefined. -/
def field (heap : Heap) (object : Object) (slot : Nat) : Except Fault Value :=
  match object with
  | .ordinary handle =>
      (heap.objects.deref handle).map fun record => record.fields[slot]?.getD .undefined
  | .array handle => (heap.arrays.deref handle).map fun record => arrayField record slot

end Heap

end ManagedHeap
