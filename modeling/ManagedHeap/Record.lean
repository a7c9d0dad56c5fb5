import ManagedHeap.Bindings

/-!
# Records

What the heap keeps for an entity.  Objects and arrays share a header.  An
ordinary object adds one field slot for every name in its map; an array adds a
window into the backing store that holds its elements, and its map is always the
one for arrays.
-/

namespace ManagedHeap

/-- The array methods that every agent has at hand as closures. -/
inductive ArrayMethod where
  | pop
  | push
  | shift
  | unshift
  | reverse
deriving DecidableEq

namespace ArrayMethod

def all : List ArrayMethod := [.pop, .push, .shift, .unshift, .reverse]

/-- The property that the method is installed under. -/
def name : ArrayMethod → String
  | .pop => "pop"
  | .push => "push"
  | .shift => "shift"
  | .unshift => "unshift"
  | .reverse => "reverse"

theorem mem_all (method : ArrayMethod) : method ∈ all := by
  cases method <;> decide

end ArrayMethod

/-! ## Object maps -/

/-- Names the field slots of the objects that share one layout. -/
inductive ObjectMap where
  /-- The map of every array.  No other map is the same as this one, whatever
  its name and fields are. -/
  | array
  | layout (name : String) (fields : List String)
deriving DecidableEq

namespace ObjectMap

/-- The map of objects that keep every property in their bag. -/
def plain : ObjectMap := .layout "Object" []

def name : ObjectMap → String
  | .array => "Array"
  | .layout name _ => name

def fields : ObjectMap → List String
  | .array => ["length", "pop", "push", "shift", "unshift"]
  | .layout _ fields => fields

def isArray (map : ObjectMap) : Bool := decide (map = .array)

def sameLayout (first second : ObjectMap) : Bool :=
  decide (first.name = second.name ∧ first.fields = second.fields)

/-- The slot of a property.  Of two fields with one name the first counts. -/
def slotOf? (map : ObjectMap) (key : String) : Option Nat :=
  map.fields.findIdx? (· = key)

end ObjectMap

/-! ## Objects and arrays -/

/-- What an object of any sort has beside its own storage.  The bag holds the
properties that the map does not name.  The tag is given by the compiler and
means nothing here. -/
structure Header where
  proto : Option Object
  bag : Bindings
  tag : UInt32

def Header.new (proto : Option Object) (tag : UInt32) : Header :=
  ⟨proto, .empty, tag⟩

def Header.values (header : Header) : List Value :=
  (header.proto.map Object.toValue).toList ++ header.bag.values

structure ObjectRecord where
  header : Header
  map : ObjectMap
  fields : Array Value

def ObjectRecord.new (map : ObjectMap) (proto : Option Object) (tag : UInt32) :
    ObjectRecord where
  header := .new proto tag
  map := map
  fields := Array.replicate map.fields.length .undefined

/-- Where an array's elements lie in its backing store: `length` elements start
`offset` slots in, and `capacity` slots can be used from there. -/
structure Window where
  length : Nat
  capacity : Nat
  offset : Nat
deriving DecidableEq

def Window.empty : Window := ⟨0, 0, 0⟩

def Window.position (window : Window) (index : Nat) : Nat := window.offset + index

/-- A window is kept in machine words, the length in a signed one and the rest in
unsigned ones.  Arithmetic on a window goes through here, so that none of it
can pass the ends of a word unseen. -/
def Window.ofInts (length capacity offset : Int) : Except Fault Window :=
  if (0 ≤ length ∧ 0 ≤ capacity ∧ 0 ≤ offset) ∧
      2 * length.toNat < wordCount ∧ capacity.toNat < wordCount ∧ offset.toNat < wordCount then
    .ok ⟨length.toNat, capacity.toNat, offset.toNat⟩
  else .error .windowOutOfRange

theorem Window.ofInts_eq_ok_iff {length capacity offset : Int} {window : Window} :
    Window.ofInts length capacity offset = .ok window ↔
      (length = window.length ∧ capacity = window.capacity ∧ offset = window.offset) ∧
        2 * window.length < wordCount ∧ window.capacity < wordCount ∧
          window.offset < wordCount := by
  obtain ⟨windowLength, windowCapacity, windowOffset⟩ := window
  unfold Window.ofInts
  split
  · simp only [Except.ok.injEq, Window.mk.injEq]
    omega
  · simp only [reduceCtorEq, false_iff]
    omega

structure ArrayRecord where
  header : Header
  window : Window
  store : Option StoreHandle

def ArrayRecord.new (proto : Option Object) (tag : UInt32) : ArrayRecord where
  header := .new proto tag
  window := .empty
  store := none

/-! ## Closures -/

/-- What a closure does when it is called with a receiver and an argument.
`environment`, `receiver` and `argument` answer what they are named for, `sum`
adds the environment and the argument, and `append` appends the argument to the
array in the environment. -/
inductive Behaviour where
  | arrayMethod (method : ArrayMethod)
  | environment
  | receiver
  | argument
  | sum
  | append
deriving DecidableEq

structure ClosureRecord where
  env : Value
  behaviour : Behaviour

end ManagedHeap
