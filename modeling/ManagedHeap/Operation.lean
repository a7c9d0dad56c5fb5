import ManagedHeap.Call
import ManagedHeap.Collector.Sweep
import ManagedHeap.Prototype

/-!
# Operations

Everything that a client can ask of an agent, as data.  An operation is
parametric in its operands: with values for operands it is a step of a run, and
with names and constants it is a step of a program.  Operands are evaluated from
left to right before the operation itself, and not at all if the operation does
not apply to the value it is asked of.
-/

namespace ManagedHeap

/-- The operations on arrays.  All of them are given one argument, which most do
not use. -/
inductive ArrayOp where
  | length
  | capacity
  | isEmpty
  | slice
  | get (index : Int32)
  | put (index : Int32)
  | setLength (length : Int32)
  | call (method : ArrayMethod)
  /-- A method many times over, with the integers from zero on as arguments. -/
  | callRepeatedly (method : ArrayMethod) (times : Nat)
deriving DecidableEq

/-- The operations on objects of any sort. -/
inductive ObjectOp (ν : Type) where
  | header
  | map
  | tag
  | proto
  | setProto (proto : ν)
  | getField (slot : Nat)
  | setField (slot : Nat) (value : ν)
  | get (key : String)
  | set (key : String) (value : ν)

/-- The questions about any value. -/
inductive ValueQuery where
  | self
  | isUndefined
  | isArray
  | isObject
  | number
  /-- The number of a value that is boxed. -/
  | boxedNumber
  | text
  | snapshot
deriving DecidableEq

inductive Operation (ν : Type) where
  | value (operand : ν)
  | newString (text : String)
  | newNumber (x : Binary64)
  | newArray (tag : UInt32)
  | withCapacity (capacity : Nat) (tag : UInt32)
  | literal (elements : List ν) (tag : UInt32)
  | strings (texts : List String) (tag : UInt32)
  | newObject (map : ObjectMap) (proto : Option ν) (tag : UInt32)
  | newClosure (env : ν) (behaviour : Behaviour)
  | collect (roots : List ν)
  | equal (first second : ν)
  | distinctArrays (values : List ν)
  | distinctObjects (values : List ν)
  | slotOf (map : ObjectMap) (key : String)
  | ask (subject : ν) (query : ValueQuery)
  | call (closure receiver argument : ν)
  | object (subject : ν) (op : ObjectOp ν)
  | array (subject : ν) (op : ArrayOp) (argument : Option ν)

inductive Answer where
  | value (value : Value)
  | flag (b : Bool)
  | count (n : Nat)
  | slot (slot : Option Nat)
  | number (x : Option Binary64)
  | boxedNumber (x : Option Binary64)
  | text (text : Option String)
  | elements (values : Array Value)
  | map (map : ObjectMap)
  | header (map : ObjectMap) (tag : UInt32) (proto : Option Object)
  | proto (object : Option Object)
  /-- The slots of different arrays in ascending order. -/
  | arrays (slots : List Nat)
  | snapshot (value : Value)
  | notArray
  | notObject
  | notClosure
deriving DecidableEq

def Answer.value? : Answer → Option Value
  | .value result => some result
  | _ => none

open ManagedHeap.Action

def ArrayOp.perform (op : ArrayOp) (array : ArrayHandle) (argument : Value) :
    Action Answer :=
  match op with
  | .length => do
      let record ← read fun heap => heap.arrays.deref array
      pure (.count record.window.length)
  | .capacity => do
      let record ← read fun heap => heap.arrays.deref array
      pure (.count record.window.capacity)
  | .isEmpty => do
      let record ← read fun heap => heap.arrays.deref array
      pure (.flag (decide (record.window.length = 0)))
  | .slice => .elements <$> read fun heap => heap.slice array
  | .get index => .value <$> read fun heap => heap.element array index.toInt
  | .put index => .value <$> array.put index.toInt argument
  | .setLength extent => .flag <$> array.setLength extent.toInt
  | .call method => .value <$> array.call method argument
  | .callRepeatedly method times => .value <$> array.callRepeatedly method times

def ObjectOp.perform (op : ObjectOp Value) (object : Object) : Action Answer :=
  match op with
  | .header => do
      let map ← read fun heap => heap.objectMap object
      let header ← read fun heap => heap.header object
      pure (.header map header.tag header.proto)
  | .map => .map <$> read fun heap => heap.objectMap object
  | .tag => do
      let header ← read fun heap => heap.header object
      pure (.count header.tag.toNat)
  | .proto => do
      let header ← read fun heap => heap.header object
      pure (.proto header.proto)
  | .setProto parent => .flag <$> object.setPrototype parent.asObject?
  | .getField slot => .value <$> read fun heap => heap.field object slot
  | .setField slot value => .flag <$> object.setField slot value
  | .get key => .value <$> read fun heap => heap.property object key
  | .set key value => .flag <$> object.setProperty key value

def ValueQuery.perform (query : ValueQuery) (value : Value) : Action Answer :=
  match query with
  | .self => pure (.value value)
  | .isUndefined => pure (.flag value.isUndefined)
  | .isArray => pure (.flag value.asArray?.isSome)
  | .isObject => pure (.flag value.asObject?.isSome)
  | .number => .number <$> read fun heap => heap.toBinary64? value
  | .boxedNumber =>
      match value with
      | .number handle => (.boxedNumber ∘ some) <$> read fun heap => heap.numbers.deref handle
      | _ => pure (.boxedNumber none)
  | .text =>
      match value with
      | .string handle => (.text ∘ some) <$> read fun heap => heap.strings.deref handle
      | _ => pure (.text none)
  | .snapshot => pure (.snapshot value)

variable {ν : Type}

/-- Evaluates the operands of an operation on objects. -/
def ObjectOp.evaluate (evaluate : ν → Action Value) :
    ObjectOp ν → Action (ObjectOp Value)
  | .header => pure .header
  | .map => pure .map
  | .tag => pure .tag
  | .proto => pure .proto
  | .setProto parent => .setProto <$> evaluate parent
  | .getField slot => pure (.getField slot)
  | .setField slot value => .setField slot <$> evaluate value
  | .get key => pure (.get key)
  | .set key value => .set key <$> evaluate value

def Operation.perform (evaluate : ν → Action Value) : Operation ν → Action Answer
  | .value operand => .value <$> evaluate operand
  | .newString text => .value <$> Action.newString text
  | .newNumber x => .value <$> Action.newNumber x
  | .newArray tag => (.value ∘ .array) <$> Action.newArray tag
  | .withCapacity capacity tag => (.value ∘ .array) <$> ArrayHandle.withCapacity capacity tag
  | .literal elements tag => do
      let elements ← elements.mapM evaluate
      let array ← ArrayHandle.literal elements.toArray tag
      pure (.value (.array array))
  | .strings texts tag => do
      let elements ← texts.mapM Action.newString
      let array ← ArrayHandle.literal elements.toArray tag
      pure (.value (.array array))
  | .newObject map proto tag => do
      let proto ← proto.mapM evaluate
      let object ← Action.newObject map (proto.bind Value.asObject?) tag
      pure (.value (.object object))
  | .newClosure env behaviour => do
      let closure ← Action.newClosure (← evaluate env) behaviour
      pure (.value (.closure closure))
  | .collect roots => do
      Action.collect (← roots.mapM evaluate)
      pure (.value .undefined)
  | .equal first second => do
      let first ← evaluate first
      let second ← evaluate second
      pure (.flag (decide (first = second)))
  | .distinctArrays values => do
      let slots := ((← values.mapM evaluate).filterMap Value.asArray?).map Handle.slot
      pure (.arrays slots.eraseDups.mergeSort)
  | .distinctObjects values => do
      let objects := (← values.mapM evaluate).filterMap Value.asObject?
      pure (.count objects.eraseDups.length)
  | .slotOf map key => pure (.slot (map.slotOf? key))
  | .ask subject query => do query.perform (← evaluate subject)
  | .call closure receiver argument => do
      match (← evaluate closure).asClosure? with
      | none => pure .notClosure
      | some closure =>
          let receiver ← evaluate receiver
          let argument ← evaluate argument
          .value <$> closure.call receiver argument
  | .object subject op => do
      match (← evaluate subject).asObject? with
      | none => pure .notObject
      | some receiver => do (← op.evaluate evaluate).perform receiver
  | .array subject op argument => do
      match (← evaluate subject).asArray? with
      | none => pure .notArray
      | some receiver =>
          let argument ← argument.mapM evaluate
          op.perform receiver (argument.getD .undefined)

end ManagedHeap
