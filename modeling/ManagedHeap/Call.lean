import ManagedHeap.Elements

/-!
# Calls

A closure is called with a receiver and one argument.  The method closures
answer undefined if the receiver is no array.
-/

namespace ManagedHeap

open ManagedHeap.Action

/-- The sum of two numbers, and undefined if either is none.  Both are read before
either is looked at. -/
def addValues (first second : Value) : Action Value := do
  let x ← read fun heap => heap.toBinary64? first
  let y ← read fun heap => heap.toBinary64? second
  match x, y with
  | some x, some y => newNumber (x.add y)
  | _, _ => pure .undefined

def Behaviour.run (behaviour : Behaviour) (env receiver argument : Value) : Action Value :=
  match behaviour with
  | .arrayMethod method =>
      match receiver.asArray? with
      | some array => array.call method argument
      | none => pure .undefined
  | .environment => pure env
  | .receiver => pure receiver
  | .argument => pure argument
  | .sum => addValues env argument
  | .append =>
      match env.asArray? with
      | some array => array.push argument
      | none => pure .undefined

def ClosureHandle.call (closure : ClosureHandle) (receiver argument : Value) :
    Action Value := do
  let record ← read fun heap => heap.closures.deref closure
  record.behaviour.run record.env receiver argument

end ManagedHeap
