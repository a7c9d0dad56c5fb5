import ManagedHeap.Binary64
import ManagedHeap.Handle

/-!
# Values

A value is what a register, an array slot or a property holds: a constant, or a
handle to a heap entity.  Handles compare by slot, so two numbers or strings of
equal content are different values when they are different entities.
-/

namespace ManagedHeap

inductive Value where
  /-- Also stands for the missing result, of a read out of bounds for instance. -/
  | undefined
  | null
  | boolean (b : Bool)
  | integer (n : Int32)
  | number (handle : NumberHandle)
  | string (handle : StringHandle)
  | object (handle : ObjectHandle)
  | array (handle : ArrayHandle)
  | closure (handle : ClosureHandle)
deriving DecidableEq

instance : Inhabited Value := ⟨.undefined⟩

/-- Anything that has properties and a prototype. -/
inductive Object where
  | ordinary (handle : ObjectHandle)
  | array (handle : ArrayHandle)
deriving DecidableEq

def Object.toValue : Object → Value
  | .ordinary handle => .object handle
  | .array handle => .array handle

def Object.entity : Object → Entity
  | .ordinary handle => handle.entity
  | .array handle => handle.entity

namespace Value

def asArray? : Value → Option ArrayHandle
  | .array handle => some handle
  | _ => none

def asObject? : Value → Option Object
  | .object handle => some (.ordinary handle)
  | .array handle => some (.array handle)
  | _ => none

def asClosure? : Value → Option ClosureHandle
  | .closure handle => some handle
  | _ => none

def isUndefined : Value → Bool
  | .undefined => true
  | _ => false

/-- The entity that a value keeps alive. -/
def entity? : Value → Option Entity
  | .undefined | .null | .boolean _ | .integer _ => none
  | .number handle => some handle.entity
  | .string handle => some handle.entity
  | .object handle => some handle.entity
  | .array handle => some handle.entity
  | .closure handle => some handle.entity

@[simp] theorem asObject?_toValue (object : Object) :
    object.toValue.asObject? = some object := by
  cases object <;> rfl

end Value

end ManagedHeap
