import ManagedHeap.Store

/-!
# Array elements

The operations on arrays.  Elements enter and leave at either end by moving the
ends of the window; they are moved themselves only when the array has to move
into a new store.  Every slot that an operation gives up is left undefined.
-/

namespace ManagedHeap

namespace ArrayHandle

open ManagedHeap.Action

def withCapacity (capacity : Nat) (tag : UInt32) : Action ArrayHandle := do
  let array ← newArray tag
  if 0 < capacity then reallocate array capacity 0
  pure array

/-- An array of the given elements, without room for more. -/
def literal (elements : Array Value) (tag : UInt32) : Action ArrayHandle := do
  let array ← newArray tag
  if elements.isEmpty then pure array
  else
    reallocate array elements.size 0
    let record ← read fun heap => heap.arrayRecord array
    replaceRange record 0 elements.size fun _ => elements
    setWindow array { record.window with length := elements.size }
    pure array

variable (array : ArrayHandle)

/-- Writes an element that there is room for, and extends the array up to it. -/
def place (index : Nat) (value : Value) : Action Unit := do
  let record ← read fun heap => heap.arrayRecord array
  let window := record.window
  let length : Int := max window.length (index + 1)
  let extended ← Window.ofInts length window.capacity window.offset
  setWindow array extended
  write record (window.position index) value

/-- Writes an element.  An index beyond the length extends the array, and one
beyond the capacity makes it grow.  A negative index is no element, and the
write is dropped.  The answer is the value in any case. -/
def put (index : Int) (value : Value) : Action Value := do
  let _ ← read fun heap => heap.arrayRecord array
  if index < 0 then pure value
  else
    requireCapacity array (index.toNat + 1)
    place array index.toNat value
    pure value

def push (value : Value) : Action Value := do
  let record ← read fun heap => heap.arrays.deref array
  put array record.window.length value

/-- Removes the last element.  The capacity stays as it is. -/
def pop : Action Value := do
  let record ← read fun heap => heap.arrayRecord array
  let window := record.window
  if window.length = 0 then pure .undefined
  else
    let shorter ← Window.ofInts (window.length - 1) window.capacity window.offset
    setWindow array shorter
    take record (window.position shorter.length)

/-- Removes the first element.  Its slot goes from the capacity to the offset. -/
def shift : Action Value := do
  let record ← read fun heap => heap.arrayRecord array
  let window := record.window
  if window.length = 0 then pure .undefined
  else
    let value ← take record (window.position 0)
    let shorter ← Window.ofInts (window.length - 1) (window.capacity - 1) (window.offset + 1)
    setWindow array shorter
    pure value

/-- Writes an element into the slot before the first one. -/
def placeInFront (value : Value) : Action Unit := do
  let record ← read fun heap => heap.arrayRecord array
  let window := record.window
  let longer ← Window.ofInts (window.length + 1) (window.capacity + 1) (window.offset - 1)
  setWindow array longer
  write record (longer.position 0) value

/-- Inserts an element in front of the first.  If the window starts at the
beginning of its store, headroom is reserved before. -/
def unshift (value : Value) : Action Unit := do
  requireHeadroom array
  placeInFront array value

def clearFrom (record : ArrayRecord) (index : Nat) : Action Unit :=
  let window := record.window
  if index < window.length then
    replaceRange record (window.position index) (window.position window.length)
      fun dropped => Array.replicate dropped.size .undefined
  else pure ()

/-- Changes the length within the capacity.  Elements that are cut off are
cleared, and new ones are undefined.  Any other length is refused. -/
def setLength (length : Int) : Action Bool := do
  let record ← read fun heap => heap.arrayRecord array
  let window := record.window
  if length < 0 ∨ (window.capacity : Int) < length then pure false
  else
    clearFrom record length.toNat
    let changed ← Window.ofInts length window.capacity window.offset
    setWindow array changed
    pure true

def reverse : Action Unit := do
  let record ← read fun heap => heap.arrayRecord array
  let window := record.window
  replaceRange record (window.position 0) (window.position window.length) Array.reverse

/-- Calls a method by its name.  The methods that remove an element ignore the
argument. -/
def call (method : ArrayMethod) (argument : Value) : Action Value :=
  match method with
  | .pop => pop array
  | .push => push array argument
  | .shift => shift array
  | .unshift => do
      unshift array argument
      pure .undefined
  | .reverse => do
      reverse array
      pure (.array array)

/-- Calls a method `times` times with the integers from zero on as arguments, and
answers what the last call does. -/
def callRepeatedly (method : ArrayMethod) (times : Nat) : Action Value :=
  (List.range times).foldlM
    (fun _ index => call array method (.integer (Int32.ofNat index))) .undefined

end ArrayHandle

end ManagedHeap
