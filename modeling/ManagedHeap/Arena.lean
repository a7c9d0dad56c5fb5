import ManagedHeap.Handle

/-!
# Arenas

An arena holds the entities of one kind in numbered slots.  Freed slots are
remembered, the one freed last in front, and are handed out again before the
arena grows.  A handle therefore stays good for as long as its entity lives.

The view of an arena is `get?`: every operation is described by what it does to
`get?`, in the lemmas of `ManagedHeap.Arena.Lemmas`.
-/

namespace ManagedHeap

structure Arena (kind : Kind) (α : Type) where
  slots : Array (Option α)
  free : List Nat

namespace Arena

variable {kind : Kind} {α : Type}

def empty : Arena kind α where
  slots := #[]
  free := []

def ofList (entities : List α) : Arena kind α where
  slots := (entities.map some).toArray
  free := []

/-- The number of slots, occupied or free. -/
def size (arena : Arena kind α) : Nat := arena.slots.size

def liveCount (arena : Arena kind α) : Nat := arena.size - arena.free.length

def get? (arena : Arena kind α) (handle : Handle kind) : Option α :=
  arena.slots[handle.slot]?.join

def isLive (arena : Arena kind α) (handle : Handle kind) : Bool :=
  (arena.get? handle).isSome

/-- The entity that a handle names.  A handle beyond the arena and a handle to
a freed slot are different faults. -/
def deref (arena : Arena kind α) (handle : Handle kind) : Except Fault α :=
  match arena.slots[handle.slot]? with
  | none => .error .handleOutOfBounds
  | some none => .error .slotEmpty
  | some (some entity) => .ok entity

/-- The entity goes into the slot that was freed last, or into a new one.  The number of a new
slot is not looked at here.  It is one that a handle can have (`Handle.ofNumber`) for as long
as the arena has fewer slots than `Handle.limit`. -/
def push (arena : Arena kind α) (entity : α) : Handle kind × Arena kind α :=
  match arena.free with
  | [] => (⟨arena.size⟩, { arena with slots := arena.slots.push (some entity) })
  | slot :: rest =>
      (⟨slot⟩, { slots := arena.slots.setIfInBounds slot (some entity), free := rest })

/-- Frees a slot and gives its entity back.  A slot that holds none stays as it is. -/
def release (arena : Arena kind α) (handle : Handle kind) : Option α × Arena kind α :=
  match arena.get? handle with
  | none => (none, arena)
  | some entity =>
      (some entity,
        { slots := arena.slots.setIfInBounds handle.slot none
          free := handle.slot :: arena.free })

def modify (arena : Arena kind α) (handle : Handle kind) (change : α → α) : Arena kind α :=
  { arena with slots := arena.slots.modify handle.slot (Option.map change) }

/-- The occupied slots in ascending order. -/
def handles (arena : Arena kind α) : List (Handle kind) :=
  ((List.range arena.size).map Handle.mk).filter arena.isLive

def releaseAll (arena : Arena kind α) (garbage : List (Handle kind)) : Arena kind α :=
  garbage.foldl (fun arena handle => (arena.release handle).2) arena

end Arena

end ManagedHeap
