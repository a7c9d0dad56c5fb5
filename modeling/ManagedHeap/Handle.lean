import ManagedHeap.Fault

/-!
# Handles and entities

The heap holds six kinds of entities, each kind in an arena of its own.  A
handle names one slot of one arena, so handles of different kinds are never
confused.  An entity forgets the kind in its type and remembers it as data,
which is what a walk over the whole heap needs.
-/

namespace ManagedHeap

inductive Kind where
  | array
  | object
  | closure
  | number
  | string
  | store
deriving DecidableEq

structure Handle (kind : Kind) where
  slot : Nat
deriving DecidableEq

abbrev ArrayHandle := Handle .array
abbrev ObjectHandle := Handle .object
abbrev ClosureHandle := Handle .closure
abbrev NumberHandle := Handle .number
abbrev StringHandle := Handle .string
abbrev StoreHandle := Handle .store

/-- The number of different 32-bit words. -/
def wordCount : Nat := 4294967296

namespace Handle

variable {kind : Kind}

/-- The number of handles of one kind.  A handle fits a word, with one word to
spare. -/
def limit : Nat := wordCount - 1

def ofNumber (slot : Nat) : Except Fault (Handle kind) :=
  if slot < limit then .ok ⟨slot⟩ else .error .slotNumberTooLarge

/-- The handle of a slot that is given by a 32-bit word. -/
def ofWord (slot : UInt32) : Except Fault (Handle kind) :=
  if slot.toNat = limit then .error .slotWordReserved else .ok ⟨slot.toNat⟩

instance : Ord (Handle kind) where
  compare first second := compare first.slot second.slot

theorem ofNumber_eq_ok {slot : Nat} (hslot : slot < limit) :
    ofNumber slot = .ok (⟨slot⟩ : Handle kind) := by
  simp [ofNumber, hslot]

end Handle

/-- A slot of any arena. -/
structure Entity where
  kind : Kind
  slot : Nat
deriving DecidableEq

def Handle.entity {kind : Kind} (handle : Handle kind) : Entity :=
  ⟨kind, handle.slot⟩

theorem Handle.entity_injective {kind : Kind} {first second : Handle kind}
    (heq : first.entity = second.entity) : first = second := by
  cases first
  cases second
  simpa [Handle.entity] using heq

structure ByKind (α : Type) where
  array : α
  object : α
  closure : α
  number : α
  string : α
  store : α
deriving DecidableEq

namespace ByKind

variable {α β : Type}

def get (table : ByKind α) : Kind → α
  | .array => table.array
  | .object => table.object
  | .closure => table.closure
  | .number => table.number
  | .string => table.string
  | .store => table.store

def modify (table : ByKind α) (change : α → α) : Kind → ByKind α
  | .array => { table with array := change table.array }
  | .object => { table with object := change table.object }
  | .closure => { table with closure := change table.closure }
  | .number => { table with number := change table.number }
  | .string => { table with string := change table.string }
  | .store => { table with store := change table.store }

def map (f : α → β) (table : ByKind α) : ByKind β where
  array := f table.array
  object := f table.object
  closure := f table.closure
  number := f table.number
  string := f table.string
  store := f table.store

def sum (table : ByKind Nat) : Nat :=
  table.array + table.object + table.closure + table.number + table.string + table.store

@[simp] theorem get_modify_self (table : ByKind α) (change : α → α) (kind : Kind) :
    (table.modify change kind).get kind = change (table.get kind) := by
  cases kind <;> rfl

theorem get_modify_of_ne (table : ByKind α) (change : α → α) {kind other : Kind}
    (hne : other ≠ kind) :
    (table.modify change kind).get other = table.get other := by
  cases kind <;> cases other <;> first | rfl | exact absurd rfl hne

theorem ext_get {first second : ByKind α} (hget : ∀ kind, first.get kind = second.get kind) :
    first = second := by
  cases first
  cases second
  simp only [mk.injEq]
  exact ⟨hget .array, hget .object, hget .closure, hget .number, hget .string, hget .store⟩

@[simp] theorem get_map (f : α → β) (table : ByKind α) (kind : Kind) :
    (table.map f).get kind = f (table.get kind) := by
  cases kind <;> rfl

end ByKind

end ManagedHeap
