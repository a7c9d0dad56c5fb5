import ManagedHeap.Heap

/-!
# Marking

Finds the entities that a collection keeps.  Marking works in rounds.  Each
round takes up the pending references of one kind after the other, and what a
newly marked entity refers to becomes pending in its turn.  Of a backing store
only the slots inside the window of its array are followed.

A reference to a freed array, object or closure is a fault.  A reference to a
freed number, string or store, or beyond an arena, is passed over.
-/

namespace ManagedHeap

/-- Something that the marker still has to look at. -/
inductive Reference where
  | entity (target : Entity)
  /-- A backing store and the part of it that is in use. -/
  | window (store : StoreHandle) (offset length : Nat)
deriving DecidableEq

def Reference.target : Reference → Entity
  | .entity target => target
  | .window store _ _ => store.entity

namespace Reference

/-- Puts a reference among others that are in the order of their slots, in front of those to
the same slot. -/
def insertBySlot (reference : Reference) : List Reference → List Reference
  | [] => [reference]
  | first :: rest =>
      if reference.target.slot ≤ first.target.slot then reference :: first :: rest
      else first :: reference.insertBySlot rest

/-- The references in the order of their slots. -/
def sortBySlot (references : List Reference) : List Reference :=
  references.foldr insertBySlot []

theorem mem_insertBySlot {reference other : Reference} {references : List Reference} :
    other ∈ reference.insertBySlot references ↔ other = reference ∨ other ∈ references := by
  induction references with
  | nil => simp [insertBySlot]
  | cons first rest ih =>
      unfold insertBySlot
      split
      · rw [List.mem_cons]
      · rw [List.mem_cons, ih, List.mem_cons, or_left_comm]

@[simp] theorem mem_sortBySlot {reference : Reference} {references : List Reference} :
    reference ∈ sortBySlot references ↔ reference ∈ references := by
  induction references with
  | nil => exact Iff.rfl
  | cons first rest ih =>
      change reference ∈ first.insertBySlot (sortBySlot rest) ↔ _
      rw [mem_insertBySlot, ih, List.mem_cons]

theorem pairwise_insertBySlot {reference : Reference} {references : List Reference}
    (hsorted : references.Pairwise fun first second => first.target.slot ≤ second.target.slot) :
    (reference.insertBySlot references).Pairwise fun first second =>
      first.target.slot ≤ second.target.slot := by
  induction references with
  | nil => exact List.pairwise_singleton _ reference
  | cons first rest ih =>
      have hrest := List.pairwise_cons.1 hsorted
      unfold insertBySlot
      split
      · rename_i hle
        refine List.pairwise_cons.2 ⟨?_, hsorted⟩
        intro other hother
        rcases List.mem_cons.1 hother with rfl | hlater
        · exact hle
        · exact Nat.le_trans hle (hrest.1 other hlater)
      · rename_i hgt
        refine List.pairwise_cons.2 ⟨?_, ih hrest.2⟩
        intro other hother
        rcases mem_insertBySlot.1 hother with rfl | hlater
        · exact Nat.le_of_lt (Nat.not_le.1 hgt)
        · exact hrest.1 other hlater

theorem pairwise_sortBySlot (references : List Reference) :
    (sortBySlot references).Pairwise fun first second =>
      first.target.slot ≤ second.target.slot := by
  induction references with
  | nil => exact .nil
  | cons first rest ih => exact pairwise_insertBySlot ih

end Reference

def Value.references (values : List Value) : List Reference :=
  (values.filterMap Value.entity?).map .entity

/-- The slots marked so far and the references not yet looked at, oldest first. -/
structure Marking where
  marks : ByKind (Array Bool)
  pending : Array Reference

namespace Heap

/-- The closures and the prototype that every collection keeps. -/
def permanent : List Value :=
  .object arrayPrototype :: ArrayMethod.all.map fun method => .closure method.closure

/-- Everything that a reference leads to in one step. -/
def expand (heap : Heap) : Reference → Except Fault (List Reference)
  | .entity ⟨.array, slot⟩ => do
      let record ← heap.arrays.deref ⟨slot⟩
      let store := record.store.map fun store =>
        Reference.window store record.window.offset record.window.length
      .ok (Value.references record.header.values ++ store.toList)
  | .entity ⟨.object, slot⟩ => do
      let record ← heap.objects.deref ⟨slot⟩
      .ok (Value.references (record.header.values ++ record.fields.toList))
  | .entity ⟨.closure, slot⟩ => do
      let record ← heap.closures.deref ⟨slot⟩
      .ok (Value.references [record.env])
  | .entity _ => .ok []
  | .window store offset length =>
      match heap.stores.get? store with
      | none => .ok []
      | some slots =>
          if offset + length ≤ slots.size then
            .ok (Value.references (slots.extract offset (offset + length)).toList)
          else .ok []

/-- Marks the slot that a reference leads to, unless it is marked already. -/
def visit (heap : Heap) (state : Marking) (reference : Reference) : Except Fault Marking :=
  let target := reference.target
  if (state.marks.get target.kind)[target.slot]? = some false then do
    let found ← heap.expand reference
    .ok
      { marks := state.marks.modify (fun bits => bits.setIfInBounds target.slot true) target.kind
        pending := state.pending ++ found }
  else .ok state

/-- Visits the pending references of one kind in the order of their slots.  Only arrays,
closures and objects have to be visited in that order.  A number, a string or a store never
faults, and what a store leads to is put in order before it is visited in turn, so that the
order among these cannot be observed. -/
def drain (heap : Heap) (state : Marking) (kind : Kind) : Except Fault Marking :=
  let due := state.pending.filter fun reference => decide (reference.target.kind = kind)
  let rest := state.pending.filter fun reference => decide (reference.target.kind ≠ kind)
  (Reference.sortBySlot due.toList).foldlM heap.visit { state with pending := rest }

def round (heap : Heap) (state : Marking) : Except Fault Marking :=
  [Kind.array, .store, .closure, .object, .number, .string].foldlM heap.drain state

def rounds (heap : Heap) : Nat → Marking → Except Fault Marking
  | 0, state => .ok state
  | count + 1, state =>
      if state.pending.isEmpty then .ok state
      else do
        let state ← heap.round state
        rounds heap count state

def startMarking (heap : Heap) (roots : List Value) : Marking where
  marks := heap.sizes.map fun size => Array.replicate size false
  pending := (Value.references (roots ++ permanent)).toArray

/-- The slots of everything that the roots lead to.  Every round but the last
marks a slot, so there are no more rounds than slots, and one. -/
@[irreducible]
def mark (heap : Heap) (roots : List Value) : Except Fault (ByKind (Array Bool)) :=
  (heap.rounds (heap.sizes.sum + 1) (heap.startMarking roots)).map Marking.marks

end Heap

end ManagedHeap
