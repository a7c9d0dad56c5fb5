import ManagedHeap.Event
import ManagedHeap.Heap

/-!
# The ledger of backing stores

The log of an agent tells which backing stores there are: replaying the events
in order gives every store with its number of slots.  A log that allocates a
store twice, or releases one that is not there, cannot be replayed.
-/

namespace ManagedHeap

/-- The event tells of a store that comes or goes. -/
def Event.isOfStore : Event → Bool
  | .storeAllocated .. | .storeReleased .. => true
  | .growing .. | .reservingHeadroom .. | .allocationFailed _ | .collectionFinished _ => false

/-- The number of slots of every store that is there. -/
abbrev Ledger := StoreHandle → Option Nat

namespace Ledger

def empty : Ledger := fun _ => none

def set (ledger : Ledger) (store : StoreHandle) (slots : Option Nat) : Ledger :=
  fun other => if other = store then slots else ledger other

def record (ledger : Ledger) : Event → Option Ledger
  | .storeAllocated store slots =>
      if ledger store = none then some (ledger.set store (some slots)) else none
  | .storeReleased store slots =>
      if slots.isSome = true ∧ ledger store = slots then some (ledger.set store none) else none
  | .growing .. | .reservingHeadroom .. | .allocationFailed _ | .collectionFinished _ =>
      some ledger

def replay (log : List Event) : Option Ledger :=
  log.foldlM record empty

theorem record_of_not_isOfStore {event : Event} (hevent : event.isOfStore = false)
    (ledger : Ledger) : ledger.record event = some ledger := by
  cases event with
  | storeAllocated | storeReleased => simp [Event.isOfStore] at hevent
  | growing | reservingHeadroom | allocationFailed | collectionFinished => rfl

@[simp] theorem set_self (ledger : Ledger) (store : StoreHandle) (slots : Option Nat) :
    ledger.set store slots store = slots := by
  simp [set]

theorem set_of_ne (ledger : Ledger) {store other : StoreHandle} (slots : Option Nat)
    (hne : other ≠ store) : ledger.set store slots other = ledger other := by
  simp [set, hne]

theorem foldlM_record_of_not_isOfStore {events : List Event}
    (hevents : ∀ event ∈ events, event.isOfStore = false) (ledger : Ledger) :
    events.foldlM record ledger = some ledger := by
  induction events with
  | nil => rfl
  | cons event rest ih =>
      have hrest := ih fun other hmem => hevents other (List.mem_cons_of_mem _ hmem)
      rw [List.foldlM_cons, record_of_not_isOfStore (hevents event List.mem_cons_self)]
      exact hrest

end Ledger

/-- The stores of a heap as they should be in the ledger. -/
def Heap.ledger (heap : Heap) : Ledger := fun store => (heap.stores.get? store).map Array.size

end ManagedHeap
