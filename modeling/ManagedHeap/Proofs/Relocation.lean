import ManagedHeap.Ledger
import ManagedHeap.Proofs.Placement

/-!
# Carrying out a change

An operation on an array works out a change of its body: the array keeps its
store, moves into a new one, or is refused because there is no such store to be
had.  This file says what the agent is like after each of them, and that
reallocation is such a move or its refusal.
-/

namespace ManagedHeap

/-- What an operation does to the body of an array.  Moves and refusals may be
announced by events of their own. -/
inductive Change where
  | settle (body : Body)
  | move (notices : List Event) (body : Body)
  | refuse (notices : List Event) (error : AllocationError)

/-- A move into a new store of so many slots, if that store is to be had. -/
def Change.moving (options : Options) (notices : List Event) (slots : Nat) (next : Body) :
    Change :=
  match options.denial? slots with
  | none => .move notices next
  | some error => .refuse notices error

/-- The events of a move. -/
def Heap.moveEvents (heap : Heap) (record : ArrayRecord) (next : Body) : List Event :=
  .storeAllocated (heap.nextStore next) next.slots.size ::
    (record.store.map fun old =>
      Event.storeReleased old ((heap.stores.get? old).map Array.size)).toList

namespace Agent

def note (agent : Agent) (events : List Event) : Agent :=
  { agent with log := agent.log ++ events.toArray }

def reshape (agent : Agent) (array : ArrayHandle) (record : ArrayRecord) (next : Body) :
    Agent :=
  { agent with heap := agent.heap.reshape array record next }

def relocate (agent : Agent) (array : ArrayHandle) (record : ArrayRecord) (next : Body) :
    Agent :=
  { agent with
    heap := agent.heap.relocate array record next
    log := agent.log ++ (agent.heap.moveEvents record next).toArray }

@[simp] theorem heap_note (agent : Agent) (events : List Event) :
    (agent.note events).heap = agent.heap := rfl

@[simp] theorem options_note (agent : Agent) (events : List Event) :
    (agent.note events).options = agent.options := rfl

@[simp] theorem note_note (agent : Agent) (first second : List Event) :
    (agent.note first).note second = agent.note (first ++ second) := by
  simp [note]

theorem note_nil (agent : Agent) : agent.note [] = agent := by
  simp [note]

end Agent

/-- An array that moves and is written then has moved with what was written. -/
theorem Agent.reshape_relocate (agent : Agent) {array : ArrayHandle}
    {record movedRecord : ArrayRecord} {body moved next : Body}
    (hsound : agent.heap.Sound) (hholds : agent.heap.Holds array record body)
    (hmoved : movedRecord.store = some (agent.heap.nextStore moved))
    (hsize : next.slots.size = moved.slots.size) :
    (agent.relocate array record moved).reshape array movedRecord next =
      agent.relocate array record next := by
  have hstore : agent.heap.nextStore next = agent.heap.nextStore moved :=
    Arena.push_fst_congr agent.heap.stores next.slots moved.slots
  have hevents : agent.heap.moveEvents record next = agent.heap.moveEvents record moved := by
    unfold Heap.moveEvents
    rw [hstore, hsize]
  have hheap :
      (agent.heap.relocate array record moved).reshape array movedRecord next =
        agent.heap.relocate array record next :=
    Heap.reshape_relocate hsound hholds hmoved
  simp only [Agent.reshape, Agent.relocate, hheap, hevents]

/-- The outcome of an operation that changes an array and answers `answer`. -/
def Change.carryOut {α : Type} (change : Change) (array : ArrayHandle) (record : ArrayRecord)
    (answer : α) (agent : Agent) : Outcome α :=
  match change with
  | .settle next => (.ok answer, agent.reshape array record next)
  | .move notices next => (.ok answer, (agent.note notices).relocate array record next)
  | .refuse notices error =>
      (.error (.allocation error), agent.note (notices ++ [.allocationFailed error]))

/-- The change can be carried out on an array with this body, unless it is refused. -/
def Change.Suits (change : Change) (body : Body) : Prop :=
  match change with
  | .settle next => next.Fits ∧ next.offset + next.capacity = body.offset + body.capacity
  | .move _ next => next.Fits ∧ 0 < next.offset + next.capacity
  | .refuse _ _ => True

/-- The reason for which a change is refused. -/
def Change.refusal? : Change → Option AllocationError
  | .settle _ => none
  | .move _ _ => none
  | .refuse _ error => some error

/-- What a change announces before it is carried out or refused. -/
def Change.notices : Change → List Event
  | .settle _ => []
  | .move notices _ => notices
  | .refuse notices _ => notices

/-- The change leaves it to the stores to report about themselves. -/
def Change.Discreet (change : Change) : Prop :=
  ∀ event ∈ change.notices, event.isOfStore = false

/-- The body after the change. -/
def Change.next (change : Change) (body : Body) : Body :=
  match change with
  | .settle next => next
  | .move _ next => next
  | .refuse _ _ => body

section Moving

variable {options : Options} {notices : List Event} {slots : Nat} {body next : Body}

theorem Change.moving_of_none (hnone : options.denial? slots = none) :
    moving options notices slots next = .move notices next := by
  simp only [moving, hnone]

theorem Change.moving_of_some {error : AllocationError}
    (hsome : options.denial? slots = some error) :
    moving options notices slots next = .refuse notices error := by
  simp only [moving, hsome]

/-- A body that fits if the store can be had at all. -/
theorem Change.suits_moving (hfits : slots ≤ maxCapacity → next.Fits)
    (hpos : 0 < next.offset + next.capacity) :
    (moving options notices slots next).Suits body := by
  cases hdenial : options.denial? slots with
  | none =>
      rw [moving_of_none hdenial]
      exact ⟨hfits (Options.denial?_eq_none_iff.1 hdenial).1, hpos⟩
  | some error =>
      rw [moving_of_some hdenial]
      exact True.intro

@[simp] theorem Change.notices_moving :
    (moving options notices slots next).notices = notices := by
  unfold moving
  split <;> rfl

@[simp] theorem Change.refusal?_moving :
    (moving options notices slots next).refusal? = options.denial? slots := by
  cases hdenial : options.denial? slots with
  | none => rw [moving_of_none hdenial, refusal?]
  | some error => rw [moving_of_some hdenial, refusal?]

theorem Change.carryOut_moving {α : Type} (array : ArrayHandle) (record : ArrayRecord)
    (answer : α) (agent : Agent) :
    (moving options [] slots next).carryOut array record answer (agent.note notices) =
      (moving options notices slots next).carryOut array record answer agent := by
  unfold moving
  split <;> simp [Change.carryOut]

end Moving

theorem Change.fst_carryOut {α : Type} (change : Change) (array : ArrayHandle)
    (record : ArrayRecord) (answer : α) (agent : Agent) :
    (change.carryOut array record answer agent).1 =
      match change.refusal? with
      | none => .ok answer
      | some error => .error (.allocation error) := by
  cases change <;> rfl

theorem Change.options_carryOut {α : Type} (change : Change) (array : ArrayHandle)
    (record : ArrayRecord) (answer : α) (agent : Agent) :
    (change.carryOut array record answer agent).2.options = agent.options := by
  cases change <;> rfl

theorem Change.rebuilds_carryOut {α : Type} {change : Change} {agent : Agent}
    {array : ArrayHandle} {record : ArrayRecord} {body : Body} (hsound : agent.heap.Sound)
    (hholds : agent.heap.Holds array record body) (hsuits : change.Suits body) (answer : α) :
    agent.heap.Rebuilds (change.carryOut array record answer agent).2.heap array record
      (change.next body) := by
  cases change with
  | settle next => exact Heap.rebuilds_reshape hsound hholds hsuits.1 hsuits.2
  | move notices next => exact Heap.rebuilds_relocate hsound hholds hsuits.1 hsuits.2
  | refuse notices error => exact Heap.rebuilds_refl hsound hholds

theorem Change.map_carryOut {α β : Type} (f : α → β) (change : Change) (array : ArrayHandle)
    (record : ArrayRecord) (answer : α) (agent : Agent) :
    ((change.carryOut array record answer agent).1.map f,
        (change.carryOut array record answer agent).2) =
      change.carryOut array record (f answer) agent := by
  cases change <;> rfl

namespace Action

variable {agent : Agent} {array : ArrayHandle} {record : ArrayRecord} {body : Body}

theorem perform_emit_note (event : Event) (agent : Agent) :
    (emit event).perform agent = (.ok (), agent.note [event]) := by
  simp [Agent.note]

theorem perform_failAllocation_note {α : Type} (error : AllocationError) (agent : Agent) :
    (failAllocation error : Action α).perform agent =
      (.error (.allocation error), agent.note [.allocationFailed error]) := by
  simp [Agent.note]

theorem perform_allocateStore_of_granted {slots : Nat}
    (hgranted : agent.options.grants slots = true) :
    (allocateStore slots).perform agent =
      (.ok (agent.heap.stores.push (Array.replicate slots .undefined)).1,
        { agent with
          heap :=
            { agent.heap with
              stores := (agent.heap.stores.push (Array.replicate slots .undefined)).2 }
          log := agent.log.push
            (.storeAllocated (agent.heap.stores.push (Array.replicate slots .undefined)).1
              slots) }) := by
  unfold allocateStore
  rw [perform_bind, perform_options, andThen_ok, perform_ite, if_pos hgranted]
  rfl

theorem perform_allocateStore_of_refused {slots : Nat}
    (hrefused : agent.options.grants slots = false) :
    (allocateStore slots).perform agent =
      (.error (.allocation (.outOfMemory slots)),
        agent.note [.allocationFailed (.outOfMemory slots)]) := by
  unfold allocateStore
  rw [perform_bind, perform_options, andThen_ok, perform_ite, hrefused,
    if_neg Bool.false_ne_true, perform_failAllocation_note]

theorem perform_releaseStore (store : StoreHandle) (agent : Agent) :
    (releaseStore store).perform agent =
      (.ok (agent.heap.stores.get? store),
        { agent with
          heap := { agent.heap with stores := (agent.heap.stores.release store).2 }
          log := agent.log.push
            (.storeReleased store ((agent.heap.stores.get? store).map Array.size)) }) := by
  rw [← Arena.release_fst]
  rfl

theorem perform_changeStore (store : StoreHandle) (change : Array Value → Array Value)
    (agent : Agent) :
    (changeStore store change).perform agent =
      (.ok (),
        { agent with
          heap := { agent.heap with stores := agent.heap.stores.modify store change } }) := rfl

theorem perform_changeArray (array : ArrayHandle) (change : ArrayRecord → ArrayRecord)
    (agent : Agent) :
    (changeArray array change).perform agent =
      (.ok (),
        { agent with
          heap := { agent.heap with arrays := agent.heap.arrays.modify array change } }) := rfl

theorem perform_setWindow (array : ArrayHandle) (window : Window) (agent : Agent) :
    (setWindow array window).perform agent =
      (.ok (), { agent with heap := agent.heap.withWindow array window }) := rfl

/-- The elements of a body are put into the store that the array moves to. -/
theorem perform_transfer {old store : StoreHandle} {headroom : Nat}
    (hlength : body.elements.length ≤ body.capacity)
    (hold : agent.heap.stores.get? old = some body.slots) :
    (transfer old body.window store headroom).perform agent =
      (.ok (),
        { agent with
          heap :=
            { agent.heap with
              stores := (agent.heap.stores.release old).2.modify store fun slots =>
                overwrite slots headroom body.elements.toArray }
          log := agent.log.push (.storeReleased old (some body.slots.size)) }) := by
  have hsize := Body.size_slots hlength
  have hlast : ¬body.slots.size < body.window.position body.window.length := by
    simp only [Body.window, Window.position]
    omega
  have hextract :
      body.slots.extract body.window.offset (body.window.position body.window.length) =
        body.elements.toArray := body.extract_slots
  unfold transfer
  rw [perform_bind, perform_releaseStore, hold, andThen_ok]
  simp only [if_neg hlast, hextract]
  rfl

/-- A store that is not to be had is asked for before anything is changed. -/
theorem perform_reallocate_of_denied (hholds : agent.heap.Holds array record body)
    {capacity headroom : Nat} (hlength : body.elements.length ≤ capacity)
    {error : AllocationError}
    (hdenied : agent.options.denial? (headroom + capacity) = some error) :
    (reallocate array capacity headroom).perform agent =
      (Change.refuse [] error).carryOut array record () agent := by
  have hwindow : record.window.length = body.elements.length := by
    rw [hholds.window_eq]
    rfl
  unfold reallocate
  rw [perform_ite]
  obtain ⟨hroom, herror⟩ | ⟨hroom, hrefused, herror⟩ := Options.denial?_eq_some_iff.1 hdenied
  · rw [if_pos hroom, perform_failAllocation_note, herror]
    rfl
  · rw [if_neg (Nat.not_lt.2 hroom), perform_bind, perform_read, hholds.deref_eq, andThen_ok,
      perform_ite, if_neg (by omega), perform_bind, perform_allocateStore_of_refused hrefused,
      andThen_error, herror]
    rfl

theorem perform_reallocate_of_granted (hsound : agent.heap.Sound)
    (hholds : agent.heap.Holds array record body) {next : Body} (hfits : next.Fits)
    (helements : next.elements = body.elements)
    (hgranted : agent.options.grants (next.offset + next.capacity) = true) :
    (reallocate array next.capacity next.offset).perform agent =
      (Change.move [] next).carryOut array record () agent := by
  have hlength := hfits.length_le
  have hroom := hfits.size_le
  have hwindow : record.window.length = next.elements.length := by
    rw [hholds.window_eq, helements]
    rfl
  have hsize : next.slots.size = next.offset + next.capacity := Body.size_slots hlength
  obtain ⟨blank, hblank⟩ :
      ∃ blank, blank = Array.replicate (next.offset + next.capacity) Value.undefined :=
    ⟨_, rfl⟩
  have hstore : (agent.heap.stores.push blank).1 = agent.heap.nextStore next :=
    Arena.push_fst_congr agent.heap.stores blank next.slots
  have hrecord :
      (agent.heap.arrays.modify array fun record =>
        { record with
          window := { record.window with capacity := next.capacity, offset := next.offset }
          store := some (agent.heap.nextStore next) }) =
      agent.heap.arrays.modify array fun record =>
        { record with window := next.window, store := some (agent.heap.nextStore next) } := by
    apply Arena.modify_congr hholds.get?_eq
    simp only [hholds.window_eq, Body.window, helements]
  unfold reallocate
  rw [perform_ite, if_neg (Nat.not_lt.2 hroom), perform_bind, perform_read,
    hholds.deref_eq, andThen_ok, perform_ite, if_neg (by omega), perform_bind,
    perform_allocateStore_of_granted hgranted, andThen_ok, perform_bind, ← hblank, hstore, ← hsize]
  cases hown : record.store with
  | none =>
      have hnil : next.elements = [] := by
        rw [helements, hholds.eq_empty hown]
        rfl
      have hslots : blank = next.slots := by
        rw [hblank, Body.slots_of_elements_eq_nil hnil]
      change Outcome.andThen ((pure () : Action Unit).perform _) _ = _
      rw [perform_pure, andThen_ok, perform_changeArray, hslots]
      simp only [hrecord, Change.carryOut, Agent.note_nil, Agent.relocate, Heap.relocate, hown,
        Heap.moveEvents, Option.map_none, Option.toList_none]
      simp [Heap.nextStore]
  | some old =>
      have hslots := hholds.stores_eq old hown
      have hne := Heap.ne_nextStore hsound hslots next
      have hpushed := Arena.push_modify hsound.arenas.stores blank fun slots =>
        overwrite slots next.offset body.elements.toArray
      have hfill : overwrite blank next.offset body.elements.toArray = next.slots := by
        rw [hblank, ← helements]
        exact Body.overwrite_replicate next.offset next.capacity hlength
      rw [hstore, hfill] at hpushed
      change Outcome.andThen
        ((transfer old record.window (agent.heap.nextStore next) next.offset).perform _) _ = _
      rw [hholds.window_eq, perform_transfer hholds.fits.length_le, andThen_ok,
        perform_changeArray]
      · simp only [hrecord, Change.carryOut, Agent.note_nil, Agent.relocate,
          Heap.relocate, hown, Heap.moveEvents, Option.map_some, Option.toList_some, hslots]
        rw [Arena.release_modify_of_ne _ _ hne.symm, hpushed]
        simp [Heap.nextStore, ← Array.toList_inj]
      · rw [← hslots]
        exact Arena.get?_push_of_ne (by rw [hstore]; exact hne)

/-- Reallocation moves the elements behind the headroom, if there is such a store. -/
theorem perform_reallocate (agent : Agent) (hsound : agent.heap.Sound)
    (hholds : agent.heap.Holds array record body) {next : Body}
    (hlength : next.elements.length ≤ next.capacity) (helements : next.elements = body.elements) :
    (reallocate array next.capacity next.offset).perform agent =
      (Change.moving agent.options [] (next.offset + next.capacity) next).carryOut array record ()
        agent := by
  cases hdenial : agent.options.denial? (next.offset + next.capacity) with
  | some error =>
      rw [Change.moving_of_some hdenial]
      exact perform_reallocate_of_denied hholds (helements ▸ hlength) hdenial
  | none =>
      obtain ⟨hroom, hgranted⟩ := Options.denial?_eq_none_iff.1 hdenial
      rw [Change.moving_of_none hdenial]
      exact perform_reallocate_of_granted hsound hholds ⟨hlength, hroom⟩ helements hgranted

end Action

end ManagedHeap
