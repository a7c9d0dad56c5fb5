import ManagedHeap.Event
import ManagedHeap.Growth
import ManagedHeap.Heap

/-!
# Agents

An agent owns a heap, the options it was started with, and the log of what it
has reported.  An action changes the agent and either answers or faults; what
it did before a fault stays done.

The memory for backing stores comes from an allocator, which may refuse it.  The
allocator is told the number of slots, and nothing else is known about it.
-/

namespace ManagedHeap

structure Options where
  disableCollection : Bool
  growth : GrowthPolicy
  /-- Whether the memory for a store of so many slots can be had.  A slot takes eight
  bytes, so the largest store of all would take sixteen gibibytes. -/
  grants : Nat → Bool := fun slots => decide (slots < maxCapacity)

namespace Options

def standard : Options where
  disableCollection := false
  growth := .standard

/-- Why there is no store of so many slots to be had, if there is none. -/
def denial? (options : Options) (slots : Nat) : Option AllocationError :=
  if maxCapacity < slots then some (.capacityOverflow slots)
  else if options.grants slots then none
  else some (.outOfMemory slots)

/-- The allocator never refuses a store that an array can have. -/
def Provides (options : Options) : Prop :=
  ∀ slots, slots ≤ maxCapacity → options.grants slots = true

variable {options : Options} {slots : Nat}

theorem denial?_of_lt (hslots : maxCapacity < slots) :
    options.denial? slots = some (.capacityOverflow slots) :=
  if_pos hslots

theorem denial?_of_le (hslots : slots ≤ maxCapacity) :
    options.denial? slots = if options.grants slots then none else some (.outOfMemory slots) :=
  if_neg (Nat.not_lt.2 hslots)

theorem denial?_eq_none_iff :
    options.denial? slots = none ↔ slots ≤ maxCapacity ∧ options.grants slots = true := by
  by_cases hslots : maxCapacity < slots
  · simp [denial?_of_lt hslots, Nat.not_le.2 hslots]
  · have hroom := Nat.not_lt.1 hslots
    simp [denial?_of_le hroom, hroom]

/-- A store has too many slots for any array, or else the allocator refuses it. -/
theorem denial?_eq_some_iff {error : AllocationError} :
    options.denial? slots = some error ↔
      (maxCapacity < slots ∧ error = .capacityOverflow slots) ∨
        (slots ≤ maxCapacity ∧ options.grants slots = false ∧ error = .outOfMemory slots) := by
  by_cases hslots : maxCapacity < slots
  · rw [denial?_of_lt hslots, Option.some.injEq, eq_comm]
    simp [hslots, Nat.not_le.2 hslots]
  · have hroom := Nat.not_lt.1 hslots
    rw [denial?_of_le hroom]
    cases hgrants : options.grants slots
    · simp [hslots, hroom, eq_comm]
    · simp [hslots]

theorem Provides.denial?_eq_none (hprovides : options.Provides) (hslots : slots ≤ maxCapacity) :
    options.denial? slots = none :=
  denial?_eq_none_iff.2 ⟨hslots, hprovides slots hslots⟩

end Options

structure Agent where
  heap : Heap
  options : Options
  log : Array Event

def Agent.start (options : Options) : Agent where
  heap := .fresh
  options := options
  log := #[]

abbrev Action := ExceptT Fault (StateM Agent)

/-- What an action answers, and the agent that it leaves behind. -/
abbrev Outcome (α : Type) := Except Fault α × Agent

/-- Goes on from an answer, and stops at a fault. -/
def Outcome.andThen {α β : Type} (outcome : Outcome α) (next : α → Agent → Outcome β) :
    Outcome β :=
  match outcome with
  | (.ok x, agent) => next x agent
  | (.error cause, agent) => (.error cause, agent)

namespace Action

def perform {α : Type} (action : Action α) (agent : Agent) : Outcome α :=
  action.run.run agent

def read {α : Type} (question : Heap → Except Fault α) : Action α :=
  ExceptT.mk fun agent => (question agent.heap, agent)

/-- Changes the heap and answers something about the change. -/
def transform {α : Type} (change : Heap → α × Heap) : Action α :=
  ExceptT.mk fun agent =>
    let (answer, heap) := change agent.heap
    (.ok answer, { agent with heap := heap })

def update (change : Heap → Heap) : Action Unit :=
  transform fun heap => ((), change heap)

def options : Action Options :=
  ExceptT.mk fun agent => (.ok agent.options, agent)

def emit (event : Event) : Action Unit :=
  ExceptT.mk fun agent => (.ok (), { agent with log := agent.log.push event })

/-- A failed allocation is reported and then fatal to the action. -/
def failAllocation {α : Type} (error : AllocationError) : Action α := do
  emit (.allocationFailed error)
  throw (.allocation error)

/-! ## New entities -/

def newString (text : String) : Action Value :=
  transform fun heap =>
    let (handle, strings) := heap.strings.push text
    (.string handle, { heap with strings := strings })

/-- The value of a number.  It is an unboxed integer whenever that loses nothing. -/
def newNumber (x : Binary64) : Action Value :=
  match x.toInt32? with
  | some n => pure (.integer n)
  | none =>
      transform fun heap =>
        let (handle, numbers) := heap.numbers.push x
        (.number handle, { heap with numbers := numbers })

def newObject (map : ObjectMap) (proto : Option Object) (tag : UInt32) : Action ObjectHandle :=
  transform fun heap =>
    let (handle, objects) := heap.objects.push (.new map proto tag)
    (handle, { heap with objects := objects })

def newClosure (env : Value) (behaviour : Behaviour) : Action ClosureHandle :=
  transform fun heap =>
    let (handle, closures) := heap.closures.push ⟨env, behaviour⟩
    (handle, { heap with closures := closures })

/-- An empty array without a backing store. -/
def newArray (tag : UInt32) : Action ArrayHandle :=
  transform fun heap =>
    let (handle, arrays) := heap.arrays.push (.new (some (.ordinary arrayPrototype)) tag)
    (handle, { heap with arrays := arrays })

/-! ## How actions are performed -/

variable {α β : Type}

@[simp] theorem andThen_ok (x : α) (agent : Agent) (next : α → Agent → Outcome β) :
    Outcome.andThen (.ok x, agent) next = next x agent := rfl

@[simp] theorem andThen_error (cause : Fault) (agent : Agent)
    (next : α → Agent → Outcome β) :
    Outcome.andThen (.error cause, agent) next = (.error cause, agent) := rfl

@[simp] theorem perform_pure (x : α) (agent : Agent) :
    (pure x : Action α).perform agent = (.ok x, agent) := rfl

@[simp] theorem perform_throw (cause : Fault) (agent : Agent) :
    (throw cause : Action α).perform agent = (.error cause, agent) := rfl

theorem perform_bind (action : Action α) (next : α → Action β) (agent : Agent) :
    (action >>= next).perform agent =
      Outcome.andThen (action.perform agent) fun x after => (next x).perform after := by
  simp only [perform, ExceptT.run_bind, StateT.run_bind]
  rcases action.run.run agent with ⟨_ | _, _⟩ <;> rfl

theorem perform_map (f : α → β) (action : Action α) (agent : Agent) :
    (f <$> action).perform agent =
      ((action.perform agent).1.map f, (action.perform agent).2) := by
  simp only [perform, ExceptT.run_map, StateT.run_map]
  rfl

@[simp] theorem perform_liftExcept (answer : Except Fault α) (agent : Agent) :
    (liftM answer : Action α).perform agent = (answer, agent) := rfl

@[simp] theorem perform_read (question : Heap → Except Fault α) (agent : Agent) :
    (read question).perform agent = (question agent.heap, agent) := rfl

@[simp] theorem perform_transform (change : Heap → α × Heap) (agent : Agent) :
    (transform change).perform agent =
      (.ok (change agent.heap).1, { agent with heap := (change agent.heap).2 }) := rfl

@[simp] theorem perform_update (change : Heap → Heap) (agent : Agent) :
    (update change).perform agent =
      (.ok (), { agent with heap := change agent.heap }) := rfl

@[simp] theorem perform_options (agent : Agent) :
    options.perform agent = (.ok agent.options, agent) := rfl

@[simp] theorem perform_emit (event : Event) (agent : Agent) :
    (emit event).perform agent =
      (.ok (), { agent with log := agent.log.push event }) := rfl

@[simp] theorem perform_failAllocation (error : AllocationError) (agent : Agent) :
    (failAllocation error : Action α).perform agent =
      (.error (.allocation error),
        { agent with log := agent.log.push (.allocationFailed error) }) := rfl

theorem perform_ite (p : Prop) [Decidable p] (first second : Action α) (agent : Agent) :
    (if p then first else second).perform agent =
      if p then first.perform agent else second.perform agent := by
  split <;> rfl

end Action

end ManagedHeap
