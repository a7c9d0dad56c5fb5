import ManagedHeap.Proofs.IntegerPatterns
import ManagedHeap.Proofs.SlotReuse
import ManagedHeap.Proofs.Soundness

/-!
# Boxed numbers

A number takes a slot of its own only if it is no integer, so a value tells by its kind which
of the two it is.  Slots of numbers are written once, when they are taken, and are given back
only by collections: what is in one was boxed, at whatever time that was.
-/

namespace ManagedHeap

namespace Heap

def NumbersBoxed (heap : Heap) : Prop :=
  ∀ handle x, heap.numbers.get? handle = some x → x.toInt32? = none

theorem toBinary64?_integer (heap : Heap) (n : Int32) :
    heap.toBinary64? (.integer n) = .ok (some (.ofInt32 n)) := rfl

theorem toBinary64?_number {heap : Heap} {handle : NumberHandle} {x : Binary64}
    (hget : heap.numbers.get? handle = some x) :
    heap.toBinary64? (.number handle) = .ok (some x) := by
  simp only [toBinary64?, Arena.deref_eq_ok_iff.2 hget, Except.map]

variable {before after : Heap}

theorem NumbersBoxed.of_eq (hboxed : before.NumbersBoxed)
    (hnumbers : after.numbers = before.numbers) : after.NumbersBoxed := by
  intro handle x hget
  rw [hnumbers] at hget
  exact hboxed handle x hget

theorem QuietStep.numbersBoxed (hstep : before.QuietStep after)
    (harenas : before.ArenasWellFormed) (hboxed : before.NumbersBoxed) : after.NumbersBoxed := by
  cases hstep with
  | newString | newObject | newClosure | writeField => exact hboxed.of_eq rfl
  | changeHeader object change =>
      cases object with
      | ordinary | array => exact hboxed.of_eq rfl
  | @newNumber x hnone =>
      intro handle y hget
      by_cases hhandle : handle = (before.numbers.push x).1
      · rw [hhandle, Arena.get?_push_self harenas.numbers, Option.some_inj] at hget
        rwa [← hget]
      · rw [Arena.get?_push_of_ne hhandle] at hget
        exact hboxed handle y hget

theorem numbersBoxed_fresh : fresh.NumbersBoxed := by
  intro handle x hget
  simp [fresh, Arena.empty, Arena.get?] at hget

theorem lasting_numbersBoxed : Lasting NumbersBoxed where
  quietStep _ _ hstep harenas hboxed := hstep.numbersBoxed harenas hboxed
  of_eq _ _ _ _ hnumbers _ hboxed := hboxed.of_eq hnumbers
  collects _ _ _ hcollects hboxed handle x hget :=
    hboxed handle x (hcollects.numbers.get?_eq_some_iff.1 hget).2

end Heap

namespace Agent

/-- The number has been put into a slot where there was none, and nothing else has changed. -/
structure Boxes (before : Agent) (x : Binary64) (handle : NumberHandle) (after : Agent) :
    Prop where
  takes : before.heap.numbers.Takes x handle after.heap.numbers
  liveCount_eq : after.heap.numbers.liveCount = before.heap.numbers.liveCount + 1
  rest_eq : after = { before with heap := { before.heap with numbers := after.heap.numbers } }

variable {agent : Agent} {x : Binary64}

theorem perform_newNumber_of_encodes {n : Int32} (hencodes : x.Encodes n) :
    (Action.newNumber x).perform agent = (.ok (.integer n), agent) := by
  unfold Action.newNumber
  rw [Binary64.toInt32?_eq_some_iff.2 hencodes]
  rfl

theorem perform_newNumber_of_toInt32?_eq_none (hnone : x.toInt32? = none) :
    (Action.newNumber x).perform agent =
      (.ok (.number (agent.heap.numbers.push x).1),
        { agent with heap := { agent.heap with numbers := (agent.heap.numbers.push x).2 } }) := by
  unfold Action.newNumber
  rw [hnone]
  rfl

theorem boxes_newNumber (hnumbers : agent.heap.numbers.WellFormed) (hnone : x.toInt32? = none) :
    ∃ handle after, (Action.newNumber x).perform agent = (.ok (.number handle), after) ∧
      after.heap.toBinary64? (.number handle) = .ok (some x) ∧ agent.Boxes x handle after :=
  ⟨_, _, perform_newNumber_of_toInt32?_eq_none hnone,
    Heap.toBinary64?_number (Arena.get?_push_self hnumbers x),
    hnumbers.takes x, hnumbers.liveCount_push x, rfl⟩

/-- Boxing loses nothing of a number.  An integer, unless it is the negative zero, becomes a
value without a change to the heap; any other number takes one new slot.  So no slot ever has a
number that is an integer. -/
theorem number_boxing_run (options : Options) (operations : List (Operation Value)) :
    let agent := (start options).run operations
    (∀ x, ∃ value after,
      (Action.newNumber x).perform agent = (.ok value, after) ∧
      after.heap.toBinary64? value = .ok (some x) ∧
      (∀ n, value = .integer n ↔ x.Encodes n) ∧
      ((∃ n, x.Encodes n) → after = agent) ∧
      ((¬∃ n, x.Encodes n) → ∃ handle, value = .number handle ∧ agent.Boxes x handle after)) ∧
    ∀ handle x, agent.heap.numbers.get? handle = some x → ¬∃ n, x.Encodes n := by
  intro agent
  have hsound : agent.Sound := (sound_start options).run operations
  have hboxed : agent.heap.NumbersBoxed :=
    lasting_run Heap.lasting_numbersBoxed Heap.numbersBoxed_fresh options operations
  refine ⟨?_, fun handle x hget => Binary64.toInt32?_eq_none_iff.1 (hboxed handle x hget)⟩
  intro x
  by_cases hinteger : ∃ n, x.Encodes n
  · obtain ⟨n, hencodes⟩ := hinteger
    refine ⟨.integer n, agent, perform_newNumber_of_encodes hencodes, ?_, ?_, fun _ => rfl,
      fun hnone => absurd ⟨n, hencodes⟩ hnone⟩
    · rw [Heap.toBinary64?_integer, ← Binary64.eq_ofInt32_iff.2 hencodes]
    · intro m
      have hsome := Binary64.toInt32?_eq_some_iff.2 hencodes
      rw [← Binary64.toInt32?_eq_some_iff, hsome, Option.some_inj, Value.integer.injEq]
  · obtain ⟨handle, after, hperform, hback, hboxes⟩ :=
      boxes_newNumber hsound.arenas.numbers (Binary64.toInt32?_eq_none_iff.2 hinteger)
    refine ⟨.number handle, after, hperform, hback, ?_, fun hsome => absurd hsome hinteger,
      fun _ => ⟨handle, rfl, hboxes⟩⟩
    intro n
    exact ⟨fun heq => Value.noConfusion heq, fun hencodes => absurd ⟨n, hencodes⟩ hinteger⟩

end Agent

end ManagedHeap
