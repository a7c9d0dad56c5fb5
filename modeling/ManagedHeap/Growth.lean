import ManagedHeap.Fault

/-!
# Growth policies

How much room an array gets when it has to move.  Room behind the elements
doubles, and room in front of them matches their number, so that either end
takes many elements before the array moves again.  The two parameters keep
small arrays from moving too often.
-/

namespace ManagedHeap

/-- The largest number of slots of a backing store.  Lengths are signed 32-bit
words. -/
def maxCapacity : Nat := 2147483647

structure GrowthPolicy where
  /-- The least number of slots that growth adds. -/
  minIncrement : Nat
  /-- The least number of slots that are reserved in front. -/
  minHeadroom : Nat
deriving DecidableEq

namespace GrowthPolicy

def standard : GrowthPolicy := ⟨8, 4⟩

/-- The capacity to grow to when `required` slots have to fit. -/
def grownCapacity (policy : GrowthPolicy) (capacity required : Nat) :
    Except AllocationError Nat :=
  if maxCapacity < required then .error (.capacityOverflow required)
  else
    .ok (min (max (max (2 * capacity) (capacity + policy.minIncrement)) required) maxCapacity)

/-- The number of slots to reserve in front of `length` elements, at least one. -/
def headroom (policy : GrowthPolicy) (length : Nat) : Nat :=
  max (max length policy.minHeadroom) 1

theorem grownCapacity_bounds {policy : GrowthPolicy} {capacity required grown : Nat}
    (hgrown : policy.grownCapacity capacity required = .ok grown) :
    required ≤ grown ∧ grown ≤ maxCapacity := by
  unfold grownCapacity at hgrown
  split at hgrown
  · simp at hgrown
  · simp only [Except.ok.injEq] at hgrown
    omega

/-- Growth doubles a capacity unless it comes to the largest. -/
theorem double_le_grownCapacity {policy : GrowthPolicy} {capacity required grown : Nat}
    (hgrown : policy.grownCapacity capacity required = .ok grown) :
    2 * capacity ≤ grown ∨ maxCapacity ≤ grown := by
  unfold grownCapacity at hgrown
  split at hgrown
  · simp at hgrown
  · simp only [Except.ok.injEq] at hgrown
    omega

theorem grownCapacity_eq_error_iff {policy : GrowthPolicy} {capacity required : Nat}
    {error : AllocationError} :
    policy.grownCapacity capacity required = .error error ↔
      maxCapacity < required ∧ error = .capacityOverflow required := by
  unfold grownCapacity
  split
  · rename_i hrequired
    simp [hrequired, eq_comm]
  · rename_i hrequired
    simp [hrequired]

theorem headroom_pos (policy : GrowthPolicy) (length : Nat) :
    0 < policy.headroom length := by
  unfold headroom
  omega

theorem le_headroom (policy : GrowthPolicy) (length : Nat) :
    length ≤ policy.headroom length := by
  unfold headroom
  omega

end GrowthPolicy

end ManagedHeap
