import ManagedHeap.Growth
import ManagedHeap.Record

/-!
# Window arithmetic in machine words

A window is kept in words of 32 bits, the length in a signed one, and indices come as
signed words too.  Positions and the sizes of stores are worked out in words of 64
bits.  Here the arithmetic of the array operations is done in words that wrap around,
and it is shown that none of it ever does: every result is the exact one, and every
number survives being moved from one kind of word to another.
-/

namespace ManagedHeap

/-! ## Growth in words -/

namespace GrowthPolicy

/-- The policy that two words describe. -/
def ofWords (minIncrement minHeadroom : UInt32) : GrowthPolicy :=
  ⟨minIncrement.toNat, minHeadroom.toNat⟩

/-- The capacity to grow to, worked out in words of 64 bits. -/
def grownWord (minIncrement capacity required : UInt32) : Except AllocationError UInt32 :=
  if 2147483647 < required then .error (.capacityOverflow required.toUInt64.toNat)
  else
    let doubled := capacity.toUInt64 * 2
    let increased := capacity.toUInt64 + minIncrement.toUInt64
    .ok (min (max (max doubled increased) required.toUInt64) 2147483647).toUInt32

def headroomWord (minHeadroom length : UInt32) : UInt32 :=
  max (max length minHeadroom) 1

/-- The number of slots of a store. -/
def slotsWord (headroom capacity : UInt32) : UInt64 :=
  headroom.toUInt64 + capacity.toUInt64

theorem toNat_max_word32 (first second : UInt32) :
    (max first second).toNat = max first.toNat second.toNat := by
  change (if first ≤ second then second else first).toNat = _
  simp only [Nat.max_def, UInt32.le_iff_toNat_le]
  split <;> rfl

theorem toNat_max_word64 (first second : UInt64) :
    (max first second).toNat = max first.toNat second.toNat := by
  change (if first ≤ second then second else first).toNat = _
  simp only [Nat.max_def, UInt64.le_iff_toNat_le]
  split <;> rfl

theorem toNat_min_word64 (first second : UInt64) :
    (min first second).toNat = min first.toNat second.toNat := by
  change (if first ≤ second then first else second).toNat = _
  simp only [Nat.min_def, UInt64.le_iff_toNat_le]
  split <;> rfl

theorem map_toNat_grownWord (minIncrement minHeadroom capacity required : UInt32) :
    (grownWord minIncrement capacity required).map UInt32.toNat =
      (ofWords minIncrement minHeadroom).grownCapacity capacity.toNat required.toNat := by
  have hincrement := minIncrement.toNat_lt
  have hcapacity := capacity.toNat_lt
  have hrequired := required.toNat_lt
  have hdoubled : (capacity.toUInt64 * 2).toNat = 2 * capacity.toNat := by
    rw [UInt64.toNat_mul, UInt32.toNat_toUInt64]
    change capacity.toNat * 2 % 2 ^ 64 = _
    omega
  have hincreased : (capacity.toUInt64 + minIncrement.toUInt64).toNat =
      capacity.toNat + minIncrement.toNat := by
    rw [UInt64.toNat_add, UInt32.toNat_toUInt64, UInt32.toNat_toUInt64]
    omega
  unfold grownWord grownCapacity
  by_cases hlarge : 2147483647 < required
  · have hlargeNat : maxCapacity < required.toNat := UInt32.lt_iff_toNat_lt.1 hlarge
    rw [if_pos hlarge, if_pos hlargeNat, UInt32.toNat_toUInt64]
    rfl
  · have hlargeNat : ¬maxCapacity < required.toNat := fun h => hlarge (UInt32.lt_iff_toNat_lt.2 h)
    have hlimit : (2147483647 : UInt64).toNat = maxCapacity := rfl
    rw [if_neg hlarge, if_neg hlargeNat]
    simp only [Except.map, UInt64.toNat_toUInt32, toNat_min_word64, toNat_max_word64, hdoubled,
      hincreased, UInt32.toNat_toUInt64, hlimit, ofWords]
    congr 1
    apply Nat.mod_eq_of_lt
    simp only [maxCapacity]
    omega

theorem toNat_headroomWord (minIncrement minHeadroom length : UInt32) :
    (headroomWord minHeadroom length).toNat =
      (ofWords minIncrement minHeadroom).headroom length.toNat := by
  unfold headroomWord headroom
  rw [toNat_max_word32, toNat_max_word32]
  rfl

theorem toNat_slotsWord (headroom capacity : UInt32) :
    (slotsWord headroom capacity).toNat = headroom.toNat + capacity.toNat := by
  have hheadroom := headroom.toNat_lt
  have hcapacity := capacity.toNat_lt
  unfold slotsWord
  rw [UInt64.toNat_add, UInt32.toNat_toUInt64, UInt32.toNat_toUInt64]
  omega

/-- A number of slots that a store can have fits the smaller word. -/
theorem toNat_toUInt32_slotsWord {headroom capacity : UInt32}
    (hroom : headroom.toNat + capacity.toNat ≤ maxCapacity) :
    (slotsWord headroom capacity).toUInt32.toNat = headroom.toNat + capacity.toNat := by
  rw [UInt64.toNat_toUInt32, toNat_slotsWord]
  apply Nat.mod_eq_of_lt
  simp only [maxCapacity] at hroom
  omega

end GrowthPolicy

/-! ## Windows in words -/

/-- What a signed word is as an unsigned one. -/
theorem toInt_eq_toUInt32 (word : Int32) :
    word.toInt =
      if word.toUInt32.toNat < 2147483648 then (word.toUInt32.toNat : Int)
      else word.toUInt32.toNat - 4294967296 := by
  have hcond := BitVec.toInt_eq_toNat_cond word.toBitVec
  change word.toBitVec.toInt = _
  rw [hcond]
  change (if 2 * word.toUInt32.toNat < 4294967296 then (word.toUInt32.toNat : Int)
    else word.toUInt32.toNat - 4294967296) = _
  split <;> split <;> omega

theorem toNat_toUInt32 {index : Int32} (hindex : 0 ≤ index.toInt) :
    index.toUInt32.toNat = index.toInt.toNat := by
  have hlimit := index.toUInt32.toNat_lt
  have hword := toInt_eq_toUInt32 index
  split at hword <;> omega

/-- The slots that a write at an index asks for. -/
theorem toNat_required {index : Int32} (hindex : 0 ≤ index.toInt) :
    (index.toUInt32 + 1).toNat = index.toInt.toNat + 1 := by
  have hlimit := index.toUInt32.toNat_lt
  have hword := toInt_eq_toUInt32 index
  rw [UInt32.toNat_add]
  change (index.toUInt32.toNat + 1) % 2 ^ 32 = _
  split at hword <;> omega

/-- A number that fits a signed word does not wrap around. -/
theorem bmod_word {number : Int} (hlow : -2147483648 ≤ number) (hhigh : number ≤ 2147483647) :
    number.bmod 4294967296 = number := by
  apply Int.bmod_eq_of_le
  · omega
  · omega

namespace Window

def lengthWord (window : Window) : Int32 := Int32.ofNat window.length

def capacityWord (window : Window) : UInt32 := UInt32.ofNat window.capacity

def offsetWord (window : Window) : UInt32 := UInt32.ofNat window.offset

/-- The one unsigned comparison that checks both bounds of an index. -/
def Covers (window : Window) (index : Int32) : Prop := index.toUInt32 < window.capacityWord

def positionWord (window : Window) (index : UInt32) : UInt64 :=
  window.offsetWord.toUInt64 + index.toUInt64

/-- The numbers of a window are exact in their words, and so is all arithmetic that the
operations do with them. -/
structure Exact (window : Window) : Prop where
  length_eq : window.lengthWord.toInt = window.length
  length_unsigned : window.lengthWord.toUInt32.toNat = window.length
  capacity_eq : window.capacityWord.toNat = window.capacity
  offset_eq : window.offsetWord.toNat = window.offset
  covers_iff : ∀ index : Int32,
    window.Covers index ↔ 0 ≤ index.toInt ∧ index.toInt < window.capacity
  /-- The length after a write at an index. -/
  covers_succ : ∀ index : Int32, window.Covers index → (index + 1).toInt = index.toInt + 1
  position_eq : ∀ index : Int32, window.Covers index →
    (window.positionWord index.toUInt32).toNat = window.position index.toInt.toNat
  position_length : (window.positionWord window.lengthWord.toUInt32).toNat =
    window.position window.length
  /-- Removing the last element, and the first. -/
  length_pred : 0 < window.length → (window.lengthWord - 1).toInt = window.length - 1
  shift_eq : 0 < window.length → (window.offsetWord + 1).toNat = window.offset + 1 ∧
    (window.capacityWord - 1).toNat = window.capacity - 1
  /-- Inserting an element where the offset leaves room. -/
  unshift_eq : 0 < window.offset → (window.offsetWord - 1).toNat = window.offset - 1 ∧
    (window.capacityWord + 1).toNat = window.capacity + 1 ∧
      (window.lengthWord + 1).toInt = window.length + 1

theorem toNat_word_of_le {number : Nat} (hnumber : number ≤ maxCapacity) :
    (UInt32.ofNat number).toNat = number := by
  rw [UInt32.toNat_ofNat']
  simp only [maxCapacity] at hnumber
  omega

theorem toNat_lengthWord {window : Window} (hlength : window.length ≤ maxCapacity) :
    window.lengthWord.toUInt32.toNat = window.length :=
  toNat_word_of_le hlength

theorem toInt_lengthWord {window : Window} (hlength : window.length ≤ maxCapacity) :
    window.lengthWord.toInt = window.length := by
  rw [toInt_eq_toUInt32, toNat_lengthWord hlength, if_pos]
  simp only [maxCapacity] at hlength
  omega

theorem toNat_positionWord {window : Window} (hoffset : window.offset ≤ maxCapacity)
    (index : UInt32) : (window.positionWord index).toNat = window.position index.toNat := by
  have hindex := index.toNat_lt
  have hword : window.offsetWord.toNat = window.offset := toNat_word_of_le hoffset
  unfold positionWord position
  rw [UInt64.toNat_add, UInt32.toNat_toUInt64, UInt32.toNat_toUInt64, hword]
  simp only [maxCapacity] at hoffset
  omega

/-- Negative indices are large as unsigned words, beyond any capacity. -/
theorem covers_iff_of_le {window : Window} (hcapacity : window.capacity ≤ maxCapacity)
    (index : Int32) :
    window.Covers index ↔ 0 ≤ index.toInt ∧ index.toInt < window.capacity := by
  have hlimit := index.toUInt32.toNat_lt
  have hindex := toInt_eq_toUInt32 index
  have hword : window.capacityWord.toNat = window.capacity := toNat_word_of_le hcapacity
  unfold Covers
  rw [UInt32.lt_iff_toNat_lt, hword]
  simp only [maxCapacity] at hcapacity
  split at hindex <;> omega

theorem exact_of_le {window : Window} (hlength : window.length ≤ window.capacity)
    (hsize : window.offset + window.capacity ≤ maxCapacity) : window.Exact := by
  have hlengthInt : window.lengthWord.toInt = window.length := toInt_lengthWord (by omega)
  have hlengthNat : window.lengthWord.toUInt32.toNat = window.length :=
    toNat_lengthWord (by omega)
  have hcapacity : window.capacityWord.toNat = window.capacity := toNat_word_of_le (by omega)
  have hoffset : window.offsetWord.toNat = window.offset := toNat_word_of_le (by omega)
  have hcovers := window.covers_iff_of_le (by omega)
  have hposition := window.toNat_positionWord (by omega)
  have hone : (1 : Int32).toInt = 1 := rfl
  simp only [maxCapacity] at hsize
  refine
    { length_eq := hlengthInt
      length_unsigned := hlengthNat
      capacity_eq := hcapacity
      offset_eq := hoffset
      covers_iff := hcovers
      covers_succ := ?_
      position_eq := ?_
      position_length := ?_
      length_pred := ?_
      shift_eq := ?_
      unshift_eq := ?_ }
  · intro index hindex
    have hinside := (hcovers index).1 hindex
    rw [Int32.toInt_add, hone]
    exact bmod_word (by omega) (by omega)
  · intro index hindex
    rw [hposition, toNat_toUInt32 ((hcovers index).1 hindex).1]
  · rw [hposition, hlengthNat]
  · intro hpos
    rw [Int32.toInt_sub, hlengthInt, hone]
    exact bmod_word (by omega) (by omega)
  · intro hpos
    rw [UInt32.toNat_add, UInt32.toNat_sub, hoffset, hcapacity]
    change (window.offset + 1) % 2 ^ 32 = _ ∧ (2 ^ 32 - 1 + window.capacity) % 2 ^ 32 = _
    omega
  · intro hpos
    have hlonger : (window.lengthWord + 1).toInt = window.length + 1 := by
      rw [Int32.toInt_add, hlengthInt, hone]
      exact bmod_word (by omega) (by omega)
    rw [UInt32.toNat_add, UInt32.toNat_sub, hoffset, hcapacity, hlonger]
    change (2 ^ 32 - 1 + window.offset) % 2 ^ 32 = _ ∧ (window.capacity + 1) % 2 ^ 32 = _ ∧ _
    omega

/-- What a window grows to is exact as well, under the policy that two words describe. -/
structure GrowsExactly (minIncrement minHeadroom : UInt32) (window : Window) : Prop where
  grown_eq : ∀ index : Int32, 0 ≤ index.toInt →
    (GrowthPolicy.grownWord minIncrement window.capacityWord (index.toUInt32 + 1)).map
        UInt32.toNat =
      (GrowthPolicy.ofWords minIncrement minHeadroom).grownCapacity window.capacity
        (index.toInt.toNat + 1)
  headroom_eq : (GrowthPolicy.headroomWord minHeadroom window.lengthWord.toUInt32).toNat =
    (GrowthPolicy.ofWords minIncrement minHeadroom).headroom window.length
  slots_eq : ∀ headroom : UInt32,
    (GrowthPolicy.slotsWord headroom window.capacityWord).toNat =
      headroom.toNat + window.capacity
  /-- The number of slots is moved to the smaller word only if a store can have as many. -/
  slots_narrow : ∀ headroom : UInt32, headroom.toNat + window.capacity ≤ maxCapacity →
    (GrowthPolicy.slotsWord headroom window.capacityWord).toUInt32.toNat =
      headroom.toNat + window.capacity
  /-- Wherever the elements move to, the numbers are exact again. -/
  moved_exact : ∀ capacity offset : Nat, window.length ≤ capacity →
    offset + capacity ≤ maxCapacity →
    Exact { window with capacity := capacity, offset := offset }

theorem Exact.growsExactly {window : Window} (hexact : window.Exact)
    (minIncrement minHeadroom : UInt32) : window.GrowsExactly minIncrement minHeadroom where
  grown_eq := by
    intro index hindex
    rw [GrowthPolicy.map_toNat_grownWord minIncrement minHeadroom, hexact.capacity_eq,
      toNat_required hindex]
  headroom_eq := by
    rw [GrowthPolicy.toNat_headroomWord minIncrement, hexact.length_unsigned]
  slots_eq := by
    intro headroom
    rw [GrowthPolicy.toNat_slotsWord, hexact.capacity_eq]
  slots_narrow := by
    intro headroom hroom
    rw [← hexact.capacity_eq] at hroom ⊢
    exact GrowthPolicy.toNat_toUInt32_slotsWord hroom
  moved_exact := by
    intro capacity offset hlength hsize
    exact exact_of_le hlength hsize

end Window

end ManagedHeap
