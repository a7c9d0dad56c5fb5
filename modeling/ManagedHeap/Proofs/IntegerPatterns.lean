import Mathlib.Tactic.Ring
import ManagedHeap.Binary64

/-!
# Patterns of integers

Every 32-bit integer is some double-precision number exactly, and but for zero it is so in one
pattern only: the significands of two patterns with the same exponent field differ, and a larger
exponent field makes for a larger number.  Truncation finds the integer that a number is, so a
number is replaced with an integer if and only if it is one, and the integer gives the pattern
back.
-/

namespace ManagedHeap

namespace Binary64

variable {x y : Binary64} {n : Int}

/-- The zero with the negative sign. -/
def negativeZero : Binary64 := ⟨9223372036854775808⟩

/-- The pattern is that of an integer.  The negative zero is no integer, though it is equal to
zero. -/
def Encodes (x : Binary64) (n : Int32) : Prop := x.HasValue n.toInt ∧ x ≠ negativeZero

/-! ## The parts of a pattern -/

theorem ext_parts (hsign : x.isNegative = y.isNegative) (hexponent : x.exponent = y.exponent)
    (hfraction : x.fraction = y.fraction) : x = y := by
  obtain ⟨first⟩ := x
  obtain ⟨second⟩ := y
  have hfirst := first.toNat_lt
  have hsecond := second.toNat_lt
  have hsides := decide_eq_decide.1 hsign
  simp only [exponent, fraction, leadingPlace] at hsides hexponent hfraction
  have hbits : first.toNat = second.toNat := by omega
  rw [UInt64.toNat_inj.1 hbits]

/-- A pattern put together from its parts. -/
theorem parts_ofNat {sign field rest : Nat} (hsign : sign = 0 ∨ sign = 2048)
    (hfield : field < 2048) (hrest : rest < leadingPlace) :
    let x : Binary64 := ⟨UInt64.ofNat ((sign + field) * leadingPlace + rest)⟩
    (x.isNegative = true ↔ sign = 2048) ∧ x.exponent = field ∧ x.fraction = rest := by
  intro x
  have hbits : x.bits.toNat = (sign + field) * leadingPlace + rest := by
    rw [UInt64.toNat_ofNat']
    simp only [leadingPlace] at *
    omega
  simp only [isNegative, exponent, fraction, hbits, decide_eq_true_eq]
  simp only [leadingPlace] at *
  omega

theorem fraction_lt (x : Binary64) : x.fraction < leadingPlace :=
  Nat.mod_lt _ (by decide)

theorem significand_lt (x : Binary64) : x.significand < leadingPlace + leadingPlace := by
  have hfraction := x.fraction_lt
  unfold significand
  split <;> omega

/-- A significand without the leading bit tells an exponent field of zero. -/
theorem significand_lt_leadingPlace_iff : x.significand < leadingPlace ↔ x.exponent = 0 := by
  have hfraction := x.fraction_lt
  unfold significand
  by_cases hexponent : x.exponent = 0
  · rw [if_pos hexponent]
    exact ⟨fun _ => hexponent, fun _ => hfraction⟩
  · rw [if_neg hexponent]
    exact ⟨fun hless => by omega, fun hzero => absurd hzero hexponent⟩

theorem isZero_iff : x.isZero = true ↔ x.significand = 0 := by
  unfold isZero
  rw [decide_eq_true_eq]
  constructor
  · rintro ⟨hexponent, hfraction⟩
    unfold significand
    rw [if_pos hexponent, hfraction]
  · intro hzero
    have hexponent : x.exponent = 0 := by
      rw [← significand_lt_leadingPlace_iff, hzero]
      decide
    unfold significand at hzero
    rw [if_pos hexponent] at hzero
    exact ⟨hexponent, hzero⟩

theorem eq_of_isZero (hx : x.isZero = true) (hy : y.isZero = true)
    (hsign : x.isNegative = y.isNegative) : x = y := by
  unfold isZero at hx hy
  rw [decide_eq_true_eq] at hx hy
  exact ext_parts hsign (hx.1.trans hy.1.symm) (hx.2.trans hy.2.symm)

theorem isZero_negative_iff : (x.isZero && x.isNegative) = true ↔ x = negativeZero := by
  rw [Bool.and_eq_true]
  constructor
  · rintro ⟨hzero, hsign⟩
    exact eq_of_isZero hzero rfl hsign
  · rintro rfl
    exact ⟨rfl, rfl⟩

theorem eq_zero_of_isZero (hzero : x.isZero = true) (hne : x ≠ negativeZero) : x = ⟨0⟩ := by
  apply eq_of_isZero hzero rfl
  apply Bool.eq_false_iff.2
  intro hsign
  apply hne
  rw [← isZero_negative_iff, hzero, hsign]
  rfl

/-! ## The value of a pattern -/

theorem shiftLeft_cancel {first second places : Nat}
    (heq : first <<< places = second <<< places) : first = second := by
  rw [Nat.shiftLeft_eq, Nat.shiftLeft_eq] at heq
  exact Nat.eq_of_mul_eq_mul_right (Nat.two_pow_pos places) heq

theorem mul_one_shiftLeft (first places : Nat) : first * 1 <<< places = first <<< places := by
  rw [Nat.shiftLeft_eq, Nat.shiftLeft_eq, Nat.one_mul]

theorem HasValue.magnitude_eq (hvalue : x.HasValue n) :
    x.significand <<< x.scale = n.natAbs <<< 1075 := by
  have hnat := congrArg Int.natAbs hvalue.2
  rw [Int.natAbs_mul, Int.natAbs_mul, Int.natAbs_natCast, Int.natAbs_natCast] at hnat
  have hsign : (if x.isNegative = true then -1 else 1 : Int).natAbs = 1 := by split <;> rfl
  rw [hsign, Nat.one_mul] at hnat
  exact hnat.trans (mul_one_shiftLeft n.natAbs 1075)

theorem HasValue.of_magnitude_eq (hfinite : x.exponent ≠ specialExponent)
    (hmagnitude : x.significand <<< x.scale = n.natAbs <<< 1075)
    (hsign : x.isNegative = true ↔ n < 0) : x.HasValue n := by
  refine ⟨hfinite, ?_⟩
  have hplaced := hmagnitude.trans (mul_one_shiftLeft n.natAbs 1075).symm
  rw [hplaced, Int.natCast_mul, ← Int.mul_assoc]
  congr 1
  by_cases hnegative : x.isNegative = true
  · have hlt := hsign.1 hnegative
    rw [if_pos hnegative]
    omega
  · have hle : ¬n < 0 := fun hlt => hnegative (hsign.2 hlt)
    rw [if_neg hnegative]
    omega

theorem HasValue.sign (hvalue : x.HasValue n) :
    if x.isNegative = true then n ≤ 0 else 0 ≤ n := by
  have hplace : (0 : Int) < (1 <<< 1075 : Nat) := by decide
  have hmagnitude : (0 : Int) ≤ (x.significand <<< x.scale : Nat) := Int.natCast_nonneg _
  have heq := hvalue.2
  by_cases hnegative : x.isNegative = true
  · rw [if_pos hnegative] at heq ⊢
    by_contra hpos
    have hproduct := Int.mul_pos (Int.not_le.1 hpos) hplace
    omega
  · rw [if_neg hnegative] at heq ⊢
    by_contra hneg
    have hproduct := Int.mul_neg_of_neg_of_pos (Int.not_le.1 hneg) hplace
    omega

theorem HasValue.isNegative_iff (hvalue : x.HasValue n) (hne : n ≠ 0) :
    x.isNegative = true ↔ n < 0 := by
  have hsign := hvalue.sign
  by_cases hnegative : x.isNegative = true
  · rw [if_pos hnegative] at hsign
    exact ⟨fun _ => by omega, fun _ => hnegative⟩
  · rw [if_neg hnegative] at hsign
    exact ⟨fun hsome => absurd hsome hnegative, fun hlt => by omega⟩

theorem HasValue.isZero_iff (hvalue : x.HasValue n) : x.isZero = true ↔ n = 0 := by
  have hmagnitude := hvalue.magnitude_eq
  rw [Binary64.isZero_iff, ← Int.natAbs_eq_zero]
  constructor
  · intro hzero
    rw [hzero, Nat.zero_shiftLeft] at hmagnitude
    exact (shiftLeft_cancel ((Nat.zero_shiftLeft 1075).trans hmagnitude)).symm
  · intro hzero
    rw [hzero, Nat.zero_shiftLeft] at hmagnitude
    exact shiftLeft_cancel (hmagnitude.trans (Nat.zero_shiftLeft _).symm)

/-- A significand with its leading bit in place is too large for a smaller scale. -/
theorem scale_le (heq : x.significand <<< x.scale = y.significand <<< y.scale) :
    y.scale ≤ x.scale := by
  by_contra hlt
  have hless := Nat.lt_of_not_le hlt
  have hnormal : y.exponent ≠ 0 := by
    unfold scale at hless
    omega
  have hleast : ¬y.significand < leadingPlace := mt significand_lt_leadingPlace_iff.1 hnormal
  have hmost := x.significand_lt
  obtain ⟨more, hmore⟩ := Nat.exists_eq_add_of_lt hless
  have hsplit : y.significand <<< y.scale = (y.significand <<< (more + 1)) <<< x.scale := by
    rw [← Nat.shiftLeft_add, hmore]
    congr 1
    omega
  have hsame : x.significand = y.significand <<< (more + 1) := shiftLeft_cancel (heq.trans hsplit)
  have hdouble : y.significand * 2 ≤ y.significand <<< (more + 1) := by
    rw [Nat.shiftLeft_eq, Nat.pow_succ]
    exact Nat.mul_le_mul_left _ (Nat.le_mul_of_pos_left 2 (Nat.two_pow_pos more))
  omega

/-- Exponent fields zero and one have the same scale, but only one has the leading bit. -/
theorem exponent_eq (hscale : x.scale = y.scale) (hsignificand : x.significand = y.significand) :
    x.exponent = y.exponent := by
  have hzero : x.exponent = 0 ↔ y.exponent = 0 := by
    rw [← significand_lt_leadingPlace_iff, hsignificand, significand_lt_leadingPlace_iff]
  unfold scale at hscale
  omega

/-- No number but zero has two patterns. -/
theorem HasValue.unique (hx : x.HasValue n) (hy : y.HasValue n) (hne : n ≠ 0) : x = y := by
  have heq := hx.magnitude_eq.trans hy.magnitude_eq.symm
  have hscale : x.scale = y.scale := Nat.le_antisymm (scale_le heq.symm) (scale_le heq)
  rw [hscale] at heq
  have hsignificand : x.significand = y.significand := shiftLeft_cancel heq
  have hsign : x.isNegative = y.isNegative := by
    rw [Bool.eq_iff_iff, hx.isNegative_iff hne, hy.isNegative_iff hne]
  have hexponent := exponent_eq hscale hsignificand
  have hfraction : x.fraction = y.fraction := by
    unfold significand at hsignificand
    rw [hexponent] at hsignificand
    split at hsignificand <;> omega
  exact ext_parts hsign hexponent hfraction

/-! ## The pattern of an integer -/

theorem hasValue_zero : (⟨0⟩ : Binary64).HasValue 0 := ⟨by decide, by decide⟩

theorem log2_magnitude_lt (n : Int32) : n.toInt.natAbs.log2 < 32 := by
  by_cases hzero : n.toInt.natAbs = 0
  · rw [hzero]
    decide
  · rw [Nat.log2_lt hzero]
    have hleast := n.le_toInt
    have hmost := n.toInt_lt
    omega

/-- The leading bit of a magnitude is brought to the leading place. -/
theorem normalized_bounds {magnitude : Nat} (hne : magnitude ≠ 0) (hlog : magnitude.log2 ≤ 52) :
    leadingPlace ≤ magnitude <<< (52 - magnitude.log2) ∧
      magnitude <<< (52 - magnitude.log2) < leadingPlace + leadingPlace := by
  have hleast := Nat.log2_self_le hne
  have hmost := @Nat.lt_log2_self magnitude
  have hplace : leadingPlace = 2 ^ magnitude.log2 * 2 ^ (52 - magnitude.log2) := by
    rw [← Nat.pow_add, Nat.add_sub_cancel' hlog]
    rfl
  have hnext : leadingPlace + leadingPlace =
      2 ^ (magnitude.log2 + 1) * 2 ^ (52 - magnitude.log2) := by
    rw [hplace, Nat.pow_succ]
    ring
  rw [Nat.shiftLeft_eq]
  refine ⟨?_, ?_⟩
  · rw [hplace]
    exact Nat.mul_le_mul_right _ hleast
  · rw [hnext]
    exact Nat.mul_lt_mul_of_pos_right hmost (Nat.two_pow_pos _)

theorem hasValue_ofInt32 (n : Int32) : (ofInt32 n).HasValue n.toInt := by
  unfold ofInt32
  by_cases hzero : n.toInt.natAbs = 0
  · rw [if_pos hzero, Int.natAbs_eq_zero.1 hzero]
    exact hasValue_zero
  · rw [if_neg hzero]
    have hlog := log2_magnitude_lt n
    obtain ⟨hleast, hmost⟩ := normalized_bounds hzero (by omega)
    generalize n.toInt.natAbs.log2 = place at *
    generalize hsign : (if n.toInt < 0 then 2048 else 0) = sign
    have hsigns : (sign = 0 ∨ sign = 2048) ∧ (sign = 2048 ↔ n.toInt < 0) := by
      rw [← hsign]
      split <;> omega
    have hfield : place + 1023 < 2048 := by omega
    have hrest : n.toInt.natAbs <<< (52 - place) - leadingPlace < leadingPlace := by omega
    dsimp only
    rw [Nat.add_assoc sign]
    obtain ⟨hnegative, hexponent, hfraction⟩ := parts_ofNat hsigns.1 hfield hrest
    apply HasValue.of_magnitude_eq
    · rw [hexponent]
      simp only [specialExponent]
      omega
    · have hnormal : place + 1023 ≠ 0 := by omega
      have hplaces : 52 - place + max (place + 1023) 1 = 1075 := by omega
      unfold significand scale
      rw [hexponent, hfraction, if_neg hnormal, Nat.add_sub_cancel' hleast, ← Nat.shiftLeft_add,
        hplaces]
    · exact hnegative.trans hsigns.2

/-- The pattern of an integer is its own only one. -/
theorem eq_ofInt32_iff {n : Int32} : x = ofInt32 n ↔ x.Encodes n := by
  by_cases hzero : n.toInt = 0
  · have hn : n = 0 := Int32.toInt_inj.1 hzero
    subst hn
    constructor
    · rintro rfl
      exact ⟨hasValue_zero, by decide⟩
    · rintro ⟨hvalue, hne⟩
      exact eq_zero_of_isZero (hvalue.isZero_iff.2 hzero) hne
  · constructor
    · rintro rfl
      refine ⟨hasValue_ofInt32 n, fun heq => ?_⟩
      have hvalue := hasValue_ofInt32 n
      rw [heq] at hvalue
      exact hzero (hvalue.isZero_iff.1 rfl)
    · rintro ⟨hvalue, -⟩
      exact hvalue.unique (hasValue_ofInt32 n) hzero

/-! ## Truncation -/

theorem HasValue.integerPart_eq (hvalue : x.HasValue n) : x.integerPart = n.natAbs := by
  have hmagnitude := hvalue.magnitude_eq
  unfold integerPart
  by_cases hscale : 1075 ≤ x.scale
  · rw [if_pos hscale]
    apply shiftLeft_cancel
    rw [← Nat.shiftLeft_add, Nat.sub_add_cancel hscale, hmagnitude]
  · rw [if_neg hscale]
    have hsplit : n.natAbs <<< 1075 = (n.natAbs <<< (1075 - x.scale)) <<< x.scale := by
      rw [← Nat.shiftLeft_add, Nat.sub_add_cancel (Nat.le_of_not_le hscale)]
    rw [shiftLeft_cancel (hmagnitude.trans hsplit), Nat.shiftLeft_shiftRight]

theorem HasValue.isNaN_eq (hvalue : x.HasValue n) : x.isNaN = false :=
  decide_eq_false fun hnan => hvalue.1 hnan.1

theorem HasValue.truncate_eq {n : Int32} (hvalue : x.HasValue n.toInt) : x.truncate = n := by
  have hleast := n.le_toInt
  have hmost := n.toInt_lt
  have hsign := hvalue.sign
  unfold truncate
  rw [hvalue.isNaN_eq, if_neg Bool.false_ne_true, if_neg hvalue.1, hvalue.integerPart_eq]
  dsimp only
  by_cases hnegative : x.isNegative = true
  · rw [if_pos hnegative] at hsign ⊢
    have hwhole : (-(min n.toInt.natAbs 2147483648 : Nat) : Int) = n.toInt := by omega
    rw [hwhole, Int32.ofInt_toInt]
  · rw [if_neg hnegative] at hsign ⊢
    have hwhole : ((min n.toInt.natAbs 2147483647 : Nat) : Int) = n.toInt := by omega
    rw [hwhole, Int32.ofInt_toInt]

/-- A number is replaced with an integer if and only if it is that integer. -/
theorem toInt32?_eq_some_iff {n : Int32} : x.toInt32? = some n ↔ x.Encodes n := by
  unfold toInt32?
  constructor
  · intro hsome
    obtain ⟨hguard, htruncate⟩ := Option.ite_none_right_eq_some.1 hsome
    rw [Option.some_inj] at htruncate
    rw [htruncate, Bool.and_eq_true] at hguard
    obtain ⟨hequals, hsign⟩ := hguard
    have hne : x ≠ negativeZero := by
      intro heq
      rw [isZero_negative_iff.2 heq] at hsign
      exact Bool.false_ne_true hsign
    simp only [equals, Bool.and_eq_true, Bool.or_eq_true, decide_eq_true_eq] at hequals
    obtain ⟨-, rfl | ⟨hinteger, hx⟩⟩ := hequals
    · exact ⟨hasValue_ofInt32 n, hne⟩
    · have hn : n = 0 := Int32.toInt_inj.1 ((hasValue_ofInt32 n).isZero_iff.1 hinteger)
      subst hn
      exact eq_ofInt32_iff.1 (eq_zero_of_isZero hx hne)
  · intro hencodes
    rw [hencodes.1.truncate_eq, ← eq_ofInt32_iff.2 hencodes]
    have hequals : x.equals x = true := by
      simp [equals, hencodes.1.isNaN_eq]
    have hsign : (x.isZero && x.isNegative) = false := by
      rw [Bool.eq_false_iff]
      exact fun hboth => hencodes.2 (isZero_negative_iff.1 hboth)
    rw [hequals, hsign]
    rfl

/-- The least integer of the range, and the number behind the greatest. -/
example : (⟨13970166044103278592⟩ : Binary64).toInt32? = some (-2147483648) ∧
    (⟨4746794007248502784⟩ : Binary64).toInt32? = none := by
  decide

theorem toInt32?_eq_none_iff : x.toInt32? = none ↔ ¬∃ n, x.Encodes n := by
  rw [Option.eq_none_iff_forall_ne_some, not_exists]
  simp only [ne_eq, toInt32?_eq_some_iff]

end Binary64

end ManagedHeap
