import HingedPanels.Proofs.Single.Rounding

/-!
A mantissa with the two bits that say what has been cut off it. Together they stand for a real number as
far as its rounding needs it, and shifting them stands for halving it.
-/

namespace HingedPanels.Single

open Float.Model.UnpackedFloat (Accuracy ExtendedMantissa accuracyOfFraction)

/-- The mantissa is the whole part of `z`. The bits tell apart a rest of nothing, of less than a half, of
a half and of more than a half. -/
structure StandsFor (em : ExtendedMantissa) (z : ℝ) : Prop where
  mantissa_eq : (em.mantissa : ℤ) = ⌊z⌋
  roundBit_iff : em.roundBit = true ↔ 1 ≤ 2 * Int.fract z
  stickyBit_iff : em.stickyBit = true ↔ Int.fract z ≠ 0 ∧ 2 * Int.fract z ≠ 1

theorem floor_half (z : ℝ) : ⌊z / 2⌋ = ⌊z⌋ / 2 ∧ 2 * Int.fract (z / 2) = (⌊z⌋ % 2 : ℤ) + Int.fract z := by
  have parts : (⌊z⌋ : ℝ) = 2 * (⌊z⌋ / 2 : ℤ) + (⌊z⌋ % 2 : ℤ) := by
    exact_mod_cast (Int.mul_ediv_add_emod ⌊z⌋ 2).symm
  have low : (0 : ℝ) ≤ (⌊z⌋ % 2 : ℤ) := by
    exact_mod_cast Int.emod_nonneg ⌊z⌋ two_ne_zero
  have high : ((⌊z⌋ % 2 : ℤ) : ℝ) ≤ 1 := by
    exact_mod_cast Int.le_of_lt_add_one (Int.emod_lt_of_pos ⌊z⌋ two_pos)
  have rest := Int.fract_nonneg z
  have rest' := Int.fract_lt_one z
  have whole := Int.floor_add_fract z
  have floor : ⌊z / 2⌋ = ⌊z⌋ / 2 := by
    rw [Int.floor_eq_iff]
    constructor <;> linarith
  refine ⟨floor, ?_⟩
  rw [Int.fract, floor]
  linarith

theorem StandsFor.shiftRightOne {em : ExtendedMantissa} {z : ℝ} (stands : StandsFor em z) :
    StandsFor em.shiftRightOne (z / 2) := by
  rcases stands with ⟨mantissa, round, sticky⟩
  obtain ⟨floor, rest⟩ := floor_half z
  have nonneg := Int.fract_nonneg z
  have short := Int.fract_lt_one z
  have parity : ((⌊z⌋ % 2 : ℤ) : ℝ) = (em.mantissa % 2 : ℕ) := by
    rw [← mantissa]
    norm_cast
  have cut : (em.shiftRightOne.stickyBit = true) ↔ Int.fract z ≠ 0 := by
    simp only [ExtendedMantissa.shiftRightOne, Bool.or_eq_true, round, sticky]
    constructor
    · rintro (half | apart) zero
      · linarith
      · exact apart.1 zero
    · intro apart
      by_cases half : 1 ≤ 2 * Int.fract z
      · exact .inl half
      · exact .inr ⟨apart, fun same => half same.ge⟩
  have floor' : ((em.shiftRightOne.mantissa : ℕ) : ℤ) = ⌊z / 2⌋ := by
    rw [floor, ← mantissa]
    rfl
  rcases Nat.mod_two_eq_zero_or_one em.mantissa with even | odd
  · rw [parity, even, Nat.cast_zero, zero_add] at rest
    refine ⟨floor', ?_, ?_⟩
    · rw [rest]
      simp [ExtendedMantissa.shiftRightOne, even, short]
    · rw [cut, rest]
      constructor
      · intro apart
        exact ⟨fun zero => apart (by linarith), short.ne⟩
      · rintro ⟨apart, _⟩ zero
        exact apart (by linarith)
  · rw [parity, odd, Nat.cast_one] at rest
    refine ⟨floor', ?_, ?_⟩
    · rw [rest]
      simp [ExtendedMantissa.shiftRightOne, odd, nonneg]
    · rw [cut, rest]
      constructor
      · intro apart
        exact ⟨fun zero => by linarith, fun same => apart (by linarith)⟩
      · rintro ⟨_, apart⟩ zero
        exact apart (by linarith)

theorem StandsFor.shiftRight {em : ExtendedMantissa} {z : ℝ} (stands : StandsFor em z) (count : ℕ) :
    StandsFor (em >>> count) (z / 2 ^ count) := by
  induction count with
  | zero =>
    rw [pow_zero, div_one]
    exact stands
  | succ count ih =>
    have once := ih.shiftRightOne
    rw [div_div, ← pow_succ] at once
    exact once

/-- Rounding a mantissa by its two bits is rounding the number that it stands for. -/
theorem StandsFor.roundedMantissa_eq {em : ExtendedMantissa} {z : ℝ} (stands : StandsFor em z) :
    (em.roundedMantissa : ℤ) = halfEven z := by
  rcases em with ⟨m, roundBit, stickyBit⟩
  rcases stands with ⟨mantissa, round, sticky⟩
  dsimp only at mantissa round sticky
  cases roundBit with
  | false =>
    have below : 2 * Int.fract z < 1 := by simpa using round
    rw [halfEven, if_pos below, ← mantissa]
    cases stickyBit <;> rfl
  | true =>
    have above : 1 ≤ 2 * Int.fract z := round.mp rfl
    cases stickyBit with
    | false =>
      have half : 2 * Int.fract z = 1 := by
        by_contra apart
        have some_left : Int.fract z ≠ 0 := fun zero => by linarith
        exact absurd (sticky.mpr ⟨some_left, apart⟩) (by simp)
      rw [halfEven, if_neg (by linarith), if_neg (by linarith), ← mantissa]
      rfl
    | true =>
      have apart : 2 * Int.fract z ≠ 1 := (sticky.mp rfl).2
      rw [halfEven, if_neg (by linarith), if_pos (lt_of_le_of_ne above apart.symm), ← mantissa]
      rfl

theorem standsFor_exact (m : ℕ) : StandsFor (.ofMantissaAndAccuracy m .exact) m where
  mantissa_eq := (Int.floor_natCast m).symm
  roundBit_iff := by simp [ExtendedMantissa.ofMantissaAndAccuracy]
  stickyBit_iff := by simp [ExtendedMantissa.ofMantissaAndAccuracy]

theorem standsFor_fraction (num : ℕ) {den : ℕ} (positive : 0 < den) :
    StandsFor (.ofMantissaAndAccuracy (num / den) (accuracyOfFraction (num % den) den)) (num / den : ℝ) := by
  have positive' : (0 : ℝ) < den := by exact_mod_cast positive
  have floor : ((num / den : ℕ) : ℤ) = ⌊(num / den : ℝ)⌋ := by
    rw [← Int.natCast_floor_eq_floor (by positivity), Nat.floor_div_eq_div]
  have rest : Int.fract (num / den : ℝ) = ((num % den : ℕ) : ℝ) / den :=
    Int.fract_div_natCast_eq_div_natCast_mod
  generalize num % den = left at rest
  have above : 1 ≤ 2 * Int.fract (num / den : ℝ) ↔ den ≤ 2 * left := by
    rw [rest, ← mul_div_assoc, le_div_iff₀ positive', one_mul]
    norm_cast
  have same : 2 * Int.fract (num / den : ℝ) = 1 ↔ 2 * left = den := by
    rw [rest, ← mul_div_assoc, div_eq_one_iff_eq positive'.ne']
    norm_cast
  have zero : Int.fract (num / den : ℝ) = 0 ↔ left = 0 := by
    rw [rest, div_eq_zero_iff, or_iff_left positive'.ne']
    norm_cast
  unfold accuracyOfFraction
  split
  case isTrue none =>
    subst none
    refine ⟨floor, ?_, ?_⟩
    · rw [above]
      simpa [ExtendedMantissa.ofMantissaAndAccuracy] using positive.ne'
    · rw [Ne, zero]
      simp [ExtendedMantissa.ofMantissaAndAccuracy]
  case isFalse some_left =>
    rcases order : compare (2 * left) den
    case lt =>
      have order := Nat.compare_eq_lt.mp order
      refine ⟨floor, ?_, ?_⟩
      · rw [above]
        simpa [ExtendedMantissa.ofMantissaAndAccuracy] using order
      · rw [Ne, Ne, zero, same]
        simpa [ExtendedMantissa.ofMantissaAndAccuracy, some_left] using order.ne
    case eq =>
      have order := Nat.compare_eq_eq.mp order
      refine ⟨floor, ?_, ?_⟩
      · rw [above]
        simpa [ExtendedMantissa.ofMantissaAndAccuracy] using order.ge
      · rw [Ne, Ne, zero, same]
        simpa [ExtendedMantissa.ofMantissaAndAccuracy, some_left] using order
    case gt =>
      have order := Nat.compare_eq_gt.mp order
      refine ⟨floor, ?_, ?_⟩
      · rw [above]
        simpa [ExtendedMantissa.ofMantissaAndAccuracy] using order.le
      · rw [Ne, Ne, zero, same]
        simpa [ExtendedMantissa.ofMantissaAndAccuracy, some_left] using order.ne'

end HingedPanels.Single
