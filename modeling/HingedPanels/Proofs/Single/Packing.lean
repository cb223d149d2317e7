import HingedPanels.Proofs.Single.Canonical

namespace HingedPanels.Single

open Float.Model (Format UnpackedFloat)
open Float.Model.UnpackedFloat (Sign pack unpack packComponents packedInfinity packedZero packedNaN unpackSign
  unpackExponent unpackMantissa)

/-- The number that is left when one too large has become infinite. -/
def settle : UnpackedFloat → UnpackedFloat
  | .finite s m e positive => if 104 < e then .infinity s else .finite s m e positive
  | .infinity s => .infinity s
  | .notANumber => .notANumber
  | .zero s => .zero s

theorem settle_of_le (sign : Sign) {m : ℕ} {e : ℤ} (positive : 0 < m) (most : e ≤ 104) :
    settle (.finite sign m e positive) = .finite sign m e positive :=
  if_neg (Int.not_lt.mpr most)

@[simp] theorem unpackSign_packComponents {spec : Format} {sign : Sign} {exponent : BitVec spec.exponentBits}
    {mantissa : BitVec spec.mantissaBitsWithoutImplicit} :
    unpackSign (packComponents spec sign exponent mantissa) = sign.toBitVec := by
  ext i below
  have first : i = 0 := by omega
  subst first
  simp [unpackSign, packComponents, BitVec.getLsbD_append, BitVec.getElem_append]

@[simp] theorem ofBitVec_toBitVec (sign : Sign) : Sign.ofBitVec sign.toBitVec = sign := by
  cases sign <;> rfl

theorem toNat_one_append (mantissa : BitVec 23) : (1#1 ++ mantissa).toNat = 2 ^ 23 + mantissa.toNat := by
  rw [BitVec.toNat_append, ← Nat.shiftLeft_add_eq_or_of_lt mantissa.isLt]
  rfl

theorem finite_congr {sign : Sign} {m m' : ℕ} {e e' : ℤ} {positive : 0 < m} {positive' : 0 < m'} (same : m = m')
    (same' : e = e') : UnpackedFloat.finite sign m e positive = .finite sign m' e' positive' := by
  subst same same'
  rfl

def ofFields (sign : Sign) (exponent : BitVec 8) (mantissa : BitVec 23) : UnpackedFloat :=
  if exponent = -1#8 then
    if mantissa = 0#23 then .infinity sign else .notANumber
  else if exponent = 0#8 then
    if h : 0 < mantissa.toNat then .finite sign mantissa.toNat (-149) h else .zero sign
  else .finite sign (2 ^ 23 + mantissa.toNat) ((exponent.toNat : ℤ) - 150) (by omega)

theorem unpack_eq_ofFields (b : BitVec Format.binary32.numBits) :
    unpack Format.binary32 b =
      ofFields (.ofBitVec (unpackSign b)) (unpackExponent b) (unpackMantissa b) := by
  have bias : ((Format.binary32.exponentBias : ℕ) : ℤ) + (23 : ℕ) = 150 := rfl
  unfold unpack ofFields
  simp only [bias]
  by_cases special : unpackExponent b = -1#8
  · rw [if_pos special, if_pos special]
  · rw [if_neg special, if_neg special]
    by_cases low : unpackExponent b = 0#8
    · rw [if_pos low, if_pos low]
      by_cases none : unpackMantissa b = 0#23
      · rw [dif_pos none, dif_neg (by simp [none])]
      · have some_bits : 0 < (unpackMantissa b).toNat := by
          simpa [BitVec.toNat_pos, BitVec.pos_iff_ne_zero] using none
        rw [dif_neg none, dif_pos some_bits]
        exact finite_congr rfl (by simp [low])
    · rw [if_neg low, if_neg low]
      exact finite_congr (toNat_one_append _) rfl

theorem unpack_packComponents (sign : Sign) (exponent : BitVec 8) (mantissa : BitVec 23) :
    unpack Format.binary32 (packComponents Format.binary32 sign exponent mantissa) =
      ofFields sign exponent mantissa := by
  rw [unpack_eq_ofFields, UnpackedFloat.unpackExponent_packComponents, UnpackedFloat.unpackMantissa_packComponents,
    unpackSign_packComponents, ofBitVec_toBitVec]

theorem ofFields_spec (sign : Sign) (exponent : BitVec 8) (mantissa : BitVec 23) :
    Canonical (ofFields sign exponent mantissa) ∧
      settle (ofFields sign exponent mantissa) = ofFields sign exponent mantissa := by
  have bound := exponent.isLt
  have short := mantissa.isLt
  unfold ofFields
  by_cases special : exponent = -1#8
  · rw [if_pos special]
    split <;> exact ⟨trivial, rfl⟩
  · rw [if_neg special]
    by_cases low : exponent = 0#8
    · rw [if_pos low]
      split
      · exact ⟨⟨by omega, le_rfl, .inr rfl⟩, settle_of_le sign _ (by norm_num)⟩
      · exact ⟨trivial, rfl⟩
    · rw [if_neg low]
      have above : exponent.toNat ≠ 0 := fun none => low (BitVec.eq_of_toNat_eq none)
      have below : exponent.toNat ≠ 255 := fun top => special (BitVec.eq_of_toNat_eq top)
      exact ⟨⟨by omega, by omega, .inl (by omega)⟩, settle_of_le sign _ (by omega)⟩

theorem unpack_packedInfinity (sign : Sign) :
    unpack Format.binary32 (packedInfinity Format.binary32 sign) = .infinity sign :=
  unpack_packComponents sign (-1#8) 0

theorem unpack_normal (sign : Sign) {m : ℕ} {e : ℤ} (positive : 0 < m) (short : m < 2 ^ 24) (long : 2 ^ 23 ≤ m)
    (least : -149 ≤ e) (most : e ≤ 104) :
    unpack Format.binary32 (packComponents Format.binary32 sign (BitVec.ofNat 8 (e + 150).toNat)
      (BitVec.ofNat 23 m)) = .finite sign m e positive := by
  have field : (BitVec.ofNat 8 (e + 150).toNat).toNat = (e + 150).toNat := by
    rw [BitVec.toNat_ofNat]
    omega
  have ordinary : BitVec.ofNat 8 (e + 150).toNat ≠ -1#8 := by
    intro same
    have top : (e + 150).toNat = 255 := by rw [← field, same]; rfl
    omega
  have above : BitVec.ofNat 8 (e + 150).toNat ≠ 0#8 := by
    intro same
    have bottom : (e + 150).toNat = 0 := by rw [← field, same]; rfl
    omega
  rw [unpack_packComponents, ofFields, if_neg ordinary, if_neg above]
  apply finite_congr
  · rw [BitVec.toNat_ofNat]
    omega
  · rw [field]
    omega

theorem unpack_subnormal (sign : Sign) {m : ℕ} (positive : 0 < m) (short : m < 2 ^ 23) :
    unpack Format.binary32 (packComponents Format.binary32 sign 0#8 (BitVec.ofNat 23 m)) =
      .finite sign m (-149) positive := by
  have field : (BitVec.ofNat 23 m).toNat = m := by
    rw [BitVec.toNat_ofNat]
    exact Nat.mod_eq_of_lt short
  rw [unpack_packComponents, ofFields, if_neg (by decide), if_pos rfl, dif_pos (field.symm ▸ positive)]
  exact finite_congr field rfl

theorem unpack_pack {u : UnpackedFloat} (canonical : Canonical u) :
    unpack Format.binary32 (pack Format.binary32 u) = settle u := by
  cases u with
  | infinity sign => exact unpack_packedInfinity sign
  | notANumber => exact unpack_packComponents .positive (-1#8) _
  | zero sign => exact unpack_packComponents sign 0#8 0#23
  | finite sign m e positive =>
    rcases canonical with ⟨short, least, full⟩
    have biased : (e + (Format.binary32.exponentBias : ℕ) + (23 : ℕ)).toNat = (e + 150).toNat := by
      change (e + 127 + 23).toNat = _
      omega
    have places : Format.binary32.mantissaBits = 24 := rfl
    rw [pack, settle]
    dsimp only
    rw [biased, places]
    by_cases large : 104 < e
    · rw [if_pos large, if_pos (by omega)]
      exact unpack_packedInfinity sign
    · rw [if_neg large, if_neg (by omega)]
      by_cases long : 2 ^ 23 ≤ m
      · have log : m.log2 + 1 = 24 := by
          have lower := (Nat.le_log2 positive.ne').mpr long
          have upper := (Nat.log2_lt positive.ne').mpr short
          omega
        rw [if_pos log]
        exact unpack_normal sign positive short long least (Int.not_lt.mp large)
      · have log : m.log2 + 1 ≠ 24 := by
          have upper := (Nat.log2_lt positive.ne').mpr (Nat.not_le.mp long)
          omega
        rw [if_neg log]
        have lowest := full.resolve_left long
        subst lowest
        exact unpack_subnormal sign positive (Nat.not_le.mp long)

theorem clip_of_abs_lt {x : ℝ} (small : |x| < 2 ^ 128) : clip x = x := by
  obtain ⟨above, below⟩ := abs_lt.mp small
  rw [clip, if_neg (not_le.mpr below), if_neg (not_le.mpr above)]

theorem clip_mono {x y : ℝ} (below : x ≤ y) : clip x ≤ clip y := by
  unfold clip
  split_ifs
  all_goals first
    | exact le_top
    | exact bot_le
    | exact EReal.coe_le_coe_iff.mpr below
    | linarith

theorem value_settle {u : UnpackedFloat} (finite : u.isFinite = true) (canonical : Canonical u) :
    value (settle u) = clip (real u) := by
  cases u with
  | infinity | notANumber => cases finite
  | zero sign =>
    rw [clip_of_abs_lt (by simp [real])]
    rfl
  | finite sign m e positive =>
    have above := magnitude_pos positive e
    by_cases large : 104 < e
    · have past : (2 : ℝ) ^ 128 ≤ m * 2 ^ e := by
        have full : (2 : ℝ) ^ 23 ≤ m := by exact_mod_cast canonical.full.resolve_right (by omega)
        calc
          (2 : ℝ) ^ 128 = 2 ^ 23 * 2 ^ (105 : ℤ) := by norm_num
          _ ≤ 2 ^ 23 * 2 ^ e :=
            mul_le_mul_of_nonneg_left (zpow_le_zpow_right₀ one_le_two (by omega)) (by positivity)
          _ ≤ m * 2 ^ e := mul_le_mul_of_nonneg_right full (by positivity)
      have settled : settle (.finite sign m e positive) = .infinity sign := if_pos large
      rw [settled]
      cases sign with
      | negative =>
        rw [real_negative, clip, if_neg (by linarith), if_pos (by linarith)]
        rfl
      | positive =>
        rw [real_positive, clip, if_pos past]
        rfl
    · have short : (m : ℝ) * 2 ^ e < 2 ^ 128 := by
        calc
          (m : ℝ) * 2 ^ e < 2 ^ (e + 24) := canonical.magnitude_lt
          _ ≤ 2 ^ (128 : ℤ) := zpow_le_zpow_right₀ one_le_two (by omega)
          _ = 2 ^ 128 := by norm_num
      rw [settle_of_le sign positive (Int.not_lt.mp large), value_of_isFinite finite, clip_of_abs_lt]
      cases sign with
      | negative => rwa [real_negative, abs_neg, abs_of_pos above]
      | positive => rwa [real_positive, abs_of_pos above]

theorem settle_isNaN {u : UnpackedFloat} (number : u.isNaN = false) : (settle u).isNaN = false := by
  cases u with
  | notANumber => cases number
  | infinity | zero => rfl
  | finite sign m e positive =>
    rw [settle]
    split <;> rfl

end HingedPanels.Single
