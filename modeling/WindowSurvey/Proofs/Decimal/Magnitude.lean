import Mathlib
import WindowSurvey.Decimal.Binary64
/-!
# Doubles that are not negative

The sixty-four bits of a double that is not negative, read as a natural number, grow with the value. So
such doubles are compared by their words, and the exact value of a word is a rational number.

## Main definitions

* `Binary64.word`, `Binary64.topWord` — the bits of a double, and those of infinity
* `Binary64.magnitude` — the exact value of a word below `topWord`
-/

namespace WindowSurvey

namespace Binary64

open Float.Model (Format UnpackedFloat)
open Float.Model.UnpackedFloat

/-! ## Words and their values -/

/-- The bits of a double. -/
def word (x : Float) : Nat := x.toBits.toNat

/-- The bits of infinity. Words above it belong to negative numbers and to what is no number. -/
def topWord : Nat := 2047 * 2 ^ 52

/-- How often the last place of the least doubles is doubled to give the last place of a word. -/
def scale (b : Nat) : Nat := b / 2 ^ 52 - 1

/-- A word as a multiple of its last place. -/
def mantissa (b : Nat) : Nat := b - scale b * 2 ^ 52

/-- The exact value of a word. -/
def magnitude (b : Nat) : ℚ := mantissa b * 2 ^ ((scale b : ℤ) - 1074)

theorem mantissa_lt (b : Nat) : mantissa b < 2 ^ 53 := by
  unfold mantissa scale
  omega

theorem le_mantissa {b : Nat} (h : 0 < scale b) : 2 ^ 52 ≤ mantissa b := by
  unfold mantissa
  unfold scale at *
  omega

theorem scale_mul_add_mantissa (b : Nat) : scale b * 2 ^ 52 + mantissa b = b := by
  unfold mantissa scale
  omega

/-- The value of a word by a mantissa that may stand at the upper end of its range. -/
theorem magnitude_mul_add {t r : Nat} (ht : t = 0 ∨ 2 ^ 52 ≤ r) (hr : r ≤ 2 ^ 53) :
    magnitude (t * 2 ^ 52 + r) = r * 2 ^ ((t : ℤ) - 1074) := by
  rcases Nat.lt_or_eq_of_le hr with hlt | rfl
  · have hs : scale (t * 2 ^ 52 + r) = t := by
      unfold scale
      omega
    have hm : mantissa (t * 2 ^ 52 + r) = r := by
      rw [mantissa, hs, Nat.add_sub_cancel_left]
    rw [magnitude, hs, hm]
  · have hs : scale (t * 2 ^ 52 + 2 ^ 53) = t + 1 := by
      unfold scale
      omega
    have hm : mantissa (t * 2 ^ 52 + 2 ^ 53) = 2 ^ 52 := by
      rw [mantissa, hs]
      omega
    have he : ((t + 1 : ℕ) : ℤ) - 1074 = ((t : ℤ) - 1074) + 1 := by push_cast; ring
    rw [magnitude, hs, hm, he, zpow_add_one₀ two_ne_zero]
    push_cast
    ring

theorem magnitude_succ (b : Nat) :
    magnitude (b + 1) = (mantissa b + 1) * 2 ^ ((scale b : ℤ) - 1074) := by
  have hb := scale_mul_add_mantissa b
  have h := magnitude_mul_add (t := scale b) (r := mantissa b + 1)
    (by rcases Nat.eq_zero_or_pos (scale b) with h | h
        · exact .inl h
        · exact .inr (Nat.le_succ_of_le (le_mantissa h)))
    (mantissa_lt b)
  rw [← Nat.add_assoc, hb] at h
  rw [h]
  push_cast
  rfl

theorem magnitude_strictMono : StrictMono magnitude := by
  refine strictMono_nat_of_lt_succ fun b => ?_
  rw [magnitude_succ, magnitude]
  have hpos : (0 : ℚ) < 2 ^ ((scale b : ℤ) - 1074) := by positivity
  nlinarith

theorem magnitude_zero : magnitude 0 = 0 := by simp [magnitude, mantissa, scale]

theorem magnitude_pos {b : Nat} (h : 0 < b) : 0 < magnitude b := by
  rw [← magnitude_zero]
  exact magnitude_strictMono h

theorem mantissa_pos {b : Nat} (h : 0 < b) : 0 < mantissa b := by
  unfold mantissa scale
  omega

/-! ## Words and the parts of a double -/

theorem toNat_unpackMantissa (b : BitVec Format.binary64.numBits) :
    (unpackMantissa b).toNat = b.toNat % 2 ^ 52 := by
  rw [unpackMantissa_def]
  simp [BitVec.extractLsb'_toNat]

theorem toNat_unpackExponent (b : BitVec Format.binary64.numBits) :
    (unpackExponent b).toNat = b.toNat / 2 ^ 52 % 2 ^ 11 := by
  rw [unpackExponent_def]
  simp [BitVec.extractLsb'_toNat, Nat.shiftRight_eq_div_pow]

theorem toNat_unpackSign (b : BitVec Format.binary64.numBits) :
    (unpackSign b).toNat = b.toNat / 2 ^ 63 % 2 := by
  rw [unpackSign_def]
  simp [BitVec.extractLsb'_toNat, Nat.shiftRight_eq_div_pow]

/-- Words below the sign bit belong to positive numbers. -/
theorem unpackSign_of_lt {b : BitVec Format.binary64.numBits} (h : b.toNat < 2 ^ 63) :
    Sign.ofBitVec (unpackSign b) = .positive := by
  have hs : unpackSign b = 0#1 := by
    apply BitVec.eq_of_toNat_eq
    rw [toNat_unpackSign, Nat.div_eq_of_lt h]
    rfl
  rw [hs]
  rfl

/-- Words from the sign bit on belong to negative numbers. -/
theorem unpackSign_of_le {b : BitVec Format.binary64.numBits} (h : 2 ^ 63 ≤ b.toNat) :
    Sign.ofBitVec (unpackSign b) = .negative := by
  have hb : b.toNat < 2 ^ 64 := b.isLt
  have hs : unpackSign b = 1#1 := by
    apply BitVec.eq_of_toNat_eq
    rw [toNat_unpackSign, BitVec.toNat_ofNat]
    omega
  rw [hs]
  rfl

variable {b : BitVec Format.binary64.numBits}

theorem unpackExponent_eq_iff {e : BitVec Format.binary64.exponentBits} :
    unpackExponent b = e ↔ b.toNat / 2 ^ 52 % 2 ^ 11 = e.toNat := by
  rw [← toNat_unpackExponent, BitVec.toNat_inj]

theorem unpackMantissa_eq_zero_iff :
    unpackMantissa b = 0#52 ↔ b.toNat % 2 ^ 52 = 0 := by
  rw [← toNat_unpackMantissa, ← BitVec.toNat_inj]
  rfl

theorem unpack_of_eq_zero (h : b.toNat = 0) : unpack .binary64 b = .zero .positive := by
  have htop : ¬ unpackExponent b = -1#11 := by
    rw [unpackExponent_eq_iff, h]
    decide
  have hlow : unpackExponent b = 0#11 := by
    rw [unpackExponent_eq_iff, h]
    rfl
  have hm : unpackMantissa b = 0#52 := by
    rw [unpackMantissa_eq_zero_iff, h]
    rfl
  simp only [unpack, if_neg htop, if_pos hlow, dif_pos hm, unpackSign_of_lt (b := b) (by omega)]

/-- What a word below infinity stands for. -/
theorem unpack_of_lt_topWord (h0 : 0 < b.toNat) (h : b.toNat < topWord) :
    unpack .binary64 b =
      .finite .positive (mantissa b.toNat) (scale b.toNat - 1074) (mantissa_pos h0) := by
  rw [topWord] at h
  have htop : ¬ unpackExponent b = -1#11 := by
    rw [unpackExponent_eq_iff, show (-1#11).toNat = 2047 from rfl]
    omega
  have hs := unpackSign_of_lt (b := b) (by omega)
  have hbias : ((Format.binary64.exponentBias : ℕ) : ℤ) +
      ((Format.binary64.mantissaBitsWithoutImplicit : ℕ) : ℤ) = 1075 := rfl
  by_cases hlow : unpackExponent b = 0#11
  · have hb : b.toNat / 2 ^ 52 % 2 ^ 11 = 0 := unpackExponent_eq_iff.1 hlow
    have hm : ¬ unpackMantissa b = 0#52 := by
      rw [unpackMantissa_eq_zero_iff]
      omega
    simp only [unpack, if_neg htop, if_pos hlow, dif_neg hm, hs, toNat_unpackMantissa,
      toNat_unpackExponent, hb, hbias]
    congr 1
    · rw [mantissa, scale]
      omega
    · rw [scale]
      omega
  · have hb : ¬ b.toNat / 2 ^ 52 % 2 ^ 11 = 0 := fun hb => hlow (unpackExponent_eq_iff.2 hb)
    simp only [unpack, if_neg htop, if_neg hlow, hs, toNat_unpackExponent, hbias]
    congr 1
    · rw [BitVec.toNat_append, ← Nat.shiftLeft_add_eq_or_of_lt (unpackMantissa b).isLt,
        toNat_unpackMantissa, Nat.shiftLeft_eq, mantissa, scale]
      show 1 * 2 ^ 52 + _ = _
      omega
    · rw [scale]
      omega

theorem unpack_of_eq_topWord (h : b.toNat = topWord) : unpack .binary64 b = .infinity .positive := by
  rw [topWord] at h
  have htop : unpackExponent b = -1#11 := by
    rw [unpackExponent_eq_iff, h]
    rfl
  have hm : unpackMantissa b = 0#52 := by
    rw [unpackMantissa_eq_zero_iff, h]
    rfl
  simp only [unpack, if_pos htop, if_pos hm, unpackSign_of_lt (b := b) (by omega)]

theorem unpack_of_topWord_lt (h : topWord < b.toNat) (hs : b.toNat < 2 ^ 63) :
    unpack .binary64 b = .notANumber := by
  rw [topWord] at h
  have htop : unpackExponent b = -1#11 := by
    rw [unpackExponent_eq_iff, show (-1#11).toNat = 2047 from rfl]
    omega
  have hm : ¬ unpackMantissa b = 0#52 := by
    rw [unpackMantissa_eq_zero_iff]
    omega
  simp only [unpack, if_pos htop, if_neg hm]

/-! ## Order -/

variable {l x y : Float}

theorem le_iff_unpack : x ≤ y ↔
    (x.toModel.unpack.compare y.toModel.unpack).any (·.isLE) = true := by
  show decide (x.toModel ≤ y.toModel) = true ↔ _
  rw [decide_eq_true_iff]
  rfl

theorem unpack_of_word_eq_zero (h : word x = 0) : x.toModel.unpack = .zero .positive :=
  unpack_of_eq_zero h

theorem unpack_of_word_lt (h0 : 0 < word x) (h : word x < topWord) : x.toModel.unpack =
    .finite .positive (mantissa (word x)) (scale (word x) - 1074) (mantissa_pos h0) :=
  unpack_of_lt_topWord h0 h

/-- A double that is not negative is zero, finite or infinite. -/
theorem unpack_cases (h : word x ≤ topWord) :
    (word x = 0 ∧ x.toModel.unpack = .zero .positive) ∨
      (∃ h0 : 0 < word x, word x < topWord ∧ x.toModel.unpack =
        .finite .positive (mantissa (word x)) (scale (word x) - 1074) (mantissa_pos h0)) ∨
      (word x = topWord ∧ x.toModel.unpack = .infinity .positive) := by
  rcases Nat.lt_or_eq_of_le h with hlt | heq
  · rcases Nat.eq_zero_or_pos (word x) with h0 | h0
    · exact .inl ⟨h0, unpack_of_word_eq_zero h0⟩
    · exact .inr (.inl ⟨h0, hlt, unpack_of_word_lt h0 hlt⟩)
  · exact .inr (.inr ⟨heq, unpack_of_eq_topWord heq⟩)

/-- Words compare by scale first and then by mantissa. -/
theorem compare_scale_then (a b : Nat) :
    (compare ((scale a : ℤ) - 1074) ((scale b : ℤ) - 1074)).then
      (compare (mantissa a) (mantissa b)) = compare a b := by
  have ha := scale_mul_add_mantissa a
  have hb := scale_mul_add_mantissa b
  have hscale {a b : Nat} (h : a ≤ b) : scale a ≤ scale b := by
    unfold scale
    omega
  rcases Nat.lt_trichotomy a b with h | rfl | h
  · rw [Nat.compare_eq_lt.2 h]
    rcases Nat.lt_or_eq_of_le (hscale h.le) with hs | hs
    · rw [Int.compare_eq_lt.2 (by omega)]
      rfl
    · rw [Int.compare_eq_eq.2 (by omega), Nat.compare_eq_lt.2 (by omega)]
      rfl
  · simp
  · rw [Nat.compare_eq_gt.2 h]
    rcases Nat.lt_or_eq_of_le (hscale h.le) with hs | hs
    · rw [Int.compare_eq_gt.2 (by omega)]
      rfl
    · rw [Int.compare_eq_eq.2 (by omega), Nat.compare_eq_gt.2 (by omega)]
      rfl

/-- Doubles that are not negative compare like their words. -/
theorem compare_eq_compare_word (hx : word x ≤ topWord) (hy : word y ≤ topWord) :
    x.toModel.unpack.compare y.toModel.unpack = some (compare (word x) (word y)) := by
  have htop : 0 < topWord := by decide
  rcases unpack_cases hx with ⟨hx, hux⟩ | ⟨hx, hx', hux⟩ | ⟨hx, hux⟩
  · rcases unpack_cases hy with ⟨hy, huy⟩ | ⟨hy, hy', huy⟩ | ⟨hy, huy⟩
    · rw [hux, huy, hx, hy]
      rfl
    · rw [hux, huy, hx, Nat.compare_eq_lt.2 hy]
      rfl
    · rw [hux, huy, hx, hy, Nat.compare_eq_lt.2 htop]
      rfl
  · rcases unpack_cases hy with ⟨hy, huy⟩ | ⟨hy, hy', huy⟩ | ⟨hy, huy⟩
    · rw [hux, huy, hy, Nat.compare_eq_gt.2 hx]
      rfl
    · rw [hux, huy, UnpackedFloat.compare, compare_scale_then]
    · rw [hux, huy, hy, Nat.compare_eq_lt.2 hx']
      rfl
  · rcases unpack_cases hy with ⟨hy, huy⟩ | ⟨hy, hy', huy⟩ | ⟨hy, huy⟩
    · rw [hux, huy, hx, hy, Nat.compare_eq_gt.2 htop]
      rfl
    · rw [hux, huy, hx, Nat.compare_eq_gt.2 hy']
      rfl
    · rw [hux, huy, hx, hy]
      rfl

theorem le_iff_word_le (hx : word x ≤ topWord) (hy : word y ≤ topWord) :
    x ≤ y ↔ word x ≤ word y := by
  rw [le_iff_unpack, compare_eq_compare_word hx hy, Option.any_some, Nat.isLE_compare]

theorem totalKey_eq_word (hx : word x ≤ topWord) : totalKey x = word x := by
  rw [topWord] at hx
  rw [totalKey]
  exact if_pos (show word x < Nat.pow 2 63 by show word x < 2 ^ 63; omega)

/-- Numbers with the sign bit lie below all others. -/
theorem compare_of_le (h : 2 ^ 63 ≤ b.toNat) (hb : unpack .binary64 b ≠ .notANumber)
    (hy : word y ≤ topWord) :
    ((unpack .binary64 b).compare y.toModel.unpack).any (·.isLE) = true := by
  simp only [unpack, unpackSign_of_le h] at hb ⊢
  rcases unpack_cases hy with ⟨_, huy⟩ | ⟨_, _, huy⟩ | ⟨_, huy⟩ <;> rw [huy] <;>
    split_ifs at hb ⊢ <;> first | rfl | exact absurd rfl hb

/-- A lower bound of a number is one of any greater number. -/
theorem le_of_le_of_word_le (hx : word x ≤ topWord) (hy : word y ≤ topWord)
    (hxy : word x ≤ word y) (h : l ≤ x) : l ≤ y := by
  have hnumber : l.toModel.unpack ≠ .notANumber := by
    intro hl
    rw [le_iff_unpack, hl] at h
    simp [UnpackedFloat.compare] at h
  rcases Nat.lt_or_ge (word l) (2 ^ 63) with hs | hs
  · rcases Nat.lt_or_ge topWord (word l) with hl | hl
    · exact absurd (unpack_of_topWord_lt hl hs) hnumber
    · rw [le_iff_word_le hl hx] at h
      rw [le_iff_word_le hl hy]
      exact Nat.le_trans h hxy
  · rw [le_iff_unpack]
    exact compare_of_le hs hnumber hy

end Binary64

end WindowSurvey
