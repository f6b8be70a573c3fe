import WindowSurvey.Proofs.Decimal.Rounding
import WindowSurvey.Thumbnail.Fit
/-!
# The root of a small number in doubles

The root of a double is cut off after as many places as rounding needs. For numbers below `2 ^ 31` the rounded
root does not reach the next whole number, so what is left of it in a byte is the root in whole numbers.

## Main statements

* `Binary64.magnitude_sqrt` — the whole part of the root in doubles is the root in whole numbers
* `Binary64.toUInt8_lesser_sqrt` — the root in doubles, cut off at the greatest byte
-/

namespace WindowSurvey

namespace Binary64

open Float.Model (Format UnpackedFloat totalExponent)
open Float.Model.UnpackedFloat

variable {n : Nat} {u v : Float} {x : ℚ}

/-! ## The root of a mantissa -/

/-- Whatever the extra bits are, they tell of some number. -/
theorem exists_holds (m : Nat) (acc : Accuracy) : ∃ x, Holds (.ofMantissaAndAccuracy m acc) x := by
  rcases acc with _ | (_ | _ | _)
  · exact ⟨m, holds_exact m⟩
  · refine ⟨m + 1 / 4, ?_⟩
    constructor <;> norm_num [ExtendedMantissa.ofMantissaAndAccuracy]
  · refine ⟨m + 1 / 2, ?_⟩
    constructor <;> norm_num [ExtendedMantissa.ofMantissaAndAccuracy]
  · refine ⟨m + 3 / 4, ?_⟩
    constructor <;> norm_num [ExtendedMantissa.ofMantissaAndAccuracy]

/-- The parts of the word of a small number: a mantissa with all its places. -/
theorem parts_of_magnitude_eq {w : Nat} (h0 : 0 < n) (hn : n < 2 ^ 53) (hw : magnitude w = n) :
    ∃ k, n.log2 + k = 52 ∧ mantissa w = n * 2 ^ k ∧ (scale w : ℤ) - 1074 = -(k : ℤ) ∧
      2 ^ 52 ≤ n * 2 ^ k ∧ n * 2 ^ k < 2 ^ 53 := by
  obtain ⟨k, hk, hlow, hhigh⟩ := exists_mul_two_pow h0 hn
  have hexp : ((1022 + n.log2 : ℕ) : ℤ) - 1074 = -(k : ℤ) := by omega
  have hw' : w = (1022 + n.log2) * 2 ^ 52 + n * 2 ^ k := by
    refine magnitude_strictMono.injective ?_
    rw [hw, magnitude_mul_add (.inr hlow) hhigh.le, hexp, zpow_neg, zpow_natCast]
    push_cast
    field_simp
  have hs : scale w = 1022 + n.log2 := by
    unfold scale
    omega
  have hm : mantissa w = n * 2 ^ k := by
    rw [mantissa, hs, hw', Nat.add_sub_cancel_left]
  exact ⟨k, hk, hm, by rw [hs, hexp], hlow, hhigh⟩

/-- The mantissa of the root has all its places. The root is taken of `n * 4 ^ j`, so its last place is
`2 ^ (-j)`. -/
theorem exists_sqrtCore {w : Nat} (h0 : 0 < n) (hn : n < 2 ^ 31) (hw : magnitude w = n) :
    ∃ (j : ℕ) (acc : Accuracy), sqrtCore .binary64 (mantissa w) ((scale w : ℤ) - 1074) =
        (Nat.sqrt (n * 4 ^ j), -(j : ℤ), acc) ∧ 19 ≤ j ∧ 2 ^ 52 ≤ Nat.sqrt (n * 4 ^ j) := by
  obtain ⟨k, hk, hm, he, hlow, hhigh⟩ := parts_of_magnitude_eq h0 (hn.trans (by norm_num)) hw
  have hlog : n.log2 < 31 := (Nat.log2_lt h0.ne').2 hn
  have hmlog : (n * 2 ^ k).log2 = 52 := by
    rw [Nat.log2_eq_iff (by omega)]
    exact ⟨hlow, hhigh⟩
  obtain ⟨j, hj⟩ : ∃ j : ℕ, (54 - (k : ℤ)) / 2 - 53 = -(j : ℤ) :=
    ⟨(53 - (54 - (k : ℤ)) / 2).toNat, by omega⟩
  -- the exponent of the root is half that of the number, as far down as the places need
  have htarget : min ((-(k : ℤ)).ediv 2) (Format.binary64.targetExponent
      ((totalExponent (n * 2 ^ k) (-(k : ℤ)) + 1).ediv 2)) = -(j : ℤ) := by
    show min (-(k : ℤ) / 2)
      (max ((((n * 2 ^ k).log2 : ℤ) + 1 + -(k : ℤ) + 1) / 2 - 53) (-1074)) = -(j : ℤ)
    rw [hmlog]
    omega
  have hfour (i : Nat) (hi : k + i = 2 * j) : n * 2 ^ k * 2 ^ i = n * 4 ^ j := by
    rw [Nat.mul_assoc, ← Nat.pow_add, hi, Nat.pow_mul]
  have hradicand : (n * 2 ^ k) <<< (-(k : ℤ) - 2 * -(j : ℤ)).toNat = n * 4 ^ j := by
    rw [Nat.shiftLeft_eq, hfour _ (by omega)]
  rw [hm, he]
  simp only [sqrtCore, htarget, hradicand]
  refine ⟨j, _, rfl, by omega, ?_⟩
  rw [Nat.le_sqrt, ← hfour (2 * j - k) (by omega)]
  exact Nat.mul_le_mul hlow (Nat.pow_le_pow_right (by norm_num) (by omega))

/-! With a few places more, the root lies between the root in whole numbers and the next whole number, and
stays clear of the latter: the square of that is at least one more than `n`. -/

theorem sqrt_le_sqrt_mul_four_pow (n j : Nat) :
    (Nat.sqrt n : ℚ) ≤ Nat.sqrt (n * 4 ^ j) * 2 ^ (-(j : ℤ)) := by
  have hlow : Nat.sqrt n * 2 ^ j ≤ Nat.sqrt (n * 4 ^ j) := by
    rw [Nat.le_sqrt]
    calc Nat.sqrt n * 2 ^ j * (Nat.sqrt n * 2 ^ j)
        = Nat.sqrt n * Nat.sqrt n * (2 * 2) ^ j := by rw [Nat.mul_pow]; ring
      _ ≤ n * 4 ^ j := Nat.mul_le_mul_right _ (Nat.sqrt_le n)
  rw [zpow_neg, zpow_natCast, ← div_eq_mul_inv, le_div_iff₀ (by positivity)]
  exact_mod_cast hlow

theorem sqrt_mul_four_pow_lt (hn : n < 2 ^ 31) {j : Nat} (hj : 19 ≤ j) :
    ((Nat.sqrt (n * 4 ^ j) : ℚ) + 1) * 2 ^ (-(j : ℤ)) < Nat.sqrt n + 1 - 1 / 2 ^ 18 := by
  have hpos : (0 : ℚ) < 2 ^ j := by positivity
  have hlast : (1 : ℚ) / 2 ^ j ≤ 1 / 2 ^ 19 :=
    one_div_le_one_div_of_le (by positivity) (pow_le_pow_right₀ one_le_two hj)
  have hroot : Nat.sqrt n < 46341 := Nat.sqrt_lt.2 (hn.trans (by norm_num))
  have hnext : (n : ℚ) + 1 ≤ (Nat.sqrt n + 1) * (Nat.sqrt n + 1) := by
    exact_mod_cast Nat.lt_succ_sqrt n
  have hsquare : (Nat.sqrt (n * 4 ^ j) : ℚ) / 2 ^ j * (Nat.sqrt (n * 4 ^ j) / 2 ^ j) ≤ n := by
    have hle : (Nat.sqrt (n * 4 ^ j) : ℚ) * Nat.sqrt (n * 4 ^ j) ≤ n * (2 * 2) ^ j := by
      exact_mod_cast Nat.sqrt_le (n * 4 ^ j)
    rwa [div_mul_div_comm, div_le_iff₀ (by positivity), ← mul_pow]
  rw [zpow_neg, zpow_natCast, ← div_eq_mul_inv, add_div]
  generalize (Nat.sqrt (n * 4 ^ j) : ℚ) / 2 ^ j = s at hsquare ⊢
  have hr : (Nat.sqrt n : ℚ) + 1 ≤ 46341 := by exact_mod_cast hroot
  have hr0 : (0 : ℚ) ≤ Nat.sqrt n := Nat.cast_nonneg _
  by_contra hle
  have hs : (Nat.sqrt n : ℚ) + 1 - 3 / 2 ^ 19 ≤ s := by linarith
  nlinarith

/-! ## The root of a double -/

theorem word_sqrt (u : Float) :
    word u.sqrt = (pack Format.binary64 (UnpackedFloat.sqrt .binary64 u.toModel.unpack)).toNat := rfl

/-- The root in doubles is the double nearest to some number between the root in whole numbers and the next
whole number. -/
theorem nearest_sqrt (h0 : 0 < n) (hn : n < 2 ^ 31) (hu : word u < topWord)
    (hvalue : magnitude (word u) = n) :
    ∃ q : ℚ, Nearest (word u.sqrt) q ∧ (Nat.sqrt n : ℚ) ≤ q ∧ q < Nat.sqrt n + 1 - 1 / 2 ^ 18 := by
  have hu0 : 0 < word u := by
    refine Nat.pos_of_ne_zero fun h => ?_
    rw [h, magnitude_zero] at hvalue
    exact h0.ne (by exact_mod_cast hvalue)
  obtain ⟨j, acc, hcore, hj, hplaces⟩ := exists_sqrtCore h0 hn hvalue
  obtain ⟨x, hx⟩ := exists_holds (Nat.sqrt (n * 4 ^ j)) acc
  have hle := hx.le
  have hlt := hx.lt
  rw [mantissa_ofMantissaAndAccuracy] at hle hlt
  have hpos : (0 : ℚ) < 2 ^ (-(j : ℤ)) := by positivity
  refine ⟨x * 2 ^ (-(j : ℤ)), ?_, ?_, ?_⟩
  · rw [word_sqrt, unpack_of_word_lt hu0 hu, UnpackedFloat.sqrt, hcore]
    exact nearest_roundWithAccuracy (.inr hplaces) hx
  · exact (sqrt_le_sqrt_mul_four_pow n j).trans (mul_le_mul_of_nonneg_right hle hpos.le)
  · exact (mul_lt_mul_of_pos_right hlt hpos).trans (sqrt_mul_four_pow_lt hn hj)

/-- The whole part of the root in doubles is the root in whole numbers. -/
theorem magnitude_sqrt (hn : n < 2 ^ 31) (hu : word u < topWord) (hvalue : magnitude (word u) = n) :
    word u.sqrt < topWord ∧ (Nat.sqrt n : ℚ) ≤ magnitude (word u.sqrt) ∧
      magnitude (word u.sqrt) < Nat.sqrt n + 1 := by
  rcases Nat.eq_zero_or_pos n with rfl | h0
  · have hu0 : word u = 0 := magnitude_strictMono.injective (by rw [hvalue, magnitude_zero]; rfl)
    have hzero : word u.sqrt = 0 := by
      rw [word_sqrt, unpack_of_word_eq_zero hu0]
      rfl
    rw [hzero, magnitude_zero]
    norm_num [topWord]
  · obtain ⟨q, hnear, hlow, hhigh⟩ := nearest_sqrt h0 hn hu hvalue
    have hroot : Nat.sqrt n < 46341 := Nat.sqrt_lt.2 (hn.trans (by norm_num))
    obtain ⟨a, ha, hfloor⟩ := exists_magnitude_eq (n := Nat.sqrt n) (hroot.trans (by norm_num))
    -- a double just below the next whole number
    obtain ⟨c, hc, hbelow⟩ := exists_magnitude_eq_div (n := (Nat.sqrt n + 1) * 2 ^ 18 - 1) (j := 18)
      (by omega) (by norm_num)
    have hbelow' : magnitude c = Nat.sqrt n + 1 - 1 / 2 ^ 18 := by
      rw [hbelow, Nat.cast_sub (by omega)]
      push_cast
      ring
    have hac : a ≤ word u.sqrt := by
      rcases hlow.lt_or_eq with hlt | heq
      · exact (nearest_magnitude ha.le).le_of_lt hnear (hfloor ▸ hlt)
      · rw [← heq, ← hfloor] at hnear
        exact (hnear.eq_of_magnitude ha).ge
    have hca : word u.sqrt ≤ c := hnear.le_of_lt (nearest_magnitude hc.le) (hbelow' ▸ hhigh)
    refine ⟨hca.trans_lt hc, hfloor ▸ magnitude_strictMono.monotone hac, ?_⟩
    have := magnitude_strictMono.monotone hca
    linarith

/-! ## Down to a byte -/

/-- The whole part of a positive number. -/
theorem holds_roundToInt (m : Nat) (e : ℤ) :
    ∃ k : Nat, roundToInt .positive m e = k ∧ (k : ℚ) ≤ m * 2 ^ e ∧ (m : ℚ) * 2 ^ e < k + 1 := by
  obtain ⟨d, s, hd, hs, he⟩ : ∃ d s : ℕ, (e - 0).toNat = d ∧ (0 - (e - d)).toNat = s ∧
      (e = d ∧ s = 0 ∨ d = 0 ∧ e = -(s : ℤ)) := ⟨_, _, rfl, rfl, by omega⟩
  have hround : roundToInt .positive m e =
      (ExtendedMantissa.ofMantissaAndAccuracy (m <<< d) .exact >>> s).mantissa := by
    simp only [roundToInt, decreaseExponent, shiftToExponent, hd, hs]
    rfl
  have hholds := (holds_exact (m <<< d)).shiftRight s
  have hvalue : ((m <<< d : ℕ) : ℚ) / 2 ^ s = m * 2 ^ e := by
    rw [Nat.shiftLeft_eq]
    rcases he with ⟨rfl, rfl⟩ | ⟨rfl, rfl⟩
    · simp
    · rw [zpow_neg, zpow_natCast, pow_zero, mul_one, div_eq_mul_inv]
  rw [hvalue] at hholds
  exact ⟨_, hround, hholds.le, hholds.lt⟩

theorem ofNatClamp_eq (r : Nat) : UInt8.ofNatClamp r = UInt8.ofNat (min r 255) := by
  unfold UInt8.ofNatClamp
  refine UInt8.toNat_inj.1 ?_
  split
  · next h =>
    have hr : r < 256 := h
    simp
    omega
  · next h =>
    have hr : ¬ r < 256 := h
    simp
    omega

/-- A byte keeps the whole part of a number up to the greatest byte. -/
theorem toUInt8_eq {r : Nat} (hu : word u < topWord) (hlow : (r : ℚ) ≤ magnitude (word u))
    (hhigh : magnitude (word u) < r + 1) : u.toUInt8 = UInt8.ofNat (min r 255) := by
  have hwhole : u.toModel.unpack.toInt 0 (UInt8.size - 1) = r := by
    rcases Nat.eq_zero_or_pos (word u) with h0 | h0
    · rw [h0, magnitude_zero] at hlow
      have hr : r = 0 := by exact_mod_cast le_antisymm hlow (Nat.cast_nonneg r)
      rw [unpack_of_word_eq_zero h0, hr]
      rfl
    · obtain ⟨k, hk, hle, hlt⟩ := holds_roundToInt (mantissa (word u)) (scale (word u) - 1074)
      rw [magnitude] at hlow hhigh
      have h₁ : (r : ℚ) < (k + 1 : ℕ) := by
        push_cast
        exact hlow.trans_lt hlt
      have h₂ : (k : ℚ) < (r + 1 : ℕ) := by
        push_cast
        exact hle.trans_lt hhigh
      have hkr : k = r := by
        have := Nat.cast_lt.1 h₁
        have := Nat.cast_lt.1 h₂
        omega
      rw [unpack_of_word_lt h0 hu, ← hkr, ← hk]
      rfl
  have hbyte : u.toUInt8 = UInt8.ofNatClamp (u.toModel.unpack.toInt 0 (UInt8.size - 1)).toNat := rfl
  rw [hbyte, hwhole, Int.toNat_natCast]
  exact ofNatClamp_eq r

theorem isNaN_eq_false (hu : word u ≤ topWord) : u.isNaN = false := by
  show u.toModel.unpack.isNaN = false
  rcases unpack_cases hu with ⟨_, h⟩ | ⟨_, _, h⟩ | ⟨_, h⟩ <;> rw [h] <;> rfl

theorem lt_iff_word_lt (hu : word u ≤ topWord) (hv : word v ≤ topWord) :
    u < v ↔ word u < word v := by
  have hunpack : u < v ↔ (u.toModel.unpack.compare v.toModel.unpack == some .lt) = true := by
    show decide (u.toModel < v.toModel) = true ↔ _
    rw [decide_eq_true_iff]
    rfl
  rw [hunpack, compare_eq_compare_word hu hv, beq_iff_eq, Option.some_inj, Nat.compare_eq_lt]

/-- The lesser of two numbers that are not negative has the lesser word. -/
theorem lesser_eq (hu : word u ≤ topWord) (hv : word v ≤ topWord) :
    lesser u v = if word v < word u then v else u := by
  simp only [lesser, isNaN_eq_false hu, isNaN_eq_false hv, lt_iff_word_lt hv hu, Bool.false_eq_true,
    if_false]

/-- The root in doubles, cut off at the greatest byte, is the root in whole numbers, cut off there. -/
theorem toUInt8_lesser_sqrt (hn : n < 2 ^ 31) :
    (lesser (Float.ofNat n).sqrt 255).toUInt8 = UInt8.ofNat (min (Nat.sqrt n) 255) := by
  obtain ⟨hu, hvalue⟩ := word_ofNat (n := n) (hn.trans (by norm_num))
  obtain ⟨hroot, hlow, hhigh⟩ := magnitude_sqrt hn hu hvalue
  obtain ⟨htop, htopvalue⟩ := word_ofNat (n := 255) (by norm_num)
  have hlesser := lesser_eq hroot.le htop.le
  rw [show (255 : Float) = Float.ofNat 255 from rfl, hlesser]
  split
  · next hlt =>
    -- the root exceeds the greatest byte
    have h255 : ((255 : ℕ) : ℚ) < (Nat.sqrt n + 1 : ℕ) := by
      rw [← htopvalue]
      push_cast
      exact (magnitude_strictMono hlt).trans hhigh
    have hmin : min (Nat.sqrt n) 255 = min 255 255 := by
      have := Nat.cast_lt.1 h255
      omega
    rw [hmin]
    exact toUInt8_eq htop htopvalue.ge (by rw [htopvalue]; norm_num)
  · exact toUInt8_eq hroot hlow hhigh

end Binary64

end WindowSurvey
