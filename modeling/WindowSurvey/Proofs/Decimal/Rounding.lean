import WindowSurvey.Proofs.Decimal.Magnitude
/-!
# Rounding to the nearest double

The product and the quotient of two doubles that are not negative are the doubles nearest to the exact
results. So they grow with the exact results, and results that are doubles themselves are exact.

## Main definitions

* `Binary64.Nearest` — a word that no other word is closer to a number than
* `Binary64.Holds` — what a mantissa with its two extra bits tells of a number
-/

namespace WindowSurvey

namespace Binary64

open Float.Model (Format UnpackedFloat totalExponent)
open Float.Model.UnpackedFloat

/-! ## The nearest word -/

/-- A number lies between the middle of a word and its predecessor and the middle of the word and its
successor. Infinity has no successor. -/
structure Nearest (b : Nat) (q : ℚ) : Prop where
  le_topWord : b ≤ topWord
  lower : ∀ a, a + 1 = b → magnitude a + magnitude b ≤ 2 * q
  upper : b < topWord → 2 * q ≤ magnitude b + magnitude (b + 1)

variable {a b : Nat} {p q : ℚ}

/-- The word nearest to a greater number is not less. -/
theorem Nearest.le_of_lt (ha : Nearest a p) (hb : Nearest b q) (h : p < q) : a ≤ b := by
  by_contra hlt
  obtain ⟨c, rfl⟩ : ∃ c, a = c + 1 := ⟨a - 1, by omega⟩
  have hp := ha.lower c rfl
  have hq := hb.upper (by have := ha.le_topWord; omega)
  have h₁ : magnitude b ≤ magnitude c := magnitude_strictMono.monotone (by omega)
  have h₂ : magnitude (b + 1) ≤ magnitude (c + 1) := magnitude_strictMono.monotone (by omega)
  linarith

/-- The value of a word is nearest to that word. -/
theorem nearest_magnitude (h : b ≤ topWord) : Nearest b (magnitude b) where
  le_topWord := h
  lower a ha := by
    have := magnitude_strictMono.monotone (show a ≤ b by omega)
    linarith
  upper _ := by
    have := magnitude_strictMono.monotone (show b ≤ b + 1 by omega)
    linarith

/-- No other word is nearest to the value of a word. -/
theorem Nearest.eq_of_magnitude (h : Nearest a (magnitude b)) (hb : b < topWord) : a = b := by
  rcases Nat.lt_trichotomy a b with hlt | rfl | hlt
  · have hu := h.upper (by omega)
    have h₁ := magnitude_strictMono hlt
    have h₂ : magnitude (a + 1) ≤ magnitude b := magnitude_strictMono.monotone hlt
    linarith
  · rfl
  · have hl := h.lower (a - 1) (by omega)
    have h₁ := magnitude_strictMono hlt
    have h₂ : magnitude b ≤ magnitude (a - 1) := magnitude_strictMono.monotone (by omega)
    linarith

/-- A mantissa that is at most half a place off leaves its range at the upper end only. -/
theorem bounds_of_round {t r : Nat} {y : ℚ} (ht : t = 0 ∨ 2 ^ 52 ≤ y) (hy : y < 2 ^ 53)
    (hlow : 2 * (r : ℚ) ≤ 2 * y + 1) (hhigh : 2 * y ≤ 2 * r + 1) :
    r ≤ 2 ^ 53 ∧ (t = 0 ∨ 2 ^ 52 ≤ r) := by
  refine ⟨?_, ht.imp_right fun h => ?_⟩
  · have h : (r : ℚ) < 2 ^ 53 + 1 := by linarith
    exact Nat.lt_succ_iff.1 (by exact_mod_cast h)
  · have h : (2 ^ 52 : ℚ) < r + 1 := by linarith
    exact Nat.lt_succ_iff.1 (by exact_mod_cast h)

/-- A mantissa that is at most half a place off gives the nearest word. -/
theorem nearest_of_round {t r : Nat} {y : ℚ} (ht : t = 0 ∨ 2 ^ 52 ≤ y) (hy : y < 2 ^ 53)
    (hlow : 2 * (r : ℚ) ≤ 2 * y + 1) (hhigh : 2 * y ≤ 2 * r + 1) :
    Nearest (min topWord (t * 2 ^ 52 + r)) (y * 2 ^ ((t : ℤ) - 1074)) := by
  obtain ⟨hr, hr'⟩ := bounds_of_round ht hy hlow hhigh
  set u : ℚ := 2 ^ ((t : ℤ) - 1074) with hu
  have hpos : 0 < u := by positivity
  have hword : magnitude (t * 2 ^ 52 + r) = r * u := magnitude_mul_add hr' hr
  -- the middle below the word is at most the number
  have hlower (a : Nat) (ha : a + 1 = t * 2 ^ 52 + r) :
      magnitude a + magnitude (t * 2 ^ 52 + r) ≤ 2 * (y * u) := by
    rw [hword]
    by_cases hbottom : t = 0 ∨ 2 ^ 52 < r
    · have hpred : magnitude a = ((r - 1 : ℕ) : ℚ) * u := by
        have := magnitude_mul_add (t := t) (r := r - 1) (by omega) (by omega)
        rwa [show t * 2 ^ 52 + (r - 1) = a by omega] at this
      have hr1 : ((r - 1 : ℕ) : ℚ) = r - 1 := by
        rw [Nat.cast_sub (by omega), Nat.cast_one]
      rw [hpred, hr1]
      nlinarith
    · have hle : magnitude a ≤ r * u := hword ▸ magnitude_strictMono.monotone (by omega)
      have hr2 : (r : ℚ) = 2 ^ 52 := by
        have : r = 2 ^ 52 := by omega
        rw [this]
        norm_num
      have hy' : (r : ℚ) ≤ y := by
        rw [hr2]
        exact ht.resolve_left fun h => hbottom (.inl h)
      nlinarith
  have hupper : 2 * (y * u) ≤ magnitude (t * 2 ^ 52 + r) + magnitude (t * 2 ^ 52 + r + 1) := by
    have hsucc : ((r : ℚ) + 1) * u ≤ magnitude (t * 2 ^ 52 + r + 1) := by
      rcases Nat.lt_or_eq_of_le hr with hlt | rfl
      · have := magnitude_mul_add (t := t) (r := r + 1) (by omega) (by omega)
        rw [Nat.add_assoc, this]
        push_cast
        rfl
      · have := magnitude_mul_add (t := t + 1) (r := 2 ^ 52 + 1) (by omega) (by omega)
        rw [show t * 2 ^ 52 + 2 ^ 53 + 1 = (t + 1) * 2 ^ 52 + (2 ^ 52 + 1) by omega, this,
          show ((t + 1 : ℕ) : ℤ) - 1074 = ((t : ℤ) - 1074) + 1 by push_cast; ring,
          zpow_add_one₀ two_ne_zero, ← hu]
        push_cast
        nlinarith
    rw [hword]
    nlinarith
  rcases Nat.le_total (t * 2 ^ 52 + r) topWord with h | h
  · rw [Nat.min_eq_right h]
    exact ⟨h, hlower, fun _ => hupper⟩
  · rw [Nat.min_eq_left h]
    refine ⟨Nat.le_refl _, fun a ha => ?_, fun h => absurd h (Nat.lt_irrefl _)⟩
    have h₁ := hlower (t * 2 ^ 52 + r - 1) (by unfold topWord at *; omega)
    have h₂ : magnitude a ≤ magnitude (t * 2 ^ 52 + r - 1) :=
      magnitude_strictMono.monotone (by omega)
    have h₃ : magnitude topWord ≤ magnitude (t * 2 ^ 52 + r) := magnitude_strictMono.monotone h
    linarith

/-! ## Mantissas with two extra bits -/

/-- A mantissa is the whole part of a number. Of the rest, the round bit tells whether it is at least one
half, and the sticky bit whether it is neither zero nor one half. -/
structure Holds (em : ExtendedMantissa) (x : ℚ) : Prop where
  le : (em.mantissa : ℚ) ≤ x
  lt : x < em.mantissa + 1
  round : em.roundBit = true ↔ (em.mantissa : ℚ) + 1 / 2 ≤ x
  sticky : em.stickyBit = true ↔ x ≠ em.mantissa ∧ x ≠ em.mantissa + 1 / 2

variable {em : ExtendedMantissa} {x y : ℚ}

theorem holds_exact (m : Nat) : Holds (.ofMantissaAndAccuracy m .exact) m where
  le := le_refl _
  lt := by simp [ExtendedMantissa.ofMantissaAndAccuracy]
  round := by simp [ExtendedMantissa.ofMantissaAndAccuracy]
  sticky := by simp [ExtendedMantissa.ofMantissaAndAccuracy]

/-- The whole part of a quotient, with what is known of the remainder. -/
theorem holds_div (n : Nat) {d : Nat} (hd : 0 < d) :
    Holds (.ofMantissaAndAccuracy (n / d) (accuracyOfFraction (n % d) d)) (n / d) := by
  have hd' : (0 : ℚ) < d := by exact_mod_cast hd
  have hx : (n : ℚ) / d = (n / d : ℕ) + (n % d : ℕ) / d := by
    have hn : (n : ℚ) = (d * (n / d) + n % d : ℕ) := by rw [Nat.div_add_mod]
    rw [hn, Nat.cast_add, Nat.cast_mul]
    field_simp
  have hr : ((n % d : ℕ) : ℚ) / d < 1 := by
    rw [div_lt_one hd']
    exact_mod_cast Nat.mod_lt n hd
  have hr' : (0 : ℚ) ≤ ((n % d : ℕ) : ℚ) / d := by positivity
  have half : 2 * (((n % d : ℕ) : ℚ) / d) < 1 ↔ 2 * (n % d) < d := by
    rw [← mul_div_assoc, div_lt_one hd']
    exact_mod_cast Iff.rfl
  have half' : 2 * (((n % d : ℕ) : ℚ) / d) = 1 ↔ 2 * (n % d) = d := by
    rw [← mul_div_assoc, div_eq_one_iff_eq hd'.ne']
    exact_mod_cast Iff.rfl
  rw [hx]
  generalize hf : ((n % d : ℕ) : ℚ) / d = f at *
  by_cases h0 : n % d = 0
  · have hf0 : f = 0 := by rw [← hf, h0]; simp
    rw [accuracyOfFraction, if_pos h0, hf0, add_zero]
    exact holds_exact _
  · have hf0 : f ≠ 0 := by
      rw [← hf]
      exact div_ne_zero (by exact_mod_cast h0) hd'.ne'
    rw [accuracyOfFraction, if_neg h0]
    rcases Nat.lt_trichotomy (2 * (n % d)) d with h | h | h
    · rw [Nat.compare_eq_lt.2 h]
      have := half.2 h
      constructor <;> simp [ExtendedMantissa.ofMantissaAndAccuracy] <;> grind
    · rw [Nat.compare_eq_eq.2 h]
      have := half'.2 h
      constructor <;> simp [ExtendedMantissa.ofMantissaAndAccuracy] <;> grind
    · rw [Nat.compare_eq_gt.2 h]
      have h₁ := half.not.2 (by omega)
      have h₂ := half'.not.2 (by omega)
      constructor <;> simp [ExtendedMantissa.ofMantissaAndAccuracy] <;> grind

theorem Holds.shiftRightOne (h : Holds em x) : Holds em.shiftRightOne (x / 2) := by
  obtain ⟨hle, hlt, hround, hsticky⟩ := h
  obtain ⟨m, r, s⟩ := em
  simp only at hle hlt hround hsticky
  obtain ⟨k, hk | hk⟩ := Nat.even_or_odd' m
  · have hm : (m : ℚ) = 2 * k := by rw [hk]; push_cast; rfl
    have hk' : m / 2 = k ∧ m % 2 = 0 := by omega
    constructor <;> simp [ExtendedMantissa.shiftRightOne, hk', hround, hsticky] <;> grind
  · have hm : (m : ℚ) = 2 * k + 1 := by rw [hk]; push_cast; rfl
    have hk' : m / 2 = k ∧ m % 2 = 1 := by omega
    constructor <;> simp [ExtendedMantissa.shiftRightOne, hk', hround, hsticky] <;> grind

theorem Holds.shiftRight (h : Holds em x) (k : Nat) : Holds (em >>> k) (x / 2 ^ k) := by
  induction k with
  | zero =>
    rw [pow_zero, div_one]
    exact h
  | succ k ih =>
    rw [pow_succ, ← div_div]
    exact ih.shiftRightOne

/-- Rounding to the nearest mantissa is at most half a place off. -/
theorem Holds.roundedMantissa (h : Holds em x) :
    2 * (em.roundedMantissa : ℚ) ≤ 2 * x + 1 ∧ 2 * x ≤ 2 * em.roundedMantissa + 1 := by
  obtain ⟨hle, hlt, hround, hsticky⟩ := h
  obtain ⟨m, r, s⟩ := em
  simp only at hle hlt hround hsticky
  have hmod : ((m % 2 : ℕ) : ℚ) = 0 ∨ ((m % 2 : ℕ) : ℚ) = 1 := by
    rcases Nat.mod_two_eq_zero_or_one m with h | h <;> simp [h]
  cases r <;> cases s <;>
    simp only [ExtendedMantissa.roundedMantissa, ExtendedMantissa.accuracy,
      Accuracy.roundToNearestEven, Nat.cast_add, Nat.cast_one] <;> grind

/-! ## Packing -/

theorem toNat_packComponents (e : BitVec Format.binary64.exponentBits)
    (m : BitVec Format.binary64.mantissaBitsWithoutImplicit) :
    (packComponents Format.binary64 .positive e m).toNat = e.toNat * 2 ^ 52 + m.toNat := by
  show (Sign.positive.toBitVec ++ e ++ m).toNat = _
  rw [BitVec.toNat_append, BitVec.toNat_append, ← Nat.shiftLeft_add_eq_or_of_lt m.isLt,
    Nat.shiftLeft_eq]
  simp [Sign.toBitVec]

/-- A number whose last place is one that a double can have becomes its word, or infinity. -/
theorem toNat_pack_finite {t m : Nat} (hm0 : 0 < m) (hm : m < 2 ^ 53) (ht : t = 0 ∨ 2 ^ 52 ≤ m) :
    (pack Format.binary64 (.finite .positive m ((t : ℤ) - 1074) hm0)).toNat =
      min topWord (t * 2 ^ 52 + m) := by
  have hbias : (((t : ℤ) - 1074) + ((Format.binary64.exponentBias : ℕ) : ℤ) +
      ((Format.binary64.mantissaBitsWithoutImplicit : ℕ) : ℤ)).toNat = t + 1 := by
    rw [show ((Format.binary64.exponentBias : ℕ) : ℤ) = 1023 from rfl,
      show ((Format.binary64.mantissaBitsWithoutImplicit : ℕ) : ℤ) = 52 from rfl]
    omega
  have hlog : m.log2 + 1 = Format.binary64.mantissaBits ↔ 2 ^ 52 ≤ m := by
    rw [show Format.binary64.mantissaBits = 53 from rfl, ← Nat.le_log2 (by omega)]
    have := (Nat.log2_lt (n := m) (k := 53) (by omega)).2 hm
    omega
  simp only [pack, hbias, hlog]
  rw [topWord]
  split_ifs with hbig hnormal
  · have hbig : 2 ^ 11 ≤ t + 1 + 1 := hbig
    rw [packedInfinity, toNat_packComponents,
      show (-1#11).toNat = 2047 from rfl]
    show 2047 * 2 ^ 52 + 0 = _
    omega
  · have hbig : ¬ 2 ^ 11 ≤ t + 1 + 1 := hbig
    rw [toNat_packComponents, BitVec.toNat_ofNat, BitVec.toNat_ofNat]
    show (t + 1) % 2 ^ 11 * 2 ^ 52 + m % 2 ^ 52 = _
    omega
  · rw [toNat_packComponents, BitVec.toNat_ofNat]
    show 0 * 2 ^ 52 + m % 2 ^ 52 = _
    omega

/-! ## Rounding -/

theorem mantissa_ofMantissaAndAccuracy (m : Nat) (acc : Accuracy) :
    (ExtendedMantissa.ofMantissaAndAccuracy m acc).mantissa = m := by
  rcases acc with _ | (_ | _ | _) <;> rfl

theorem targetExponent_eq (m : Nat) (e : ℤ) :
    Format.binary64.targetExponent (totalExponent m e) = max ((m.log2 : ℤ) + 1 + e - 53) (-1074) :=
  rfl

/-- A number is shifted to where the mantissa has as many places as a double can have. -/
theorem exists_shiftToTargetExponent {m : Nat} {e : ℤ} {acc : Accuracy}
    (he : e ≤ -1074 ∨ 2 ^ 52 ≤ m) (h : Holds (.ofMantissaAndAccuracy m acc) x) :
    ∃ (t : ℕ) (em : ExtendedMantissa) (y : ℚ),
      shiftToTargetExponent .binary64 m e acc = (em, (t : ℤ) - 1074) ∧ Holds em y ∧
      y * 2 ^ ((t : ℤ) - 1074) = x * 2 ^ e ∧ y < 2 ^ 53 ∧ (t = 0 ∨ 2 ^ 52 ≤ y) := by
  have hlog : 2 ^ 52 ≤ m → 52 ≤ m.log2 := fun hm => (Nat.le_log2 (by omega)).2 hm
  have hshift : ∃ (t k : ℕ), Format.binary64.targetExponent (totalExponent m e) = (t : ℤ) - 1074 ∧
      e + k = (t : ℤ) - 1074 ∧ m.log2 ≤ 52 + k ∧ (t = 0 ∨ m.log2 = 52 + k) := by
    rw [targetExponent_eq]
    refine ⟨(max ((m.log2 : ℤ) + 1 + e - 53) (-1074) + 1074).toNat,
      (max ((m.log2 : ℤ) + 1 + e - 53) (-1074) - e).toNat, ?_⟩
    omega
  obtain ⟨t, k, ht, hk, hle, hnormal⟩ := hshift
  have hlt : x < 2 ^ (m.log2 + 1) := by
    have hm : ((m + 1 : ℕ) : ℚ) ≤ ((2 ^ (m.log2 + 1) : ℕ) : ℚ) := by
      exact_mod_cast Nat.lt_log2_self
    push_cast at hm
    have := h.lt
    rw [mantissa_ofMantissaAndAccuracy] at this
    exact this.trans_le hm
  refine ⟨t, _, x / 2 ^ k, ?_, h.shiftRight k, ?_, ?_, ?_⟩
  · simp only [shiftToTargetExponent, shiftToExponent, ht]
    rw [show ((t : ℤ) - 1074 - e).toNat = k by omega, hk]
  · rw [← hk, zpow_add₀ two_ne_zero, zpow_natCast]
    field_simp
  · rw [div_lt_iff₀ (by positivity), ← pow_add]
    exact lt_of_lt_of_le hlt (pow_le_pow_right₀ one_le_two (by omega))
  · refine hnormal.imp_right fun hl => ?_
    have hm : ((2 ^ m.log2 : ℕ) : ℚ) ≤ m := by
      exact_mod_cast Nat.log2_self_le (show m ≠ 0 from fun h0 => by
        rw [h0, show Nat.log2 0 = 0 by decide] at hl
        omega)
    have hx := h.le
    rw [mantissa_ofMantissaAndAccuracy] at hx
    rw [le_div_iff₀ (by positivity), ← pow_add, ← hl]
    push_cast at hm
    exact hm.trans hx

/-- A mantissa that a double can have is not shifted again. -/
theorem shiftToTargetExponent_of_lt {t r : Nat} (hr : r < 2 ^ 53) :
    shiftToTargetExponent .binary64 r ((t : ℤ) - 1074) .exact =
      (⟨r, false, false⟩, (t : ℤ) - 1074) := by
  have hlog : r.log2 < 53 := by
    rcases Nat.eq_zero_or_pos r with rfl | h0
    · decide
    · exact (Nat.log2_lt (by omega)).2 hr
  have hshift : (max ((r.log2 : ℤ) + 1 + ((t : ℤ) - 1074) - 53) (-1074) -
      ((t : ℤ) - 1074)).toNat = 0 := by omega
  simp only [shiftToTargetExponent, shiftToExponent, targetExponent_eq, hshift, Nat.cast_zero,
    add_zero]
  rfl

/-- Rounding up may give one place more, and shifting it away loses nothing. -/
theorem shiftToTargetExponent_two_pow (t : Nat) :
    shiftToTargetExponent .binary64 (2 ^ 53) ((t : ℤ) - 1074) .exact =
      (⟨2 ^ 52, false, false⟩, ((t + 1 : ℕ) : ℤ) - 1074) := by
  have hshift : (max (((2 ^ 53 : ℕ).log2 : ℤ) + 1 + ((t : ℤ) - 1074) - 53) (-1074) -
      ((t : ℤ) - 1074)).toNat = 1 := by
    rw [show (2 ^ 53 : ℕ).log2 = 53 by decide]
    omega
  simp only [shiftToTargetExponent, shiftToExponent, targetExponent_eq, hshift]
  congr 1
  push_cast
  ring

/-- A mantissa that was rounded becomes its word, or infinity. -/
theorem toNat_pack_roundWithAccuracy {m t : Nat} {e : ℤ} {acc : Accuracy}
    (h : shiftToTargetExponent .binary64 m e acc = (em, (t : ℤ) - 1074))
    (hr : em.roundedMantissa ≤ 2 ^ 53) (ht : t = 0 ∨ 2 ^ 52 ≤ em.roundedMantissa) :
    (pack Format.binary64 (roundWithAccuracy .binary64 .positive m e acc)).toNat =
      min topWord (t * 2 ^ 52 + em.roundedMantissa) := by
  unfold roundWithAccuracy
  rw [h]
  dsimp only
  generalize em.roundedMantissa = r at hr ht ⊢
  rcases Nat.lt_or_eq_of_le hr with hlt | rfl
  · rw [shiftToTargetExponent_of_lt hlt]
    dsimp only
    split_ifs with h0
    · obtain rfl : t = 0 := by omega
      rw [h0]
      rfl
    · exact toNat_pack_finite (Nat.pos_of_ne_zero h0) hlt ht
  · rw [shiftToTargetExponent_two_pow]
    dsimp only
    rw [dif_neg (by norm_num)]
    refine (toNat_pack_finite (by norm_num) (by norm_num) (.inr (le_refl _))).trans ?_
    omega

/-- A number whose last place is not too coarse becomes the nearest word. -/
theorem nearest_roundWithAccuracy {m : Nat} {e : ℤ} {acc : Accuracy}
    (he : e ≤ -1074 ∨ 2 ^ 52 ≤ m) (h : Holds (.ofMantissaAndAccuracy m acc) x) :
    Nearest (pack Format.binary64 (roundWithAccuracy .binary64 .positive m e acc)).toNat
      (x * 2 ^ e) := by
  obtain ⟨t, em, y, hshift, hy, hvalue, hlt, ht⟩ := exists_shiftToTargetExponent he h
  obtain ⟨hlow, hhigh⟩ := hy.roundedMantissa
  obtain ⟨hr, hr'⟩ := bounds_of_round ht hlt hlow hhigh
  rw [toNat_pack_roundWithAccuracy hshift hr hr', ← hvalue]
  exact nearest_of_round ht hlt hlow hhigh

/-! ## Products and quotients -/

variable {u v : Float}

theorem word_mul (u v : Float) : word (u * v) =
    (pack Format.binary64 (UnpackedFloat.mul .binary64 u.toModel.unpack v.toModel.unpack)).toNat :=
  rfl

theorem word_div (u v : Float) : word (u / v) =
    (pack Format.binary64 (UnpackedFloat.div .binary64 u.toModel.unpack v.toModel.unpack)).toNat :=
  rfl

/-- The least last place goes with small mantissas only. -/
theorem scale_eq_zero_or (b : Nat) : scale b = 0 ∨ 2 ^ 52 ≤ mantissa b :=
  (Nat.eq_zero_or_pos _).imp_right le_mantissa

/-- The product of two positive numbers is the double nearest to the exact product. -/
theorem nearest_mul (hu0 : 0 < word u) (hu : word u < topWord) (hv0 : 0 < word v)
    (hv : word v < topWord) : Nearest (word (u * v)) (magnitude (word u) * magnitude (word v)) := by
  rw [word_mul, unpack_of_word_lt hu0 hu, unpack_of_word_lt hv0 hv]
  have he : ((scale (word u) : ℤ) - 1074) + ((scale (word v) : ℤ) - 1074) ≤ -1074 ∨
      2 ^ 52 ≤ mantissa (word u) * mantissa (word v) := by
    have hu1 := mantissa_pos hu0
    have hv1 := mantissa_pos hv0
    rcases scale_eq_zero_or (word u) with h | h
    · rcases scale_eq_zero_or (word v) with h' | h'
      · exact .inl (by omega)
      · exact .inr (h'.trans (Nat.le_mul_of_pos_left _ hu1))
    · exact .inr (h.trans (Nat.le_mul_of_pos_right _ hv1))
  have h := nearest_roundWithAccuracy he (holds_exact (mantissa (word u) * mantissa (word v)))
  have hvalue : ((mantissa (word u) * mantissa (word v) : ℕ) : ℚ) *
      2 ^ (((scale (word u) : ℤ) - 1074) + ((scale (word v) : ℤ) - 1074)) =
        magnitude (word u) * magnitude (word v) := by
    rw [magnitude, magnitude, zpow_add₀ two_ne_zero]
    push_cast
    ring
  rwa [hvalue] at h

/-- The division of mantissas is carried far enough for rounding. -/
theorem exists_divCore {b c : Nat} (hb : 0 < b) (hc : 0 < c) :
    ∃ k : ℕ, divCore .binary64 (mantissa b) (scale b - 1074) (mantissa c) (scale c - 1074) =
        (mantissa b * 2 ^ k / mantissa c, ((scale b : ℤ) - scale c) - k,
          accuracyOfFraction (mantissa b * 2 ^ k % mantissa c) (mantissa c)) ∧
      (((scale b : ℤ) - scale c) - k ≤ -1074 ∨ 2 ^ 52 ≤ mantissa b * 2 ^ k / mantissa c) := by
  have hb0 := mantissa_pos hb
  have hc0 := mantissa_pos hc
  have hlog : (mantissa b).log2 < 53 := (Nat.log2_lt hb0.ne').2 (mantissa_lt b)
  have htotal : Format.binary64.targetExponent (totalExponent (mantissa b) (scale b - 1074) -
      totalExponent (mantissa c) (scale c - 1074)) =
      max (((scale b : ℤ) - scale c) + (mantissa b).log2 - (mantissa c).log2 - 53) (-1074) := by
    show max ((((mantissa b).log2 : ℤ) + 1 + (scale b - 1074)) -
      (((mantissa c).log2 : ℤ) + 1 + (scale c - 1074)) - 53) (-1074) = _
    congr 1
    ring
  have htarget : ∃ k : ℕ, min (((scale b : ℤ) - 1074) - ((scale c : ℤ) - 1074))
      (Format.binary64.targetExponent (totalExponent (mantissa b) (scale b - 1074) -
        totalExponent (mantissa c) (scale c - 1074))) = ((scale b : ℤ) - scale c) - k ∧
      (((scale b : ℤ) - scale c) - k ≤ -1074 ∨ (mantissa b).log2 + k = 53 + (mantissa c).log2) := by
    rw [htotal, sub_sub_sub_cancel_right]
    generalize (scale b : ℤ) - scale c = e
    rcases le_total e (max (e + (mantissa b).log2 - (mantissa c).log2 - 53) (-1074)) with h | h
    · exact ⟨0, by rw [min_eq_left h]; simp, by omega⟩
    · rw [min_eq_right h]
      exact ⟨(e - max (e + (mantissa b).log2 - (mantissa c).log2 - 53) (-1074)).toNat, by omega,
        by omega⟩
  obtain ⟨k, hk, hfar⟩ := htarget
  refine ⟨k, ?_, hfar.imp_right fun h => ?_⟩
  · simp only [divCore, hk]
    rw [show (((scale b : ℤ) - 1074) - ((scale c : ℤ) - 1074) -
      (((scale b : ℤ) - scale c) - k)).toNat = k by omega, Nat.shiftLeft_eq]
  · rw [Nat.le_div_iff_mul_le hc0]
    have hlow : 2 ^ (mantissa b).log2 * 2 ^ k ≤ mantissa b * 2 ^ k :=
      Nat.mul_le_mul_right _ (Nat.log2_self_le hb0.ne')
    have hhigh : mantissa c < 2 ^ ((mantissa c).log2 + 1) := Nat.lt_log2_self
    rw [← Nat.pow_add, h] at hlow
    calc 2 ^ 52 * mantissa c ≤ 2 ^ 52 * 2 ^ ((mantissa c).log2 + 1) := Nat.mul_le_mul_left _ hhigh.le
      _ = 2 ^ (53 + (mantissa c).log2) := by rw [← Nat.pow_add]; congr 1; omega
      _ ≤ mantissa b * 2 ^ k := hlow

/-- The quotient of two numbers is the double nearest to the exact quotient. -/
theorem nearest_div (hu : word u < topWord) (hv0 : 0 < word v) (hv : word v < topWord) :
    Nearest (word (u / v)) (magnitude (word u) / magnitude (word v)) := by
  rcases Nat.eq_zero_or_pos (word u) with hu0 | hu0
  · have hzero : word (u / v) = 0 := by
      rw [word_div, unpack_of_word_eq_zero hu0, unpack_of_word_lt hv0 hv]
      rfl
    rw [hzero, hu0, magnitude_zero, zero_div, ← magnitude_zero]
    exact nearest_magnitude (Nat.zero_le _)
  · obtain ⟨k, hdiv, he⟩ := exists_divCore hu0 hv0
    have h := nearest_roundWithAccuracy he
      (holds_div (mantissa (word u) * 2 ^ k) (mantissa_pos hv0))
    have hvalue : ((mantissa (word u) * 2 ^ k : ℕ) : ℚ) / mantissa (word v) *
        2 ^ (((scale (word u) : ℤ) - scale (word v)) - k) =
          magnitude (word u) / magnitude (word v) := by
      have hne : (mantissa (word v) : ℚ) ≠ 0 := by exact_mod_cast (mantissa_pos hv0).ne'
      have hsplit : (scale (word u) : ℤ) - 1074 =
          (((scale (word u) : ℤ) - scale (word v)) - k) + ((scale (word v) : ℤ) - 1074) + k := by ring
      rw [magnitude, magnitude, hsplit, zpow_add₀ two_ne_zero, zpow_add₀ two_ne_zero, zpow_natCast]
      push_cast
      field_simp
    rw [hvalue] at h
    rw [word_div, unpack_of_word_lt hu0 hu, unpack_of_word_lt hv0 hv, UnpackedFloat.div, hdiv]
    exact h

/-- Dividing by one number keeps the order. -/
theorem word_div_le_word_div {w : Float} (huv : word u ≤ word v) (hv : word v < topWord)
    (hw0 : 0 < word w) (hw : word w < topWord) :
    word (u / w) ≤ word (v / w) ∧ word (v / w) ≤ topWord := by
  have hnear := nearest_div hv hw0 hw
  refine ⟨?_, hnear.le_topWord⟩
  rcases Nat.lt_or_eq_of_le huv with hlt | heq
  · refine (nearest_div (huv.trans_lt hv) hw0 hw).le_of_lt hnear ?_
    exact div_lt_div_of_pos_right (magnitude_strictMono hlt) (magnitude_pos hw0)
  · have hunpack : u.toModel.unpack = v.toModel.unpack :=
      congrArg (unpack .binary64) (BitVec.eq_of_toNat_eq heq)
    rw [word_div, word_div, hunpack]

/-! ## Natural numbers -/

/-- A small natural number is doubled until it is a mantissa with all its places. -/
theorem exists_mul_two_pow {n : Nat} (h0 : 0 < n) (hn : n < 2 ^ 53) :
    ∃ k, n.log2 + k = 52 ∧ 2 ^ 52 ≤ n * 2 ^ k ∧ n * 2 ^ k < 2 ^ 53 := by
  obtain ⟨k, hk⟩ : ∃ k, n.log2 + k = 52 := by
    have hlog : n.log2 < 53 := (Nat.log2_lt h0.ne').2 hn
    exact ⟨52 - n.log2, by omega⟩
  refine ⟨k, hk, ?_, ?_⟩
  · rw [← hk, Nat.pow_add]
    exact Nat.mul_le_mul_right _ (Nat.log2_self_le h0.ne')
  · rw [show 53 = (n.log2 + 1) + k by omega, Nat.pow_add]
    exact Nat.mul_lt_mul_of_pos_right Nat.lt_log2_self (by positivity)

/-- Small natural numbers, divided by a power of two, are values of words. -/
theorem exists_magnitude_eq_div {n j : Nat} (hn : n < 2 ^ 53) (hj : j ≤ 1022) :
    ∃ b < topWord, magnitude b = n / 2 ^ j := by
  rcases Nat.eq_zero_or_pos n with rfl | h0
  · exact ⟨0, by decide, by simp [magnitude_zero]⟩
  · obtain ⟨k, hk, hlow, hhigh⟩ := exists_mul_two_pow h0 hn
    refine ⟨(1022 - j + n.log2) * 2 ^ 52 + n * 2 ^ k, by unfold topWord; omega, ?_⟩
    have hexp : ((1022 - j + n.log2 : ℕ) : ℤ) - 1074 = -(k + j : ℕ) := by omega
    rw [magnitude_mul_add (.inr hlow) hhigh.le, hexp, zpow_neg, zpow_natCast]
    push_cast
    field_simp
    ring

/-- Small natural numbers are values of words. -/
theorem exists_magnitude_eq {n : Nat} (hn : n < 2 ^ 53) : ∃ b < topWord, magnitude b = n := by
  obtain ⟨b, hb, hvalue⟩ := exists_magnitude_eq_div hn (Nat.zero_le 1022)
  exact ⟨b, hb, by rw [hvalue, pow_zero, div_one]⟩

/-- A machine word that is small enough becomes the double of its value. -/
theorem word_toFloat {n : Nat} (hn : n < 2 ^ 53) :
    word n.toUInt64.toFloat < topWord ∧ magnitude (word n.toUInt64.toFloat) = n := by
  obtain ⟨b, hb, hvalue⟩ := exists_magnitude_eq hn
  suffices h : Nearest (word n.toUInt64.toFloat) n by
    rw [← hvalue] at h ⊢
    rw [h.eq_of_magnitude hb]
    exact ⟨hb, rfl⟩
  have hword : word n.toUInt64.toFloat = (pack Format.binary64
      (UnpackedFloat.normalize .binary64 (n.toUInt64.toNat : ℤ) 0 .positive)).toNat := rfl
  rw [hword, show n.toUInt64.toNat = n by simp; omega]
  rcases Nat.eq_zero_or_pos n with rfl | h0
  · have h := nearest_magnitude (Nat.zero_le topWord)
    rw [magnitude_zero] at h
    exact h
  · obtain ⟨k, hk, hlow, -⟩ := exists_mul_two_pow h0 hn
    have hround : UnpackedFloat.normalize .binary64 (n : ℤ) 0 .positive =
        roundWithAccuracy .binary64 .positive (n * 2 ^ k) (0 - k) .exact := by
      have hshift : (0 - Format.binary64.targetExponent (totalExponent n 0)).toNat = k := by
        rw [targetExponent_eq]
        omega
      unfold UnpackedFloat.normalize
      rw [Int.compare_eq_gt.2 (by omega)]
      simp only [UnpackedFloat.round, decreaseExponent, Int.toNat_natCast, hshift, Nat.shiftLeft_eq]
    rw [hround]
    have h := nearest_roundWithAccuracy (e := 0 - k) (.inr hlow) (holds_exact (n * 2 ^ k))
    have hvalue' : ((n * 2 ^ k : ℕ) : ℚ) * 2 ^ (0 - (k : ℤ)) = n := by
      rw [zero_sub, zpow_neg, zpow_natCast]
      push_cast
      field_simp
    rwa [hvalue'] at h

/-- The word of one. -/
theorem word_one : word (Float.ofBits 4607182418800017408) = 1022 * 2 ^ 52 + 2 ^ 52 := by
  decide +kernel

/-- The double of a small natural number is that number. -/
theorem word_ofNat {n : Nat} (hn : n < 2 ^ 53) :
    word (Float.ofNat n) < topWord ∧ magnitude (word (Float.ofNat n)) = n := by
  obtain ⟨hlt, hvalue⟩ := word_toFloat hn
  have hmul : Float.ofNat n = n.toUInt64.toFloat * Float.ofBits 4607182418800017408 := by
    show (if h : n < 2 ^ 53 ∧ 0 ≤ 22 then _ else _ : Float) = _
    rw [dif_pos ⟨hn, by decide⟩]
    rfl
  have hone : magnitude (word (Float.ofBits 4607182418800017408)) = 1 := by
    rw [word_one, magnitude_mul_add (.inr (le_refl _)) (by norm_num)]
    norm_num
  rw [hmul]
  rcases Nat.eq_zero_or_pos (word n.toUInt64.toFloat) with h0 | h0
  · have hzero : word (n.toUInt64.toFloat * Float.ofBits 4607182418800017408) = 0 := by
      rw [word_mul, unpack_of_word_eq_zero h0, unpack_of_word_lt (by decide +kernel) (by decide +kernel)]
      rfl
    rw [hzero, ← hvalue, h0]
    exact ⟨by decide, rfl⟩
  · have h := nearest_mul h0 hlt (v := Float.ofBits 4607182418800017408) (by decide +kernel)
      (by decide +kernel)
    rw [hone, mul_one] at h
    rw [h.eq_of_magnitude hlt]
    exact ⟨hlt, hvalue⟩

/-- The doubles of small natural numbers differ as the numbers do. -/
theorem word_ofNat_lt_iff {m n : Nat} (hm : m < 2 ^ 53) (hn : n < 2 ^ 53) :
    word (Float.ofNat m) < word (Float.ofNat n) ↔ m < n := by
  rw [← magnitude_strictMono.lt_iff_lt, (word_ofNat hm).2, (word_ofNat hn).2]
  exact_mod_cast Iff.rfl

/-- The whole part of a whole number. -/
theorem floorMagnitude_eq {m n : Nat} {e : ℤ} (h : (m : ℚ) * 2 ^ e = n) : floorMagnitude m e = n := by
  cases e with
  | ofNat k =>
    rw [Int.ofNat_eq_natCast, zpow_natCast] at h
    show m * 2 ^ k = n
    exact_mod_cast h
  | negSucc k =>
    rw [zpow_negSucc, ← div_eq_mul_inv, div_eq_iff (by positivity)] at h
    have hm : m = n * 2 ^ (k + 1) := by exact_mod_cast h
    show m / 2 ^ (k + 1) = n
    rw [hm, Nat.mul_div_cancel _ (by positivity)]

/-- The two readings of a word agree. -/
theorem ofBits_of_lt {b : Nat} (h : b < topWord) :
    ofBits b = .finite false (mantissa b) (scale b - 1074) := by
  rw [topWord] at h
  have hpow (n : Nat) : Nat.pow 2 n = 2 ^ n := rfl
  simp only [ofBits, hpow, mantissa, scale]
  have hsign : (b / 2 ^ 63 % 2 == 1) = false := by
    rw [beq_eq_false_iff_ne]
    omega
  rw [if_neg (by omega), hsign]
  split_ifs with h0
  · congr 1 <;> omega
  · congr 1 <;> omega

/-- A small natural number is left whole by truncation. -/
theorem truncateInt64_ofNat {n : Nat} (hn : n < 2 ^ 53) :
    (ofFloat (Float.ofNat n)).truncateInt64 = n := by
  obtain ⟨hlt, hvalue⟩ := word_ofNat hn
  have hfloat : ofFloat (Float.ofNat n) = ofBits (word (Float.ofNat n)) := rfl
  rw [hfloat, ofBits_of_lt hlt, truncateInt64, floorMagnitude_eq hvalue]
  have hmin : minInt64 = -(2 ^ 63) := rfl
  have hmax : maxInt64 = 2 ^ 63 - 1 := rfl
  rw [hmin, hmax]
  simp only [Bool.false_eq_true, if_false]
  omega

end Binary64

end WindowSurvey
