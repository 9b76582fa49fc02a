import Coupling.Number.Fixed
import Mathlib

/-!
# Integers as floats

The float of an integer is the integer of at most 53 significant bits that is nearest to it, ties to
even. So an integer is kept if it has no more bits than that, and changed if it has.

The lemmas on packed floats that are used here, such as `unpackSign_packComponents`, come with the
whole library only.
-/

namespace Coupling.Number

open Float.Model (UnpackedFloat Format totalExponent)
open Float.Model.UnpackedFloat

/-! ### Division to the nearest -/

section Division

variable {a b : ℕ}

theorem roundDiv_mul_right {c : ℕ} (hc : 0 < c) :
    roundDiv (a * c) (b * c) = roundDiv a b := by
  have hmod : 2 * (a * c % (b * c)) = 2 * (a % b) * c := by
    rw [Nat.mul_mod_mul_right, Nat.mul_assoc]
  simp only [roundDiv, Nat.mul_div_mul_right a b hc, hmod, Nat.mul_lt_mul_right hc]

theorem roundDiv_mul (hb : 0 < b) (q : ℕ) : roundDiv (q * b) b = q := by
  simp [roundDiv, hb]

/-- The nearest integer is at most half away. -/
theorem roundDiv_near (hb : 0 < b) :
    2 * a ≤ 2 * (roundDiv a b * b) + b ∧ 2 * (roundDiv a b * b) ≤ 2 * a + b := by
  have hdivision := Nat.div_add_mod' a b
  have hlt := Nat.mod_lt a hb
  simp only [roundDiv]
  split
  · omega
  · split
    · rw [Nat.add_mul]
      omega
    · rcases Nat.mod_two_eq_zero_or_one (a / b) with hparity | hparity <;>
        rw [hparity, Nat.add_mul] <;> omega

theorem le_roundDiv (hb : 0 < b) {q : ℕ} (h : q * b ≤ a) : q ≤ roundDiv a b := by
  have hle : q ≤ a / b := (Nat.le_div_iff_mul_le hb).mpr h
  simp only [roundDiv]
  split
  · exact hle
  · split <;> omega

theorem roundDiv_le (hb : 0 < b) {q : ℕ} (h : a ≤ q * b) : roundDiv a b ≤ q := by
  rcases Nat.lt_or_eq_of_le h with hlt | rfl
  · have hdiv : a / b < q := Nat.div_lt_of_lt_mul (by rwa [Nat.mul_comm])
    have hparity := Nat.mod_lt (a / b) (show 0 < 2 by decide)
    simp only [roundDiv]
    split
    · omega
    · split <;> omega
  · rw [roundDiv_mul hb]

end Division

/-! ### Shifting -/

/-- The bits that a shift drops, as far as rounding needs them. -/
theorem shiftRight_exact (m k : ℕ) :
    (ExtendedMantissa.ofMantissaAndAccuracy m .exact >>> k) =
      ⟨m / 2 ^ k, decide (2 ^ k ≤ 2 * (m % 2 ^ k)), decide (2 * (m % 2 ^ k) % 2 ^ k ≠ 0)⟩ := by
  induction k with
  | zero => simp [HShiftRight.hShiftRight, Nat.repeat, ExtendedMantissa.ofMantissaAndAccuracy,
      Nat.mod_one]
  | succ k ih =>
    have hstep : (ExtendedMantissa.ofMantissaAndAccuracy m .exact >>> (k + 1)) =
        (ExtendedMantissa.ofMantissaAndAccuracy m .exact >>> k).shiftRightOne := rfl
    have hpos : 0 < 2 ^ k := Nat.two_pow_pos k
    have hmod : m % 2 ^ (k + 1) = 2 ^ k * (m / 2 ^ k % 2) + m % 2 ^ k := by
      rw [Nat.pow_succ, Nat.mod_mul, Nat.add_comm]
    have hlt := Nat.mod_lt m hpos
    rw [hstep, ih, ExtendedMantissa.shiftRightOne, hmod, Nat.pow_succ, ← Nat.div_div_eq_div_mul]
    -- The last bit that was kept is the one to round by now; all that was dropped before it decides
    -- ties.
    congr 1
    · rcases Nat.mod_two_eq_zero_or_one (m / 2 ^ k) with hbit | hbit <;> rw [hbit]
      · rw [decide_eq_false (by omega)]
        rfl
      · rw [decide_eq_true (by omega)]
        rfl
    · have hsticky : 2 * (2 ^ k * (m / 2 ^ k % 2) + m % 2 ^ k) % (2 ^ k * 2) =
          2 * (m % 2 ^ k) := by
        rw [show 2 * (2 ^ k * (m / 2 ^ k % 2) + m % 2 ^ k) =
          2 * (m % 2 ^ k) + 2 ^ k * 2 * (m / 2 ^ k % 2) by ring, Nat.add_mul_mod_self_left]
        exact Nat.mod_eq_of_lt (by omega)
      rw [hsticky, ← Bool.decide_or, decide_eq_decide]
      constructor
      · rintro (hround | hrest) hzero
        · omega
        · rw [hzero, Nat.zero_mod] at hrest
          exact hrest rfl
      · intro hne
        by_cases hround : 2 ^ k ≤ 2 * (m % 2 ^ k)
        · exact .inl hround
        · rw [Nat.mod_eq_of_lt (by omega : 2 * (m % 2 ^ k) < 2 ^ k)]
          exact .inr hne

/-- What is left after a shift is rounded to the nearest, ties to even. -/
theorem roundedMantissa_shiftRight (m k : ℕ) :
    (ExtendedMantissa.ofMantissaAndAccuracy m .exact >>> k).roundedMantissa =
      roundDiv m (2 ^ k) := by
  have hlt := Nat.mod_lt m (Nat.two_pow_pos k)
  rw [shiftRight_exact, ExtendedMantissa.roundedMantissa]
  rcases lt_trichotomy (2 * (m % 2 ^ k)) (2 ^ k) with hbelow | htie | habove
  · rw [roundDiv, if_pos hbelow, decide_eq_false (by omega)]
    cases decide (2 * (m % 2 ^ k) % 2 ^ k ≠ 0) <;> rfl
  · rw [roundDiv, if_neg (by omega), if_neg (by omega), htie, Nat.mod_self,
      decide_eq_true le_rfl]
    rfl
  · have hrest : 2 * (m % 2 ^ k) % 2 ^ k ≠ 0 := by
      rw [Nat.mod_eq_sub_mod habove.le, Nat.mod_eq_of_lt (by omega)]
      omega
    rw [roundDiv, if_neg (by omega), if_pos habove, decide_eq_true habove.le,
      decide_eq_true hrest]
    rfl

/-! ### Whole numbers -/

/-- The distance between binary64 numbers of the size of an integer, if it is not less than one. -/
def spacing (n : ℕ) : ℕ := 2 ^ (n.log2 - 52)

/-- The integer of at most 53 significant bits that is nearest, ties to even. -/
def nearest (n : ℕ) : ℕ := roundDiv n (spacing n) * spacing n

theorem spacing_pos (n : ℕ) : 0 < spacing n := Nat.two_pow_pos _

theorem nearest_eq_self_iff {n : ℕ} : nearest n = n ↔ spacing n ∣ n := by
  constructor
  · intro h
    exact ⟨roundDiv n (spacing n), by rw [Nat.mul_comm]; exact h.symm⟩
  · rintro ⟨q, hq⟩
    have hround := roundDiv_mul (spacing_pos n) q
    rw [Nat.mul_comm, ← hq] at hround
    rw [nearest, hround, Nat.mul_comm, ← hq]

theorem log2_lt_of_lt {n k : ℕ} (hk : 0 < k) (h : n < 2 ^ k) : n.log2 < k := by
  by_cases hzero : n = 0
  · simp [hzero, hk]
  · exact (Nat.log2_lt hzero).mpr h

theorem nearest_of_lt {n : ℕ} (hn : n < 2 ^ 53) : nearest n = n := by
  have hlog := log2_lt_of_lt (by decide) hn
  rw [nearest_eq_self_iff, spacing, Nat.sub_eq_zero_of_le (by omega)]
  exact Nat.one_dvd n

theorem nearest_of_le {n : ℕ} (hn : n ≤ 2 ^ 53) : nearest n = n := by
  rcases Nat.lt_or_eq_of_le hn with hlt | rfl
  · exact nearest_of_lt hlt
  · decide

theorem nearest_near (n : ℕ) : 2 * ((nearest n : ℤ) - n).natAbs ≤ spacing n := by
  have hnear := roundDiv_near (a := n) (spacing_pos n)
  rw [← nearest] at hnear
  omega

theorem two_pow_eq_mul_spacing {n k : ℕ} (hk : n.log2 ≤ k) :
    2 ^ k = 2 ^ (k - (n.log2 - 52)) * spacing n := by
  rw [spacing, ← Nat.pow_add]
  congr 1
  omega

theorem two_pow_le_nearest {n k : ℕ} (hk : n.log2 ≤ k) (h : 2 ^ k ≤ n) : 2 ^ k ≤ nearest n := by
  rw [two_pow_eq_mul_spacing hk] at h ⊢
  exact Nat.mul_le_mul_right _ (le_roundDiv (spacing_pos n) h)

theorem nearest_le_two_pow {n k : ℕ} (hk : n.log2 ≤ k) (h : n ≤ 2 ^ k) : nearest n ≤ 2 ^ k := by
  rw [two_pow_eq_mul_spacing hk] at h ⊢
  exact Nat.mul_le_mul_right _ (roundDiv_le (spacing_pos n) h)

/-- Rounding keeps the number of bits, or goes up to the next power of two. -/
theorem log2_nearest (n : ℕ) :
    (nearest n).log2 = n.log2 ∨ nearest n = 2 ^ (n.log2 + 1) := by
  by_cases hzero : n = 0
  · exact .inl (by rw [nearest_of_lt (by omega)])
  · have hlow := two_pow_le_nearest le_rfl (Nat.log2_self_le hzero)
    have hhigh := nearest_le_two_pow (Nat.le_succ n.log2) Nat.lt_log2_self.le
    have hpos := Nat.two_pow_pos n.log2
    rcases Nat.lt_or_eq_of_le hhigh with hlt | heq
    · exact .inl ((Nat.log2_eq_iff (by omega)).mpr ⟨hlow, hlt⟩)
    · exact .inr heq

theorem log2_nearest_le (n : ℕ) : (nearest n).log2 ≤ n.log2 + 1 := by
  rcases log2_nearest n with h | h
  · omega
  · rw [h, Nat.log2_two_pow]

theorem nearest_nearest (n : ℕ) : nearest (nearest n) = nearest n := by
  rw [nearest_eq_self_iff]
  rcases log2_nearest n with h | h
  · rw [spacing, h]
    exact Nat.dvd_mul_left _ _
  · rw [spacing, h, Nat.log2_two_pow]
    exact Nat.pow_dvd_pow 2 (Nat.sub_le _ _)

theorem full_mantissa {n : ℕ} (hn : n ≠ 0) :
    2 ^ 52 ≤ n * 2 ^ 52 / 2 ^ n.log2 ∧ n * 2 ^ 52 / 2 ^ n.log2 < 2 ^ 53 := by
  have hpos := Nat.two_pow_pos n.log2
  constructor
  · rw [Nat.le_div_iff_mul_le hpos, Nat.mul_comm]
    exact Nat.mul_le_mul_right _ (Nat.log2_self_le hn)
  · rw [Nat.div_lt_iff_lt_mul hpos]
    have := Nat.lt_log2_self (n := n)
    rw [Nat.pow_succ] at this
    omega

/-- An integer as a float with a full mantissa. Nothing is lost if it has at most 53 significant
bits. -/
def whole (s : Sign) (n : ℕ) : UnpackedFloat :=
  if hn : n = 0 then .zero s
  else .finite s (n * 2 ^ 52 / 2 ^ n.log2) (n.log2 - 52)
    (Nat.lt_of_lt_of_le (by decide) (full_mantissa hn).1)

/-- The mantissa of an integer that is kept is all of it. -/
theorem whole_mantissa_mul {n : ℕ} (hexact : nearest n = n) :
    n * 2 ^ 52 / 2 ^ n.log2 * 2 ^ n.log2 = n * 2 ^ 52 := by
  refine Nat.div_mul_cancel ?_
  calc 2 ^ n.log2 ∣ 2 ^ (n.log2 - 52 + 52) := Nat.pow_dvd_pow 2 (by omega)
    _ = spacing n * 2 ^ 52 := Nat.pow_add 2 _ 52
    _ ∣ n * 2 ^ 52 := Nat.mul_dvd_mul_right (nearest_eq_self_iff.mp hexact) _

theorem log2_eq {n m l : ℕ} (h : n * 2 ^ 52 = m * 2 ^ l) (hlow : 2 ^ 52 ≤ m) (hhigh : m < 2 ^ 53) :
    n.log2 = l := by
  have hpos := Nat.two_pow_pos l
  have hle : 2 ^ l ≤ n := by
    have := Nat.mul_le_mul_right (2 ^ l) hlow
    omega
  have hlt : n < 2 ^ (l + 1) := by
    have := Nat.mul_lt_mul_of_pos_right hhigh hpos
    rw [Nat.pow_succ]
    omega
  exact (Nat.log2_eq_iff (by omega)).mpr ⟨hle, hlt⟩

theorem whole_eq_finite {s : Sign} {n m l : ℕ} (h : n * 2 ^ 52 = m * 2 ^ l) (hlow : 2 ^ 52 ≤ m)
    (hhigh : m < 2 ^ 53) :
    whole s n = .finite s m (l - 52) (Nat.lt_of_lt_of_le (by decide) hlow) := by
  have hlog := log2_eq h hlow hhigh
  have hpos := Nat.two_pow_pos l
  have hn : n ≠ 0 := by
    rintro rfl
    have := Nat.mul_le_mul_right (2 ^ l) hlow
    omega
  have hmantissa : n * 2 ^ 52 / 2 ^ l = m := by rw [h, Nat.mul_div_cancel _ hpos]
  simp only [whole, hn, ↓reduceDIte, hlog, hmantissa]

/-! ### Rounding -/

/-- A mantissa is shifted until it has 53 bits. -/
theorem shiftToTargetExponent_eq {m k : ℕ} {e : ℤ} (hm : m.log2 = 52 + k) (he : -1074 ≤ e + k) :
    shiftToTargetExponent .binary64 m e .exact =
      (ExtendedMantissa.ofMantissaAndAccuracy m .exact >>> k, e + k) := by
  have htarget : Format.targetExponent .binary64 (totalExponent m e) = e + k := by
    simp only [Format.targetExponent, totalExponent, hm, Format.mantissaBits, Format.minExponent]
    omega
  have hshift : (e + k - e).toNat = k := by omega
  simp only [shiftToTargetExponent, shiftToExponent, htarget, hshift]

section Rounding

variable {n j : ℕ}

theorem log2_mul_two_pow (hn : n ≠ 0) : (n * 2 ^ j).log2 = n.log2 + j := by
  have hpos := Nat.two_pow_pos j
  refine (Nat.log2_eq_iff (Nat.mul_ne_zero hn hpos.ne')).mpr ⟨?_, ?_⟩
  · rw [Nat.pow_add]
    exact Nat.mul_le_mul_right _ (Nat.log2_self_le hn)
  · rw [Nat.add_right_comm, Nat.pow_add]
    exact Nat.mul_lt_mul_of_pos_right Nat.lt_log2_self hpos

/-- The mantissa to which an integer is rounded, for its integer. -/
theorem nearest_mul (hj : 52 ≤ n.log2 + j) :
    nearest n * 2 ^ 52 = roundDiv (n * 2 ^ j) (2 ^ (n.log2 + j - 52)) * 2 ^ n.log2 := by
  rcases Nat.le_total 52 n.log2 with hlarge | hsmall
  · have hscale : 2 ^ (n.log2 + j - 52) = spacing n * 2 ^ j := by
      rw [spacing, ← Nat.pow_add]
      congr 1
      omega
    rw [hscale, roundDiv_mul_right (Nat.two_pow_pos j), nearest, spacing, Nat.mul_assoc,
      ← Nat.pow_add, Nat.sub_add_cancel hlarge]
  · have hone : spacing n = 1 := by rw [spacing, Nat.sub_eq_zero_of_le hsmall, Nat.pow_zero]
    have hexact : nearest n = n := nearest_eq_self_iff.mpr (hone ▸ Nat.one_dvd n)
    have hscale : n * 2 ^ j = n * 2 ^ (52 - n.log2) * 2 ^ (n.log2 + j - 52) := by
      rw [Nat.mul_assoc, ← Nat.pow_add]
      congr 2
      omega
    rw [hexact, hscale, roundDiv_mul (Nat.two_pow_pos _), Nat.mul_assoc, ← Nat.pow_add,
      Nat.sub_add_cancel hsmall]

/-- An integer, written with so many more bits that its mantissa is full, is rounded to the
nearest integer. -/
theorem roundWithAccuracy_whole (s : Sign) (hn : n ≠ 0) (hj : 52 ≤ n.log2 + j) :
    roundWithAccuracy .binary64 s (n * 2 ^ j) (-j) .exact = whole s (nearest n) := by
  have hscale : 2 ^ 52 * 2 ^ (n.log2 + j - 52) = 2 ^ n.log2 * 2 ^ j := by
    rw [← Nat.pow_add, ← Nat.pow_add, Nat.add_sub_cancel' hj]
  have hlow : 2 ^ 52 ≤ roundDiv (n * 2 ^ j) (2 ^ (n.log2 + j - 52)) := by
    refine le_roundDiv (Nat.two_pow_pos _) ?_
    rw [hscale]
    exact Nat.mul_le_mul_right _ (Nat.log2_self_le hn)
  have hhigh : roundDiv (n * 2 ^ j) (2 ^ (n.log2 + j - 52)) ≤ 2 ^ 53 := by
    refine roundDiv_le (Nat.two_pow_pos _) ?_
    calc n * 2 ^ j ≤ 2 ^ (n.log2 + 1) * 2 ^ j := Nat.mul_le_mul_right _ Nat.lt_log2_self.le
      _ = 2 * (2 ^ n.log2 * 2 ^ j) := by ring
      _ = 2 ^ 53 * 2 ^ (n.log2 + j - 52) := by rw [← hscale]; ring
  have hvalue := nearest_mul hj
  have hexponent : (-j + (n.log2 + j - 52 : ℕ) : ℤ) = n.log2 - 52 := by omega
  unfold roundWithAccuracy
  rw [shiftToTargetExponent_eq (k := n.log2 + j - 52)
    (by rw [log2_mul_two_pow hn]; omega) (by omega), hexponent]
  dsimp only
  rw [roundedMantissa_shiftRight]
  generalize roundDiv (n * 2 ^ j) (2 ^ (n.log2 + j - 52)) = q at *
  rcases Nat.lt_or_eq_of_le hhigh with hlt | rfl
  · rw [shiftToTargetExponent_eq (k := 0) ((Nat.log2_eq_iff (by omega)).mpr ⟨hlow, hlt⟩) (by omega),
      whole_eq_finite hvalue hlow hlt]
    have hne : q ≠ 0 := by omega
    simp [shiftRight_exact, hne]
  · -- The mantissa overflows, and a last shift makes it fit again.
    have hcarry : nearest n * 2 ^ 52 = 2 ^ 52 * 2 ^ (n.log2 + 1) := by
      rw [hvalue]
      ring
    rw [shiftToTargetExponent_eq (k := 1) Nat.log2_two_pow (by omega),
      whole_eq_finite hcarry le_rfl (by decide)]
    have hnext : (n.log2 : ℤ) - 52 + 1 = n.log2 + 1 - 52 := by omega
    simp [shiftRight_exact, hnext]

end Rounding

/-! ### Packing -/

theorem unpack_pack_finite (s : Sign) {m : ℕ} {e : ℤ} (hlow : 2 ^ 52 ≤ m) (hhigh : m < 2 ^ 53)
    (hleast : -1074 ≤ e) (hgreatest : e ≤ 971) (hm : 0 < m) :
    (Float.Model.pack (.finite s m e hm)).unpack = .finite s m e hm := by
  have hlog : m.log2 + 1 = Format.mantissaBits .binary64 := by
    rw [(Nat.log2_eq_iff hm.ne').mpr ⟨hlow, hhigh⟩]
    rfl
  have hbias : e + (Format.exponentBias .binary64 : ℕ) + (52 : ℕ) = e + 1075 := by
    simp only [Format.exponentBias]
    omega
  have hbiased : (BitVec.ofNat 11 (e + 1075).toNat).toNat = (e + 1075).toNat := by
    rw [BitVec.toNat_ofNat, Nat.mod_eq_of_lt (by omega)]
  have hmantissa : (1#1 ++ BitVec.ofNat 52 m).toNat = m := by
    rw [BitVec.toNat_append, ← Nat.shiftLeft_add_eq_or_of_lt (BitVec.isLt _), BitVec.toNat_ofNat]
    change 2 ^ 52 + m % 2 ^ 52 = m
    omega
  have hones : BitVec.ofNat 11 (e + 1075).toNat ≠ -1#11 := by
    rw [Ne, ← BitVec.toNat_inj, hbiased]
    change (e + 1075).toNat ≠ 2047
    omega
  have hzero : BitVec.ofNat 11 (e + 1075).toNat ≠ 0#11 := by
    rw [Ne, ← BitVec.toNat_inj, hbiased]
    change (e + 1075).toNat ≠ 0
    omega
  have hpack : UnpackedFloat.pack .binary64 (.finite s m e hm) =
      packComponents .binary64 s (.ofNat _ (e + 1075).toNat) (.ofNat _ m) := by
    simp only [UnpackedFloat.pack, hbias]
    rw [if_neg (by omega), if_pos hlog]
  change UnpackedFloat.unpack .binary64 (UnpackedFloat.pack .binary64 (.finite s m e hm)) = _
  rw [hpack, UnpackedFloat.unpack]
  simp only [unpackMantissa_packComponents, unpackExponent_packComponents,
    unpackSign_packComponents, Sign.ofBitVec_toBitVec, hones, hzero, if_false, hbiased, hmantissa]
  congr 1
  simp only [Format.exponentBias]
  omega

theorem unpack_pack_whole (s : Sign) {n : ℕ} (hn : n.log2 < 1024) :
    (Float.Model.pack (whole s n)).unpack = whole s n := by
  by_cases hzero : n = 0
  · rw [whole, dif_pos hzero]
    exact unpack_packedZero
  · obtain ⟨hlow, hhigh⟩ := full_mantissa hzero
    rw [whole, dif_neg hzero]
    exact unpack_pack_finite s hlow hhigh (by omega) (by omega) _

/-- A number times one is the number, with the sign of both. -/
theorem mul_whole_one (s t : Sign) {n : ℕ} (hexact : nearest n = n) (hn : n.log2 ≤ 104) :
    UnpackedFloat.mul .binary64 (whole s n) (whole t 1) = whole (s * t) n := by
  by_cases hzero : n = 0
  · rw [hzero]
    rfl
  · have hpos := Nat.two_pow_pos n.log2
    have hmantissa : n * 2 ^ 52 / 2 ^ n.log2 * 2 ^ 52 = n * 2 ^ (104 - n.log2) := by
      refine Nat.eq_of_mul_eq_mul_right hpos ?_
      rw [Nat.mul_right_comm, whole_mantissa_mul hexact, Nat.mul_assoc, Nat.mul_assoc,
        ← Nat.pow_add, ← Nat.pow_add, Nat.sub_add_cancel hn]
    have hone : whole t 1 = .finite t (2 ^ 52) (-52) (by decide) := rfl
    have hexponent : (n.log2 - 52 + -52 : ℤ) = -(104 - n.log2 : ℕ) := by omega
    rw [hone]
    conv_lhs => rw [whole, dif_neg hzero]
    rw [UnpackedFloat.mul, hmantissa, hexponent, roundWithAccuracy_whole _ hzero (by omega), hexact]

theorem ofNat_whole {n : ℕ} (hn : n < 2 ^ 53) :
    UnpackedFloat.ofNat .binary64 n = whole .positive n := by
  by_cases hzero : n = 0
  · rw [hzero]
    rfl
  · have hlog : n.log2 < 53 := (Nat.log2_lt hzero).mpr hn
    have hgt : compare (n : ℤ) 0 = .gt := Int.compare_eq_gt.mpr (by omega)
    have htarget : Format.targetExponent .binary64 (totalExponent n 0) = n.log2 - 52 := by
      simp only [Format.targetExponent, totalExponent, Format.mantissaBits, Format.minExponent]
      omega
    have hshift : (-((n.log2 : ℤ) - 52)).toNat = 52 - n.log2 := by omega
    have hround : UnpackedFloat.ofNat .binary64 n =
        roundWithAccuracy .binary64 .positive (n * 2 ^ (52 - n.log2)) (-(52 - n.log2 : ℕ))
          .exact := by
      simp only [UnpackedFloat.ofNat, UnpackedFloat.ofInt, UnpackedFloat.normalize, hgt,
        UnpackedFloat.round, htarget, decreaseExponent, Int.zero_sub, hshift, Int.toNat_natCast,
        Nat.shiftLeft_eq]
    rw [hround, roundWithAccuracy_whole _ hzero (by omega), nearest_of_lt hn]

/-- The float of an integer is the integer nearest to it. -/
theorem unpack_ofNat {n : ℕ} (hn : n.log2 < 1023) :
    (Float.ofNat n).toModel.unpack = whole .positive (nearest n) := by
  have hnearest := log2_nearest_le n
  by_cases hsmall : n < 2 ^ 53
  · have hfloat : Float.ofNat n = n.toUInt64.toFloat * Float.ofBits 0x3FF0000000000000 :=
      dif_pos ⟨hsmall, by decide⟩
    have hlog := log2_lt_of_lt (by decide) hsmall
    have hbits : n.toUInt64.toNat = n := UInt64.toNat_ofNat_of_lt' (hsmall.trans (by decide))
    have hexact : n.toUInt64.toFloat.toModel.unpack = whole .positive n := by
      change (Float.Model.pack (UnpackedFloat.ofNat .binary64 n.toUInt64.toNat)).unpack = _
      rw [hbits, ofNat_whole hsmall, unpack_pack_whole _ (by omega)]
    rw [hfloat, nearest_of_lt hsmall]
    change (Float.Model.pack (.mul .binary64 n.toUInt64.toFloat.toModel.unpack
      (whole .positive 1))).unpack = _
    rw [hexact, mul_whole_one _ _ (nearest_of_lt hsmall) (by omega)]
    exact unpack_pack_whole _ (by omega)
  · have hfloat : Float.ofNat n = .ofModel (.ofScientific n 0) :=
      dif_neg fun h => hsmall h.1
    have hround : UnpackedFloat.ofScientific .binary64 n 0 =
        roundWithAccuracy .binary64 .positive (n * 2 ^ 53) (-(53 : ℕ)) .exact := by
      have hbound : (2 ^ Format.exponentBits .binary64 : ℤ) = 2048 := rfl
      rw [UnpackedFloat.ofScientific, dif_neg (by omega), if_neg (by decide), if_neg (by omega),
        if_pos le_rfl, ← Nat.shiftLeft_eq, ← Nat.mul_one (n <<< 53)]
      rfl
    rw [hfloat]
    change (Float.Model.pack (UnpackedFloat.ofScientific .binary64 n 0)).unpack = _
    rw [hround, roundWithAccuracy_whole _ (by omega) (by omega), unpack_pack_whole _ (by omega)]

/-! ### Signs -/

/-- The float that a number is multiplied by to give it a sign. -/
theorem unpack_unit (negative : Bool) :
    (if negative then -1.0 else 1.0 : Float).toModel.unpack =
      whole (if negative then .negative else .positive) 1 := by
  cases negative <;> rfl

theorem unpack_mul_unit {x : Float} {n : ℕ} (hx : x.toModel.unpack = whole .positive n)
    (hexact : nearest n = n) (hn : n.log2 ≤ 104) (negative : Bool) :
    (x * if negative then -1.0 else 1.0).toModel.unpack =
      whole (if negative then .negative else .positive) n := by
  change (Float.Model.pack (.mul .binary64 x.toModel.unpack
    (if negative then -1.0 else 1.0 : Float).toModel.unpack)).unpack = _
  rw [hx, unpack_unit, mul_whole_one _ _ hexact hn, unpack_pack_whole _ (by omega)]
  cases negative <;> rfl

end Coupling.Number
