import Coupling.Proofs.Number.Rounding
import Coupling.Proofs.Number.Shortest

/-!
# Floats as rational numbers

A finite float is a rational number, and floats compare as their numbers do.
-/

namespace Coupling.Number

open Float.Model (UnpackedFloat Format)
open Float.Model.UnpackedFloat (Sign unpackMantissa unpackExponent unpackSign)

/-! ### Bits and floats taken apart -/

/-- The bit of a sign. -/
def isNegative : Sign → Bool
  | .negative => true
  | .positive => false

theorem isNegative_inj {s t : Sign} : isNegative s = isNegative t ↔ s = t := by
  cases s <;> cases t <;> simp [isNegative]

namespace Binary64

/-- The number that a float is when it is taken apart. -/
def ofUnpacked : UnpackedFloat → Binary64
  | .infinity s => .infinite (isNegative s)
  | .notANumber => .nan
  | .zero s => .finite ⟨isNegative s, 0, -1074⟩
  | .finite s m e _ => .finite ⟨isNegative s, m, e⟩

theorem toNat_unpackMantissa (b : BitVec Format.binary64.numBits) :
    (unpackMantissa b).toNat = b.toNat % Nat.pow 2 52 := by
  simp [unpackMantissa, BitVec.extractLsb_toNat]

theorem toNat_unpackExponent (b : BitVec Format.binary64.numBits) :
    (unpackExponent b).toNat = b.toNat / Nat.pow 2 52 % Nat.pow 2 11 := by
  simp [unpackExponent, BitVec.extractLsb_toNat, Nat.shiftRight_eq_div_pow]

theorem isNegative_unpackSign (b : BitVec Format.binary64.numBits) :
    isNegative (.ofBitVec (unpackSign b)) = decide (Nat.pow 2 63 ≤ b.toNat) := by
  have hlt : b.toNat < 2 ^ 64 := b.isLt
  have hsign : (unpackSign b).toNat = b.toNat / 2 ^ 63 % 2 := by
    simp [unpackSign, BitVec.extractLsb_toNat, Nat.shiftRight_eq_div_pow]
  have hzero : unpackSign b = 0#1 ↔ ¬ Nat.pow 2 63 ≤ b.toNat := by
    have hpow : Nat.pow 2 63 = 2 ^ 63 := rfl
    rw [← BitVec.toNat_inj, hsign, BitVec.toNat_zero, hpow]
    omega
  unfold Sign.ofBitVec
  by_cases hneg : Nat.pow 2 63 ≤ b.toNat
  · rw [if_neg fun h => hzero.mp h hneg, decide_eq_true hneg]
    rfl
  · rw [if_pos (hzero.mpr hneg), decide_eq_false hneg]
    rfl

theorem ofBits_eq_ofUnpacked (b : BitVec Format.binary64.numBits) :
    ofBits b.toNat = ofUnpacked (.unpack .binary64 b) := by
  have hones : unpackExponent b = -1#_ ↔ (unpackExponent b).toNat = Nat.pow 2 11 - 1 := by
    rw [← BitVec.toNat_inj]
    rfl
  have hzero : unpackExponent b = 0#_ ↔ (unpackExponent b).toNat = 0 := by
    rw [← BitVec.toNat_inj]
    rfl
  have hempty : unpackMantissa b = 0#_ ↔ (unpackMantissa b).toNat = 0 := by
    rw [← BitVec.toNat_inj]
    rfl
  have himplicit : (1#1 ++ unpackMantissa b).toNat = Nat.pow 2 52 + (unpackMantissa b).toNat := by
    rw [BitVec.toNat_append, ← Nat.shiftLeft_add_eq_or_of_lt (unpackMantissa b).isLt]
    rfl
  simp only [ofBits, UnpackedFloat.unpack, hones, hzero, hempty]
  rw [← toNat_unpackMantissa, ← toNat_unpackExponent, ← isNegative_unpackSign]
  split
  · split <;> rfl
  · split
    · rename_i hexponent
      split
      · rename_i hmantissa
        rw [hmantissa]
        rfl
      · rw [ofUnpacked, hexponent]
        rfl
    · rw [ofUnpacked, himplicit]
      rfl

theorem ofFloat_eq_ofUnpacked (x : Float) : ofFloat x = ofUnpacked x.toModel.unpack :=
  ofBits_eq_ofUnpacked x.toModel.toBits.toBitVec

end Binary64

/-! ### Values -/

namespace Dyadic

def value (d : Dyadic) : ℚ :=
  (if d.negative then -1 else 1) * (d.mantissa * 2 ^ d.exponent)

theorem roundsTo_magnitude (d : Dyadic) : d.RoundsTo (d.mantissa * 2 ^ d.exponent) := by
  have hquarter := d.quarter_pos
  have hmagnitude : (d.mantissa * 2 ^ d.exponent : ℚ) = 4 * d.mantissa * d.quarter := by
    rw [quarter, zpow_sub₀ (by norm_num)]
    ring
  have hbelow : (0 : ℚ) < d.below := by
    rcases d.below_eq_or with ⟨h, _⟩ | h <;> rw [h] <;> norm_num
  have hlow : d.low < d.mantissa * 2 ^ d.exponent := by
    rw [hmagnitude, low]
    exact mul_lt_mul_of_pos_right (by linarith) hquarter
  have hhigh : d.mantissa * 2 ^ d.exponent < d.high := by
    rw [hmagnitude, high]
    exact mul_lt_mul_of_pos_right (by linarith) hquarter
  exact ⟨hlow.le, hhigh.le, fun _ => ⟨hlow, hhigh⟩⟩

theorem abs_value (d : Dyadic) : |d.value| = d.mantissa * 2 ^ d.exponent := by
  have hpos : (0 : ℚ) ≤ d.mantissa * 2 ^ d.exponent := by positivity
  unfold value
  split <;> simp [abs_of_nonneg hpos]

theorem value_eq_zero_iff {d : Dyadic} : d.value = 0 ↔ d.mantissa = 0 := by
  have hpos : (2 : ℚ) ^ d.exponent ≠ 0 := by positivity
  rw [← abs_eq_zero, abs_value, mul_eq_zero, or_iff_left hpos, Nat.cast_eq_zero]

/-- Numbers of one value are the same, zeros of either sign apart. -/
theorem value_eq_iff {d d' : Dyadic} (hd : d.IsBinary64) (hd' : d'.IsBinary64) :
    d.value = d'.value ↔ d = d' ∨ d.mantissa = 0 ∧ d'.mantissa = 0 := by
  constructor
  · intro h
    have habs : (d.mantissa * 2 ^ d.exponent : ℚ) = d'.mantissa * 2 ^ d'.exponent := by
      rw [← abs_value, h, abs_value]
    obtain ⟨hmantissa, hexponent⟩ :=
      d.roundsTo_magnitude.unique hd hd' (habs ▸ d'.roundsTo_magnitude)
    by_cases hzero : d.mantissa = 0
    · exact .inr ⟨hzero, hmantissa ▸ hzero⟩
    · left
      have hpos : (0 : ℚ) < d.mantissa * 2 ^ d.exponent := by
        have : 0 < d.mantissa := Nat.pos_of_ne_zero hzero
        positivity
      have hsign : d.negative = d'.negative := by
        rw [value, value, ← habs] at h
        cases hneg : d.negative <;> cases hneg' : d'.negative <;> simp [hneg, hneg'] at h ⊢
        · linarith
        · linarith
      cases d
      cases d'
      rw [Dyadic.mk.injEq]
      exact ⟨hsign, hmantissa, hexponent⟩
  · rintro (rfl | ⟨h, h'⟩)
    · rfl
    · rw [value_eq_zero_iff.mpr h, value_eq_zero_iff.mpr h']

theorem integer?_of_value {d : Dyadic} {z : ℤ} (h : d.value = z) : d.integer? = some z := by
  have hmagnitude : (d.mantissa * 2 ^ d.exponent : ℚ) = z.natAbs := by
    rw [← abs_value, h, Nat.cast_natAbs, Int.cast_abs]
  have hsigned : (if d.negative then -(z.natAbs : ℤ) else z.natAbs) = z := by
    have hcast : ((if d.negative then -(z.natAbs : ℤ) else z.natAbs : ℤ) : ℚ) = z := by
      rw [← h, value, hmagnitude]
      split <;> simp [Nat.cast_natAbs]
    exact_mod_cast hcast
  have hwhole : (if 0 ≤ d.exponent then some (d.mantissa * Nat.pow 2 d.exponent.natAbs)
      else if d.mantissa % Nat.pow 2 d.exponent.natAbs = 0 then
        some (d.mantissa / Nat.pow 2 d.exponent.natAbs)
      else none) = some z.natAbs := by
    by_cases he : 0 ≤ d.exponent
    · obtain ⟨k, hk⟩ := Int.eq_ofNat_of_zero_le he
      rw [hk, zpow_natCast] at hmagnitude
      rw [if_pos he, hk]
      exact congrArg some (by exact_mod_cast hmagnitude)
    · obtain ⟨k, hk⟩ := Int.eq_ofNat_of_zero_le (show 0 ≤ -d.exponent by omega)
      have hexponent : d.exponent = -(k : ℤ) := by omega
      have hmantissa : d.mantissa = z.natAbs * Nat.pow 2 k := by
        rw [hexponent, zpow_neg, zpow_natCast, ← div_eq_mul_inv,
          div_eq_iff (by positivity)] at hmagnitude
        exact_mod_cast hmagnitude
      have hk' : d.exponent.natAbs = k := by omega
      have hpos : 0 < Nat.pow 2 k := Nat.two_pow_pos k
      rw [if_neg he, hk', hmantissa, if_pos (Nat.mul_mod_left _ _), Nat.mul_div_cancel _ hpos]
  simp only [integer?, hwhole]
  exact congrArg some hsigned

end Dyadic

/-! ### Comparison -/

/-- A float is finite and has a value. -/
def HasValue (x : Float) (q : ℚ) : Prop := ∃ d, Binary64.ofFloat x = .finite d ∧ d.value = q

theorem HasValue.unique {x : Float} {q r : ℚ} (hq : HasValue x q) (hr : HasValue x r) : q = r := by
  obtain ⟨d, hd, rfl⟩ := hq
  obtain ⟨d', hd', rfl⟩ := hr
  rw [hd, Binary64.finite.injEq] at hd'
  rw [hd']

theorem beq_iff_dyadic {x y : Float} {d' : Dyadic} (hy : Binary64.ofFloat y = .finite d') :
    (x == y) = true ↔
      ∃ d, Binary64.ofFloat x = .finite d ∧ (d = d' ∨ d.mantissa = 0 ∧ d'.mantissa = 0) := by
  have hbeq : (x == y) = x.toModel.unpack.beq y.toModel.unpack := rfl
  rw [hbeq, UnpackedFloat.beq_iff_ne_notANumber_and_eq]
  rw [Binary64.ofFloat_eq_ofUnpacked] at hy ⊢
  generalize x.toModel.unpack = u
  generalize y.toModel.unpack = v at hy ⊢
  cases v with
  | infinity t => simp [Binary64.ofUnpacked] at hy
  | notANumber => simp [Binary64.ofUnpacked] at hy
  | zero t =>
    obtain rfl : ⟨isNegative t, 0, -1074⟩ = d' := by simpa [Binary64.ofUnpacked] using hy
    cases u with
    | infinity s => simp [Binary64.ofUnpacked]
    | notANumber => simp [Binary64.ofUnpacked]
    | zero s => cases s <;> cases t <;> simp [Binary64.ofUnpacked]
    | finite s m e hm => simp [Binary64.ofUnpacked, hm.ne']
  | finite t n f hn =>
    obtain rfl : ⟨isNegative t, n, f⟩ = d' := by simpa [Binary64.ofUnpacked] using hy
    cases u with
    | infinity s => simp [Binary64.ofUnpacked]
    | notANumber => simp [Binary64.ofUnpacked]
    | zero s => simp [Binary64.ofUnpacked, hn.ne, hn.ne']
    | finite s m e hm => simp [Binary64.ofUnpacked, hm.ne', isNegative_inj]

theorem beq_iff_hasValue {x y : Float} {q : ℚ} (hy : HasValue y q) :
    (x == y) = true ↔ HasValue x q := by
  obtain ⟨d', hd', rfl⟩ := hy
  rw [beq_iff_dyadic hd']
  constructor
  · rintro ⟨d, hd, h⟩
    exact ⟨d, hd, (Dyadic.value_eq_iff (Binary64.isBinary64_of_ofBits hd)
      (Binary64.isBinary64_of_ofBits hd')).mpr h⟩
  · rintro ⟨d, hd, h⟩
    exact ⟨d, hd, (Dyadic.value_eq_iff (Binary64.isBinary64_of_ofBits hd)
      (Binary64.isBinary64_of_ofBits hd')).mp h⟩

/-! ### Integers -/

theorem hasValue_of_whole {x : Float} {s : Sign} {n : ℕ} (hx : x.toModel.unpack = whole s n)
    (hexact : nearest n = n) : HasValue x (s.apply n) := by
  by_cases hzero : n = 0
  · refine ⟨⟨isNegative s, 0, -1074⟩, ?_, ?_⟩
    · rw [Binary64.ofFloat_eq_ofUnpacked, hx, whole, dif_pos hzero]
      rfl
    · rw [Dyadic.value_eq_zero_iff.mpr rfl, hzero]
      cases s <;> rfl
  · refine ⟨⟨isNegative s, n * 2 ^ 52 / 2 ^ n.log2, n.log2 - 52⟩, ?_, ?_⟩
    · rw [Binary64.ofFloat_eq_ofUnpacked, hx, whole, dif_neg hzero]
      rfl
    · have hmantissa : ((n * 2 ^ 52 / 2 ^ n.log2 : ℕ) * 2 ^ n.log2 : ℚ) = n * 2 ^ 52 := by
        exact_mod_cast whole_mantissa_mul hexact
      have hmagnitude : ((n * 2 ^ 52 / 2 ^ n.log2 : ℕ) * 2 ^ (n.log2 - 52 : ℤ) : ℚ) = n := by
        rw [zpow_sub₀ (by norm_num), zpow_natCast, ← mul_div_assoc, hmantissa]
        norm_num
      rw [Dyadic.value, hmagnitude]
      cases s <;> simp [isNegative, Sign.apply]

theorem hasValue_ofNat {n : ℕ} (hn : n.log2 < 1023) : HasValue (Float.ofNat n) (nearest n) :=
  hasValue_of_whole (unpack_ofNat hn) (nearest_nearest n)

/-- An integer read as a float and given a sign is the integer nearest to it, with the sign. -/
theorem hasValue_signed {n : ℕ} (hn : n < 2 ^ 63) (negative : Bool) :
    HasValue (Float.ofNat n * if negative then -1.0 else 1.0)
      (if negative then -(nearest n : ℤ) else nearest n : ℤ) := by
  have hlog := log2_lt_of_lt (by decide) hn
  have hnearest := log2_nearest_le n
  have hunpack := unpack_mul_unit (unpack_ofNat (by omega)) (nearest_nearest n) (by omega) negative
  have hvalue := hasValue_of_whole hunpack (nearest_nearest n)
  cases negative <;> exact hvalue

end Coupling.Number
