import Coupling.Number.Shortest
import Mathlib.Algebra.Order.Field.Power
import Mathlib.Algebra.Order.Ring.Rat
import Mathlib.Data.Nat.Cast.Order.Field
import Mathlib.Tactic.FieldSimp
import Mathlib.Tactic.Linarith
import Mathlib.Tactic.Positivity
import Mathlib.Tactic.Ring

/-!
# The shortest decimal names its number

The decimal that is chosen for a number lies among the reals that round to it, and a real rounds to
one number only. So two numbers with the same decimal are the same.
-/

namespace Coupling.Number

/-! ### Numbers and what rounds to them -/

namespace Dyadic

/-- The magnitude is one of binary64, with as large a mantissa as its exponent allows. -/
structure IsBinary64 (d : Dyadic) : Prop where
  least : -1074 ≤ d.exponent
  small : d.mantissa < 2 ^ 53
  large : d.exponent ≠ -1074 → 2 ^ 52 ≤ d.mantissa

/-- A quarter of the distance to the next number. -/
def quarter (d : Dyadic) : ℚ := 2 ^ (d.exponent - 2)

/-- Quarters down to the reals that round to the number below. -/
def below (d : Dyadic) : ℕ := if d.mantissa = Nat.pow 2 52 ∧ d.exponent ≠ -1074 then 1 else 2

def low (d : Dyadic) : ℚ := (4 * d.mantissa - d.below) * d.quarter

def high (d : Dyadic) : ℚ := (4 * d.mantissa + 2) * d.quarter

/-- The reals that round to a magnitude: ties go to the even mantissa. -/
def RoundsTo (d : Dyadic) (x : ℚ) : Prop :=
  d.low ≤ x ∧ x ≤ d.high ∧ (d.mantissa % 2 = 1 → d.low < x ∧ x < d.high)

theorem quarter_pos (d : Dyadic) : 0 < d.quarter := by
  unfold quarter
  positivity

theorem roundsTo_zero {d : Dyadic} (h : d.mantissa = 0) : d.RoundsTo 0 := by
  have hquarter := d.quarter_pos
  have hbelow : (0 : ℚ) ≤ d.below := Nat.cast_nonneg _
  refine ⟨?_, ?_, fun hodd => ?_⟩
  · rw [low, h, Nat.cast_zero, mul_zero, zero_sub]
    exact mul_nonpos_of_nonpos_of_nonneg (neg_nonpos.mpr hbelow) hquarter.le
  · rw [high, h, Nat.cast_zero, mul_zero, zero_add]
    exact mul_nonneg (by norm_num) hquarter.le
  · omega

theorem below_eq_or (d : Dyadic) : d.below = 1 ∧ d.mantissa = 2 ^ 52 ∨ d.below = 2 := by
  unfold below
  split
  · rename_i h
    exact .inl ⟨rfl, h.1⟩
  · exact .inr rfl

theorem two_mul_quarter_le {d d' : Dyadic} (hlt : d.exponent < d'.exponent) :
    2 * d.quarter ≤ d'.quarter := by
  have hstep : 2 * d.quarter = 2 ^ (d.exponent - 2 + 1) := by
    rw [quarter, zpow_add_one₀ (by norm_num), mul_comm]
  rw [hstep, quarter]
  exact zpow_le_zpow_right₀ (by norm_num) (by omega)

/-- Between numbers with different exponents, the larger one starts where the smaller one ends. -/
theorem high_le_low_of_exponent_lt {d d' : Dyadic} (hd : d.IsBinary64) (hd' : d'.IsBinary64)
    (hlt : d.exponent < d'.exponent) :
    d.high ≤ d'.low ∧ (d.mantissa % 2 = 0 → d.high < d'.low) := by
  have hnormal : d'.exponent ≠ -1074 := by
    have := hd.least
    omega
  have hlarge := hd'.large hnormal
  have hbelow : 2 ^ 54 - 1 + d'.below ≤ 4 * d'.mantissa := by
    unfold below
    by_cases hmantissa : d'.mantissa = Nat.pow 2 52
    · rw [if_pos ⟨hmantissa, hnormal⟩, hmantissa]
      decide
    · rw [if_neg fun h => hmantissa h.1]
      have : d'.mantissa ≠ 2 ^ 52 := hmantissa
      omega
  have hbelow' : (2 ^ 54 - 1 : ℚ) ≤ 4 * d'.mantissa - d'.below := by
    have : ((2 ^ 54 - 1 + d'.below : ℕ) : ℚ) ≤ ((4 * d'.mantissa : ℕ) : ℚ) := by
      exact_mod_cast hbelow
    push_cast at this
    linarith
  have hlow : (2 ^ 54 - 1) * (2 * d.quarter) ≤ d'.low :=
    mul_le_mul hbelow' (two_mul_quarter_le hlt) (by linarith [d.quarter_pos]) (by linarith)
  have hhigh : ∀ k : ℕ, d.mantissa + k ≤ 2 ^ 53 →
      d.high ≤ (2 ^ 55 + 2 - 4 * k) * d.quarter := by
    intro k hk
    have : ((d.mantissa + k : ℕ) : ℚ) ≤ ((2 ^ 53 : ℕ) : ℚ) := by exact_mod_cast hk
    push_cast at this
    exact mul_le_mul_of_nonneg_right (by linarith) d.quarter_pos.le
  have hsmall := hd.small
  have hquarter := d.quarter_pos
  constructor
  · have := hhigh 1 (by omega)
    push_cast at this
    linarith
  · intro heven
    have := hhigh 2 (by omega)
    push_cast at this
    linarith

theorem high_le_low_of_mantissa_lt {d d' : Dyadic} (hd : d.IsBinary64)
    (hexponent : d.exponent = d'.exponent) (hlt : d.mantissa < d'.mantissa) :
    d.high ≤ d'.low ∧
      (d.mantissa % 2 = 0 → d'.mantissa % 2 = 0 → d.high < d'.low) := by
  have hbelow : d'.below = 2 := by
    unfold below
    refine if_neg fun ⟨hmantissa, hnormal⟩ => ?_
    have hlarge := hd.large (hexponent ▸ hnormal)
    have : d'.mantissa = 2 ^ 52 := hmantissa
    omega
  have hquarter : d'.quarter = d.quarter := by rw [quarter, quarter, hexponent]
  have hgap : ∀ k : ℕ, d.mantissa + k ≤ d'.mantissa →
      d.high + (4 * k - 4) * d.quarter ≤ d'.low := by
    intro k hk
    have : ((d.mantissa + k : ℕ) : ℚ) ≤ (d'.mantissa : ℚ) := by exact_mod_cast hk
    push_cast at this
    rw [high, low, hbelow, hquarter, ← add_mul]
    exact mul_le_mul_of_nonneg_right (by push_cast; linarith) d.quarter_pos.le
  have hpos := d.quarter_pos
  constructor
  · have := hgap 1 (by omega)
    push_cast at this
    linarith
  · intro heven heven'
    have := hgap 2 (by omega)
    push_cast at this
    linarith

theorem not_roundsTo_both {d d' : Dyadic} {x : ℚ} (hle : d.high ≤ d'.low)
    (hlt : d.mantissa % 2 = 0 → d'.mantissa % 2 = 0 → d.high < d'.low) (hx : d.RoundsTo x) :
    ¬ d'.RoundsTo x := by
  intro hx'
  obtain ⟨_, hhigh, hodd⟩ := hx
  obtain ⟨hlow, _, hodd'⟩ := hx'
  rcases Nat.mod_two_eq_zero_or_one d.mantissa with heven | heven
  · rcases Nat.mod_two_eq_zero_or_one d'.mantissa with heven' | heven'
    · linarith [hlt heven heven']
    · linarith [(hodd' heven').1]
  · linarith [(hodd heven).2]

/-- A real rounds to one magnitude only. -/
theorem RoundsTo.unique {d d' : Dyadic} {x : ℚ} (hd : d.IsBinary64) (hd' : d'.IsBinary64)
    (hx : d.RoundsTo x) (hx' : d'.RoundsTo x) :
    d.mantissa = d'.mantissa ∧ d.exponent = d'.exponent := by
  rcases lt_trichotomy d.exponent d'.exponent with hlt | heq | hgt
  · obtain ⟨hle, hstrict⟩ := high_le_low_of_exponent_lt hd hd' hlt
    exact absurd hx' (not_roundsTo_both hle (fun heven _ => hstrict heven) hx)
  · rcases lt_trichotomy d.mantissa d'.mantissa with hlt | hmantissa | hgt
    · obtain ⟨hle, hstrict⟩ := high_le_low_of_mantissa_lt hd heq hlt
      exact absurd hx' (not_roundsTo_both hle hstrict hx)
    · exact ⟨hmantissa, heq⟩
    · obtain ⟨hle, hstrict⟩ := high_le_low_of_mantissa_lt hd' heq.symm hgt
      exact absurd hx (not_roundsTo_both hle hstrict hx')
  · obtain ⟨hle, hstrict⟩ := high_le_low_of_exponent_lt hd' hd hgt
    exact absurd hx (not_roundsTo_both hle (fun heven _ => hstrict heven) hx')

end Dyadic

/-! ### Fractions with powers -/

/-- A power with any exponent, as a fraction of natural numbers. -/
theorem pow_div_pow (b : ℕ) (e : ℤ) :
    ((if 0 ≤ e then Nat.pow b e.natAbs else 1 : ℕ) : ℚ) /
      ((if 0 ≤ e then 1 else Nat.pow b e.natAbs : ℕ) : ℚ) = (b : ℚ) ^ e := by
  by_cases he : 0 ≤ e
  · obtain ⟨n, rfl⟩ := Int.eq_ofNat_of_zero_le he
    simp [Nat.pow_eq]
  · obtain ⟨n, hn⟩ := Int.eq_ofNat_of_zero_le (show 0 ≤ -e by omega)
    have : e = -(n : ℤ) := by omega
    subst this
    rw [if_neg he, if_neg he]
    simp [Nat.pow_eq]

theorem ite_pow_pos {b : ℕ} (hb : 0 < b) (e : ℤ) :
    0 < if 0 ≤ e then 1 else Nat.pow b e.natAbs := by
  split
  · exact Nat.one_pos
  · exact Nat.pow_pos hb

namespace Dyadic

variable {d : Dyadic}

theorem neighbourhood_den_pos (d : Dyadic) : 0 < d.neighbourhood.den :=
  ite_pow_pos (by decide) (d.exponent - 2)

theorem quarter_eq (d : Dyadic) :
    ((if 0 ≤ d.exponent - 2 then Nat.pow 2 (d.exponent - 2).natAbs else 1 : ℕ) : ℚ) /
      (d.neighbourhood.den : ℚ) = d.quarter := by
  have hden : d.neighbourhood.den =
      if 0 ≤ d.exponent - 2 then 1 else Nat.pow 2 (d.exponent - 2).natAbs := rfl
  rw [hden, pow_div_pow, quarter, Nat.cast_ofNat]

theorem neighbourhood_low (hd : 0 < d.mantissa) :
    (d.neighbourhood.low : ℚ) / d.neighbourhood.den = d.low := by
  have hle : d.below ≤ 4 * d.mantissa := by
    rcases d.below_eq_or with ⟨h, _⟩ | h <;> omega
  have hlow : d.neighbourhood.low = (4 * d.mantissa - d.below) *
      (if 0 ≤ d.exponent - 2 then Nat.pow 2 (d.exponent - 2).natAbs else 1) := rfl
  rw [hlow, Nat.cast_mul, mul_div_assoc, quarter_eq, low, Nat.cast_sub hle]
  push_cast
  rfl

theorem neighbourhood_high (d : Dyadic) :
    (d.neighbourhood.high : ℚ) / d.neighbourhood.den = d.high := by
  have hhigh : d.neighbourhood.high = (4 * d.mantissa + 2) *
      (if 0 ≤ d.exponent - 2 then Nat.pow 2 (d.exponent - 2).natAbs else 1) := rfl
  rw [hhigh, Nat.cast_mul, mul_div_assoc, quarter_eq, high]
  push_cast
  rfl

theorem neighbourhood_value (d : Dyadic) :
    (d.neighbourhood.value : ℚ) / d.neighbourhood.den = 4 * d.mantissa * d.quarter := by
  have hvalue : d.neighbourhood.value = 4 * d.mantissa *
      (if 0 ≤ d.exponent - 2 then Nat.pow 2 (d.exponent - 2).natAbs else 1) := rfl
  rw [hvalue, Nat.cast_mul, mul_div_assoc, quarter_eq]
  push_cast
  rfl

private theorem mul_le_mul_iff_div {a b c e : ℕ} (hb : 0 < b) (he : 0 < e) :
    a * e ≤ c * b ↔ (a : ℚ) / b ≤ (c : ℚ) / e := by
  rw [div_le_div_iff₀ (by exact_mod_cast hb) (by exact_mod_cast he)]
  exact_mod_cast Iff.rfl

private theorem mul_lt_mul_iff_div {a b c e : ℕ} (hb : 0 < b) (he : 0 < e) :
    a * e < c * b ↔ (a : ℚ) / b < (c : ℚ) / e := by
  rw [div_lt_div_iff₀ (by exact_mod_cast hb) (by exact_mod_cast he)]
  exact_mod_cast Iff.rfl

/-- The test of a candidate is whether it rounds to the number. -/
theorem contains_iff (hd : 0 < d.mantissa) {num scale : ℕ} (hscale : 0 < scale) :
    d.neighbourhood.contains num scale = true ↔ d.RoundsTo ((num : ℚ) / scale) := by
  have hden := d.neighbourhood_den_pos
  have hclosed : d.neighbourhood.closed = (d.mantissa % 2 == 0) := rfl
  rw [RoundsTo, ← neighbourhood_low hd, ← neighbourhood_high, Neighbourhood.contains, hclosed]
  rcases Nat.mod_two_eq_zero_or_one d.mantissa with heven | hodd
  · rw [heven]
    simp only [beq_self_eq_true, if_true, Bool.and_eq_true, decide_eq_true_eq,
      mul_le_mul_iff_div hden hscale, mul_le_mul_iff_div hscale hden]
    simp
  · rw [hodd]
    simp only [Nat.one_ne_zero, beq_iff_eq, if_false, Bool.and_eq_true, decide_eq_true_eq,
      mul_lt_mul_iff_div hden hscale, mul_lt_mul_iff_div hscale hden]
    constructor
    · intro ⟨hlow, hhigh⟩
      exact ⟨hlow.le, hhigh.le, fun _ => ⟨hlow, hhigh⟩⟩
    · intro ⟨_, _, hstrict⟩
      exact hstrict trivial

end Dyadic

/-! ### The choice of a decimal -/

theorem lt_ten_pow_length (n : ℕ) : n < 10 ^ (Nat.toDigits 10 n).length :=
  (Nat.length_toDigits_le_iff (by decide) Nat.length_toDigits_pos).mp le_rfl

theorem ten_pow_le_of_pos {n : ℕ} (hn : 0 < n) : 10 ^ ((Nat.toDigits 10 n).length - 1) ≤ n := by
  by_contra hlt
  by_cases hone : (Nat.toDigits 10 n).length - 1 = 0
  · rw [hone] at hlt
    omega
  · have := (Nat.length_toDigits_le_iff (by decide) (Nat.pos_of_ne_zero hone)).mpr
      (Nat.lt_of_not_le hlt)
    omega

/-- The power of ten does not exceed the fraction. -/
theorem decimalPower_le {num den : ℕ} (hnum : 0 < num) (hden : 0 < den) :
    (10 : ℚ) ^ decimalPower num den ≤ (num : ℚ) / den := by
  have hden' : (0 : ℚ) < den := by exact_mod_cast hden
  rw [decimalPower]
  generalize hguess : ((Nat.toDigits 10 num).length : ℤ) - (Nat.toDigits 10 den).length = guess
  by_cases hfits : (if 0 ≤ guess then decide (den * Nat.pow 10 guess.natAbs ≤ num)
      else decide (den ≤ num * Nat.pow 10 guess.natAbs)) = true
  · rw [if_pos hfits, le_div_iff₀ hden']
    by_cases hsign : 0 ≤ guess
    · rw [if_pos hsign, decide_eq_true_eq] at hfits
      obtain ⟨n, rfl⟩ := Int.eq_ofNat_of_zero_le hsign
      rw [zpow_natCast, mul_comm]
      exact_mod_cast hfits
    · rw [if_neg hsign, decide_eq_true_eq] at hfits
      obtain ⟨n, hn⟩ := Int.eq_ofNat_of_zero_le (show 0 ≤ -guess by omega)
      have hneg : guess = -(n : ℤ) := by omega
      subst hneg
      rw [zpow_neg, zpow_natCast, inv_mul_le_iff₀ (by positivity), mul_comm]
      simp only [Int.natAbs_neg, Int.natAbs_natCast, Nat.pow_eq] at hfits
      exact_mod_cast hfits
  · rw [if_neg hfits, le_div_iff₀ hden']
    have hlow : ((10 : ℚ) ^ ((Nat.toDigits 10 num).length - 1)) ≤ num := by
      exact_mod_cast ten_pow_le_of_pos hnum
    have hhigh : (den : ℚ) ≤ 10 ^ (Nat.toDigits 10 den).length := by
      exact_mod_cast (lt_ten_pow_length den).le
    have hlength : 0 < (Nat.toDigits 10 num).length := Nat.length_toDigits_pos
    calc (10 : ℚ) ^ (guess - 1) * den
        ≤ 10 ^ (guess - 1) * 10 ^ (Nat.toDigits 10 den).length := by gcongr
      _ = 10 ^ ((Nat.toDigits 10 num).length - 1) := by
        rw [← zpow_natCast, ← zpow_natCast, ← zpow_add₀ (by norm_num)]
        congr 1
        omega
      _ ≤ num := hlow

namespace Dyadic

variable {d : Dyadic}

/-- Candidates round to the number. -/
theorem roundsTo_of_candidate? (hd : 0 < d.mantissa) {power : ℤ} {count : ℕ} {n : ℕ} {e : ℤ}
    (h : d.neighbourhood.candidate? power count = some (n, e)) :
    d.RoundsTo ((n : ℚ) * 10 ^ e) := by
  have hfit : ∀ k : ℕ, d.neighbourhood.contains
      (k * if 0 ≤ power + 1 - count then Nat.pow 10 (power + 1 - count).natAbs else 1)
      (if 0 ≤ power + 1 - count then 1 else Nat.pow 10 (power + 1 - count).natAbs) = true →
      d.RoundsTo ((k : ℚ) * 10 ^ (power + 1 - count)) := by
    intro k hk
    rw [contains_iff hd (ite_pow_pos (by decide) _)] at hk
    rwa [Nat.cast_mul, mul_div_assoc, pow_div_pow] at hk
  simp only [Neighbourhood.candidate?] at h
  generalize (if 0 ≤ power + 1 - count then Nat.pow 10 (power + 1 - count).natAbs else 1) = shrink
    at h hfit
  generalize (if 0 ≤ power + 1 - count then 1 else Nat.pow 10 (power + 1 - count).natAbs) = grow
    at h hfit
  split at h
  · rename_i hdown hup
    rw [Option.some.injEq, Prod.mk.injEq] at h
    obtain ⟨hn, rfl⟩ := h
    rw [← hn]
    split
    · exact hfit _ hdown
    · exact hfit _ hup
  · rename_i hdown _
    rw [Option.some.injEq, Prod.mk.injEq] at h
    obtain ⟨rfl, rfl⟩ := h
    exact hfit _ hdown
  · rename_i _ hup
    rw [Option.some.injEq, Prod.mk.injEq] at h
    obtain ⟨rfl, rfl⟩ := h
    exact hfit _ hup
  · simp at h

/-- With steps of less than four quarters, the number or its successor is met. -/
theorem exists_roundsTo {step : ℚ} (hd : d.IsBinary64)
    (hsmall : step * 10 ^ 16 ≤ 4 * d.mantissa * d.quarter) {k : ℕ}
    (hdown : k * step ≤ 4 * d.mantissa * d.quarter)
    (hup : 4 * d.mantissa * d.quarter < (k + 1) * step) :
    d.RoundsTo (k * step) ∨ d.RoundsTo ((k + 1) * step) := by
  have hquarter := d.quarter_pos
  have hbelow : (0 : ℚ) < d.below := by
    rcases d.below_eq_or with ⟨h, _⟩ | h <;> rw [h] <;> norm_num
  -- The sum of the distances to the two ends exceeds a step.
  have hroom : step < (d.below + 2) * d.quarter := by
    have hbound : 4 * (d.mantissa : ℚ) < (d.below + 2) * 10 ^ 16 := by
      have hlt : 4 * d.mantissa < (d.below + 2) * 10 ^ 16 := by
        have := hd.small
        rcases d.below_eq_or with ⟨h, hpower⟩ | h <;> omega
      exact_mod_cast hlt
    have := mul_lt_mul_of_pos_right hbound hquarter
    linarith
  have hlow : d.low = 4 * d.mantissa * d.quarter - d.below * d.quarter := by
    rw [low]
    ring
  have hhigh : d.high = 4 * d.mantissa * d.quarter + 2 * d.quarter := by
    rw [high]
    ring
  have hbelowq : 0 < d.below * d.quarter := mul_pos hbelow hquarter
  by_cases hnear : 4 * d.mantissa * d.quarter - k * step < d.below * d.quarter
  · left
    have hl : d.low < k * step := by linarith
    have hh : k * step < d.high := by linarith
    exact ⟨hl.le, hh.le, fun _ => ⟨hl, hh⟩⟩
  · right
    have hl : d.low < (k + 1) * step := by linarith
    have hh : (k + 1) * step < d.high := by linarith
    exact ⟨hl.le, hh.le, fun _ => ⟨hl, hh⟩⟩

/-- Seventeen digits suffice. -/
theorem candidate?_isSome (hd : d.IsBinary64) (hpos : 0 < d.mantissa) {power : ℤ}
    (hpower : (10 : ℚ) ^ power ≤ 4 * d.mantissa * d.quarter) :
    (d.neighbourhood.candidate? power 17).isSome = true := by
  have hscale := pow_div_pow 10 (power + 1 - (17 : ℕ))
  have hgrow := ite_pow_pos (show 0 < 10 by decide) (power + 1 - (17 : ℕ))
  simp only [Neighbourhood.candidate?]
  generalize (if 0 ≤ power + 1 - (17 : ℕ) then Nat.pow 10 (power + 1 - (17 : ℕ)).natAbs else 1) =
    shrink at hscale ⊢
  generalize (if 0 ≤ power + 1 - (17 : ℕ) then 1 else Nat.pow 10 (power + 1 - (17 : ℕ)).natAbs) =
    grow at hscale hgrow ⊢
  have hgrow' : (0 : ℚ) < grow := by exact_mod_cast hgrow
  have hden' : (0 : ℚ) < d.neighbourhood.den := by exact_mod_cast d.neighbourhood_den_pos
  have hshrink' : (0 : ℚ) < shrink := by
    have hpositive : (0 : ℚ) < shrink / grow := by
      rw [hscale]
      positivity
    exact (div_pos_iff_of_pos_right hgrow').mp hpositive
  have hdiv := Nat.div_add_mod (d.neighbourhood.value * grow) (d.neighbourhood.den * shrink)
  have hmod := Nat.mod_lt (d.neighbourhood.value * grow)
    (show 0 < d.neighbourhood.den * shrink by exact_mod_cast mul_pos hden' hshrink')
  generalize d.neighbourhood.value * grow / (d.neighbourhood.den * shrink) = down at hdiv ⊢
  generalize d.neighbourhood.value * grow % (d.neighbourhood.den * shrink) = rest at hdiv hmod ⊢
  have hvalue : 4 * d.mantissa * d.quarter = (down + rest / (d.neighbourhood.den * shrink)) *
      (shrink / grow : ℚ) := by
    have hcast : (d.neighbourhood.den * shrink * down + rest : ℚ) =
        d.neighbourhood.value * grow := by exact_mod_cast hdiv
    rw [← neighbourhood_value]
    field_simp
    linarith
  have hrest : (rest : ℚ) / (d.neighbourhood.den * shrink) < 1 := by
    rw [div_lt_one (mul_pos hden' hshrink')]
    exact_mod_cast hmod
  have hstep : (0 : ℚ) < shrink / grow := div_pos hshrink' hgrow'
  have hsmall : (shrink / grow : ℚ) * 10 ^ 16 ≤ 4 * d.mantissa * d.quarter := by
    refine le_trans (le_of_eq ?_) hpower
    rw [hscale, ← zpow_natCast, Nat.cast_ofNat, ← zpow_add₀ (by norm_num)]
    congr 1
    push_cast
    ring
  have hrest' : (0 : ℚ) ≤ rest / (d.neighbourhood.den * shrink) := by positivity
  have hfound := exists_roundsTo hd (k := down) hsmall
    (by rw [hvalue]; exact mul_le_mul_of_nonneg_right (by linarith) hstep.le)
    (by rw [hvalue]; exact mul_lt_mul_of_pos_right (by linarith) hstep)
  have hfit : ∀ k : ℕ, d.RoundsTo (k * (shrink / grow)) →
      d.neighbourhood.contains (k * shrink) grow = true := by
    intro k hk
    rw [contains_iff hpos hgrow, Nat.cast_mul, mul_div_assoc]
    exact hk
  rcases hfound with hfound | hfound
  · rw [hfit down hfound]
    split <;> simp_all
  · rw [hfit (down + 1) (by exact_mod_cast hfound)]
    split <;> simp_all

theorem stripZeros_eq {fuel n n' : ℕ} {e e' : ℤ} (h : stripZeros fuel (n, e) = (n', e')) :
    (n' : ℚ) * 10 ^ e' = n * 10 ^ e := by
  induction fuel generalizing n e with
  | zero =>
    rw [stripZeros, Prod.mk.injEq] at h
    rw [h.1, h.2]
  | succ fuel ih =>
    rw [stripZeros] at h
    split at h
    · rename_i hzero
      rw [ih h, zpow_add_one₀ (by norm_num)]
      have hn : n = n / 10 * 10 := by omega
      conv_rhs => rw [hn]
      push_cast
      ring
    · rw [Prod.mk.injEq] at h
      rw [h.1, h.2]

/-- The shortest decimal rounds to the number. -/
theorem roundsTo_shortest (hd : d.IsBinary64) (hpos : 0 < d.mantissa) {n : ℕ} {e : ℤ}
    (h : d.shortest = (n, e)) : d.RoundsTo ((n : ℚ) * 10 ^ e) := by
  have hvalue : 0 < d.neighbourhood.value := by
    have hquarter := d.neighbourhood_value
    have hpositive : (0 : ℚ) < 4 * d.mantissa * d.quarter :=
      mul_pos (by exact_mod_cast Nat.mul_pos (by decide) hpos) d.quarter_pos
    have hden : (0 : ℚ) < d.neighbourhood.den := by exact_mod_cast d.neighbourhood_den_pos
    rw [← hquarter, div_pos_iff_of_pos_right hden] at hpositive
    exact_mod_cast hpositive
  have hpower := decimalPower_le hvalue d.neighbourhood_den_pos
  rw [neighbourhood_value] at hpower
  simp only [shortest] at h
  split at h
  · rename_i x hfound
    obtain ⟨count, _, hcandidate⟩ := List.exists_of_findSome?_eq_some hfound
    rw [stripZeros_eq h]
    exact roundsTo_of_candidate? hpos hcandidate
  · rename_i hnone
    rw [List.findSome?_eq_none_iff] at hnone
    have hsome := candidate?_isSome hd hpos hpower
    rw [hnone 17 (by decide)] at hsome
    simp at hsome

end Dyadic

/-! ### Bits -/

namespace Binary64

theorem isBinary64_of_ofBits {bits : ℕ} {d : Dyadic} (h : ofBits bits = .finite d) :
    d.IsBinary64 := by
  simp only [ofBits] at h
  split at h
  · split at h <;> simp at h
  · split at h
    · rw [Binary64.finite.injEq] at h
      have hfraction : bits % Nat.pow 2 52 < 2 ^ 52 := Nat.mod_lt _ (by decide)
      subst h
      exact ⟨le_rfl, by dsimp only; omega, fun hne => absurd rfl hne⟩
    · rename_i _ hbiased
      rw [Binary64.finite.injEq] at h
      have hfraction : bits % Nat.pow 2 52 < 2 ^ 52 := Nat.mod_lt _ (by decide)
      have hpow : Nat.pow 2 52 = 2 ^ 52 := rfl
      subst h
      refine ⟨?_, ?_, fun _ => ?_⟩ <;> dsimp only <;> omega

/-- The bits of a finite number: its sign, its biased exponent and its fraction. -/
theorem bits_of_ofBits {bits : ℕ} {d : Dyadic} (hbits : bits < 2 ^ 64)
    (h : ofBits bits = .finite d) :
    bits = (if d.negative then 2 ^ 63 else 0) +
      if d.mantissa < 2 ^ 52 then d.mantissa
      else (d.exponent + 1075).toNat * 2 ^ 52 + (d.mantissa - 2 ^ 52) := by
  have hpow52 : Nat.pow 2 52 = 2 ^ 52 := rfl
  have hpow11 : Nat.pow 2 11 = 2 ^ 11 := rfl
  have hpow63 : Nat.pow 2 63 = 2 ^ 63 := rfl
  simp only [ofBits, hpow52, hpow11, hpow63] at h
  have hsign : (if decide (2 ^ 63 ≤ bits) = true then 2 ^ 63 else 0) +
      (bits / 2 ^ 52 % 2 ^ 11 * 2 ^ 52 + bits % 2 ^ 52) = bits := by
    by_cases hle : 2 ^ 63 ≤ bits
    · rw [if_pos (decide_eq_true hle)]
      omega
    · rw [if_neg (by simpa using hle)]
      omega
  split at h
  · split at h <;> simp at h
  · split at h
    · rename_i _ hzero
      rw [Binary64.finite.injEq] at h
      subst h
      dsimp only
      rw [if_pos (Nat.mod_lt _ (by decide))]
      rw [hzero, Nat.zero_mul, Nat.zero_add] at hsign
      exact hsign.symm
    · rw [Binary64.finite.injEq] at h
      subst h
      dsimp only
      have hlarge : ¬ 2 ^ 52 + bits % 2 ^ 52 < 2 ^ 52 := by omega
      rw [if_neg hlarge, Nat.add_sub_cancel_left]
      have hexponent : ((bits / 2 ^ 52 % 2 ^ 11 : ℕ) - 1075 + 1075 : ℤ).toNat =
          bits / 2 ^ 52 % 2 ^ 11 := by omega
      rw [hexponent]
      exact hsign.symm

theorem ofFloat_injective {x y : Float} {d : Dyadic} (hx : ofFloat x = .finite d)
    (hy : ofFloat y = .finite d) : x = y := by
  have hbits : x.toBits.toNat = y.toBits.toNat := by
    rw [bits_of_ofBits x.toBits.toNat_lt hx, bits_of_ofBits y.toBits.toNat_lt hy]
  obtain ⟨⟨bits, _⟩⟩ := x
  obtain ⟨⟨bits', _⟩⟩ := y
  have : bits = bits' := UInt64.toNat_inj.mp hbits
  subst this
  rfl

end Binary64

end Coupling.Number
