import Coupling.Json.Printer
import Coupling.Number.Decimal
import Coupling.Proofs.Number.Shortest
import Coupling.Proofs.Text.Separated

/-!
# Written numbers

Reading the decimal notation of a number gives its value. Since the value of a float is written so
that it rounds to no other float, floats with one notation are the same float.
-/

namespace Coupling.Number

open Text (isDigit_of_mem_toDigits)

def Decimal.value (d : Decimal) : ℚ := d.digits * 10 ^ d.exponent

theorem ofDigits_append (cs ds : List Char) :
    ofDigits (cs ++ ds) = Nat.ofDigitChars 10 ds (ofDigits cs) :=
  Nat.ofDigitChars_append 0

theorem ofDigits_toDigits (n : ℕ) : ofDigits (Nat.toDigits 10 n) = n :=
  Nat.ofDigitChars_ten_toDigits

theorem ofDigits_zeros (n : ℕ) : ofDigits (List.replicate n '0') = 0 := by
  have : ofDigits (List.replicate n '0') = 10 ^ n * 0 := Nat.ofDigitChars_replicate_zero
  rw [this, Nat.mul_zero]

/-! ### Reading -/

theorem span_digits (rest : List Char) {ds : List Char} (hds : ∀ c ∈ ds, c.isDigit = true)
    (hrest : ∀ c ∈ rest.head?, c.isDigit = false) :
    (ds ++ rest).takeWhile Char.isDigit = ds ∧ (ds ++ rest).dropWhile Char.isDigit = rest := by
  rw [List.takeWhile_append_of_pos hds, List.dropWhile_append_of_pos hds]
  cases rest with
  | nil => simp
  | cons c rest => simp [hrest c rfl]

theorem exponent?_sign (power : ℤ) :
    exponent? ((if power < 0 then ['-'] else []) ++ Nat.toDigits 10 power.natAbs) =
      some power := by
  have hdigits : ∀ c ∈ Nat.toDigits 10 power.natAbs, c.isDigit = true :=
    fun _ => isDigit_of_mem_toDigits
  have hall : (Nat.toDigits 10 power.natAbs).all Char.isDigit = true := List.all_eq_true.mpr hdigits
  have hsome : (!(Nat.toDigits 10 power.natAbs).isEmpty &&
      (Nat.toDigits 10 power.natAbs).all Char.isDigit) = true := by
    rw [hall, Bool.and_true, Bool.not_eq_true', List.isEmpty_eq_false_iff]
    exact Nat.toDigits_ne_nil
  by_cases hneg : power < 0
  · rw [if_pos hneg]
    simp only [exponent?, List.cons_append, List.nil_append]
    rw [if_pos hsome, ofDigits_toDigits]
    simp only [if_true]
    congr 1
    omega
  · rw [if_neg hneg, List.nil_append]
    cases hds : Nat.toDigits 10 power.natAbs with
    | nil => exact absurd hds Nat.toDigits_ne_nil
    | cons d ds =>
      have hd : d.isDigit = true := hdigits d (hds ▸ List.mem_cons_self)
      -- A sign is no digit.
      have hminus : d ≠ '-' := by
        rintro rfl
        exact absurd hd (by decide)
      have hplus : d ≠ '+' := by
        rintro rfl
        exact absurd hd (by decide)
      rw [hds] at hsome
      rw [exponent?, if_pos hsome, ← hds, ofDigits_toDigits]
      · simp only [Bool.false_eq_true, if_false]
        congr 1
        omega
      · intro tail htail
        exact hminus (List.cons.inj htail).1
      · intro tail htail
        exact hplus (List.cons.inj htail).1

namespace Decimal

theorem parse?_pointed {whole fraction : List Char} (hwhole : ∀ c ∈ whole, c.isDigit = true)
    (hfraction : ∀ c ∈ fraction, c.isDigit = true) (hne : whole ≠ []) :
    parse? (whole ++ '.' :: fraction) =
      some ⟨ofDigits (whole ++ fraction), -fraction.length⟩ := by
  obtain ⟨htake, hdrop⟩ := span_digits ('.' :: fraction) hwhole (by simp)
  obtain ⟨htake', hdrop'⟩ := span_digits [] hfraction (by simp)
  rw [List.append_nil] at htake' hdrop'
  simp [parse?, htake, hdrop, htake', hdrop', hne]

/-- A digit, possibly a point with more digits, and an exponent. -/
theorem parse?_scientific {d : Char} {rest tail : List Char} (hd : d.isDigit = true)
    (hrest : ∀ c ∈ rest, c.isDigit = true) {power : ℤ} (htail : exponent? tail = some power) :
    parse? ((if rest = [] then [d] else d :: '.' :: rest) ++ 'e' :: tail) =
      some ⟨ofDigits (d :: rest), power - rest.length⟩ := by
  have hone : ∀ c ∈ [d], c.isDigit = true := by simpa using hd
  by_cases hnil : rest = []
  · obtain ⟨htake, hdrop⟩ := span_digits ('e' :: tail) hone (by simp)
    rw [if_pos hnil, hnil]
    simp only [parse?, htake, hdrop]
    simp [htail]
  · obtain ⟨htake, hdrop⟩ := span_digits ('.' :: rest ++ 'e' :: tail) hone (by simp)
    obtain ⟨htake', hdrop'⟩ := span_digits ('e' :: tail) hrest (by simp)
    rw [if_neg hnil]
    simp only [List.cons_append, List.nil_append] at htake hdrop ⊢
    simp [parse?, htake, hdrop, htake', hdrop', htail]

theorem parse?_minus (cs : List Char) : parse? ('-' :: cs) = none := by
  simp [parse?]

end Decimal

end Coupling.Number

namespace Coupling.Json

open Number
open Text (isDigit_of_mem_toDigits)

/-! ### Writing -/

/-- A text that is read as a decimal of some value. -/
def Denotes (cs : List Char) (x : ℚ) : Prop := ∃ d, Decimal.parse? cs = some d ∧ d.value = x

theorem Denotes.unique {cs : List Char} {x y : ℚ} (hx : Denotes cs x) (hy : Denotes cs y) :
    x = y := by
  obtain ⟨d, hd, rfl⟩ := hx
  obtain ⟨d', hd', rfl⟩ := hy
  rw [hd, Option.some.injEq] at hd'
  rw [hd']

theorem not_denotes_minus (cs : List Char) (x : ℚ) : ¬ Denotes ('-' :: cs) x := by
  rintro ⟨d, hd, _⟩
  rw [Decimal.parse?_minus] at hd
  simp at hd

section Notations

variable (n : ℕ)

private theorem isDigit_of_mem_zeros {k : ℕ} {c : Char} (hc : c ∈ List.replicate k '0') :
    c.isDigit = true := by
  rw [List.eq_of_mem_replicate hc]
  decide

theorem denotes_zeros_after (k : ℕ) :
    Denotes (Nat.toDigits 10 n ++ List.replicate k '0' ++ ['.', '0']) (n * 10 ^ (k : ℤ)) := by
  have hwhole : ∀ c ∈ Nat.toDigits 10 n ++ List.replicate k '0', c.isDigit = true := by
    intro c hc
    rcases List.mem_append.mp hc with hc | hc
    · exact isDigit_of_mem_toDigits hc
    · exact isDigit_of_mem_zeros hc
  refine ⟨_, Decimal.parse?_pointed hwhole (by simp) (by simp [Nat.toDigits_ne_nil]), ?_⟩
  have hread : ofDigits (Nat.toDigits 10 n ++ List.replicate k '0' ++ ['0']) =
      10 * (10 ^ k * n) := by
    rw [ofDigits_append, ofDigits_append, ofDigits_toDigits, Nat.ofDigitChars_replicate_zero]
    rfl
  rw [Decimal.value, hread]
  simp only [List.length_singleton, Nat.cast_mul, Nat.cast_pow, Nat.cast_ofNat, Nat.cast_one,
    zpow_natCast]
  field_simp

theorem denotes_point_inside {k : ℕ} (hpos : 0 < k) :
    Denotes ((Nat.toDigits 10 n).take k ++ '.' :: (Nat.toDigits 10 n).drop k)
      (n * 10 ^ (-((Nat.toDigits 10 n).length - k : ℕ) : ℤ)) := by
  have hne : (Nat.toDigits 10 n).take k ≠ [] := by
    rw [Ne, List.take_eq_nil_iff]
    exact not_or.mpr ⟨hpos.ne', Nat.toDigits_ne_nil⟩
  refine ⟨_, Decimal.parse?_pointed (fun c hc => isDigit_of_mem_toDigits (List.mem_of_mem_take hc))
    (fun c hc => isDigit_of_mem_toDigits (List.mem_of_mem_drop hc)) hne, ?_⟩
  rw [Decimal.value, List.take_append_drop, ofDigits_toDigits, List.length_drop]

theorem denotes_zeros_before (k : ℕ) :
    Denotes ('0' :: '.' :: List.replicate k '0' ++ Nat.toDigits 10 n)
      (n * 10 ^ (-(k + (Nat.toDigits 10 n).length : ℕ) : ℤ)) := by
  have hfraction : ∀ c ∈ List.replicate k '0' ++ Nat.toDigits 10 n, c.isDigit = true := by
    intro c hc
    rcases List.mem_append.mp hc with hc | hc
    · exact isDigit_of_mem_zeros hc
    · exact isDigit_of_mem_toDigits hc
  have hwhole : ∀ c ∈ ['0'], c.isDigit = true := List.all_eq_true.mp rfl
  have hparse := Decimal.parse?_pointed hwhole hfraction (by simp)
  refine ⟨_, hparse, ?_⟩
  have hread : ofDigits (['0'] ++ (List.replicate k '0' ++ Nat.toDigits 10 n)) = n := by
    rw [← List.append_assoc, ofDigits_append]
    have hzero : ofDigits (['0'] ++ List.replicate k '0') = 0 := ofDigits_zeros (k + 1)
    rw [hzero]
    exact ofDigits_toDigits n
  rw [Decimal.value, hread, List.length_append, List.length_replicate]

theorem denotes_scientific {d : Char} {rest : List Char} (hds : Nat.toDigits 10 n = d :: rest)
    (power : ℤ) :
    Denotes ((if rest = [] then [d] else d :: '.' :: rest) ++
        'e' :: ((if power < 0 then ['-'] else []) ++ Nat.toDigits 10 power.natAbs))
      (n * 10 ^ (power - rest.length)) := by
  have hdigits : ∀ c ∈ d :: rest, c.isDigit = true := fun c hc =>
    isDigit_of_mem_toDigits (hds ▸ hc)
  refine ⟨_, Decimal.parse?_scientific (hdigits d List.mem_cons_self)
    (fun c hc => hdigits c (List.mem_cons_of_mem d hc)) (exponent?_sign power), ?_⟩
  rw [Decimal.value, ← hds, ofDigits_toDigits]

end Notations

theorem FloatStyle.denotes_write (style : FloatStyle) (n : ℕ) (e : ℤ) :
    Denotes (style.write n e) (n * 10 ^ e) := by
  simp only [FloatStyle.write]
  generalize hpoint : ((Nat.toDigits 10 n).length : ℤ) + e = point
  split
  · split
    · have hexponent : ((e.natAbs : ℕ) : ℤ) = e := by omega
      have := denotes_zeros_after n e.natAbs
      rwa [hexponent] at this
    · split
      · have hexponent : (-((Nat.toDigits 10 n).length - point.natAbs : ℕ) : ℤ) = e := by omega
        have := denotes_point_inside n (show 0 < point.natAbs by omega)
        rwa [hexponent] at this
      · have hexponent : (-(point.natAbs + (Nat.toDigits 10 n).length : ℕ) : ℤ) = e := by omega
        have := denotes_zeros_before n point.natAbs
        rwa [hexponent] at this
  · cases hds : Nat.toDigits 10 n with
    | nil => exact absurd hds Nat.toDigits_ne_nil
    | cons d rest =>
      have hexponent : point - 1 - rest.length = e := by
        rw [hds, List.length_cons] at hpoint
        omega
      have := denotes_scientific n hds (point - 1)
      rw [hexponent] at this
      cases rest with
      | nil => exact this
      | cons d' rest => simpa using this

/-! ### Floats -/

/-- The notation of a magnitude. -/
def renderMagnitude (d : Number.Dyadic) : List Char :=
  if d.mantissa = 0 then ['0', '.', '0'] else floatStyle.write d.shortest.1 d.shortest.2

theorem renderFloat_eq {x : Float} {d : Number.Dyadic} (hx : Binary64.ofFloat x = .finite d) :
    renderFloat x = if d.negative then '-' :: renderMagnitude d else renderMagnitude d := by
  rw [renderFloat, hx]
  rfl

/-- A magnitude is written as a decimal that rounds to it. -/
theorem denotes_renderMagnitude {d : Number.Dyadic} (hd : d.IsBinary64) :
    ∃ q, Denotes (renderMagnitude d) q ∧ d.RoundsTo q := by
  rw [renderMagnitude]
  split
  · rename_i hzero
    exact ⟨0, ⟨⟨0, -1⟩, by decide, by simp [Decimal.value]⟩, Dyadic.roundsTo_zero hzero⟩
  · rename_i hpos
    exact ⟨_, floatStyle.denotes_write _ _,
      Dyadic.roundsTo_shortest hd (Nat.pos_of_ne_zero hpos) rfl⟩

theorem renderMagnitude_injective {d d' : Number.Dyadic} (hd : d.IsBinary64)
    (hd' : d'.IsBinary64) (h : renderMagnitude d = renderMagnitude d') :
    d.mantissa = d'.mantissa ∧ d.exponent = d'.exponent := by
  obtain ⟨q, hq, hround⟩ := denotes_renderMagnitude hd
  obtain ⟨q', hq', hround'⟩ := denotes_renderMagnitude hd'
  have hqq : q = q' := hq.unique (h ▸ hq')
  exact hround.unique hd hd' (hqq ▸ hround')

theorem renderMagnitude_ne_minus {d : Number.Dyadic} (hd : d.IsBinary64) (cs : List Char) :
    renderMagnitude d ≠ '-' :: cs := by
  intro h
  obtain ⟨q, hq, _⟩ := denotes_renderMagnitude hd
  exact not_denotes_minus cs q (h ▸ hq)

theorem renderFloat_injective {x y : Float} {d d' : Number.Dyadic}
    (hx : Binary64.ofFloat x = .finite d) (hy : Binary64.ofFloat y = .finite d')
    (h : renderFloat x = renderFloat y) : x = y := by
  have hd := Binary64.isBinary64_of_ofBits hx
  have hd' := Binary64.isBinary64_of_ofBits hy
  rw [renderFloat_eq hx, renderFloat_eq hy] at h
  have hsame : d.negative = d'.negative ∧ renderMagnitude d = renderMagnitude d' := by
    cases hneg : d.negative <;> cases hneg' : d'.negative <;>
      simp only [hneg, hneg', Bool.false_eq_true, if_false, if_true] at h
    · exact ⟨rfl, h⟩
    · exact absurd h (renderMagnitude_ne_minus hd _)
    · exact absurd h.symm (renderMagnitude_ne_minus hd' _)
    · exact ⟨rfl, (List.cons.inj h).2⟩
  obtain ⟨hmantissa, hexponent⟩ := renderMagnitude_injective hd hd' hsame.2
  have hdyadic : d = d' := by
    cases d
    cases d'
    simp only at hmantissa hexponent hsame
    rw [hsame.1, hmantissa, hexponent]
  exact Binary64.ofFloat_injective hx (hdyadic ▸ hy)

end Coupling.Json
