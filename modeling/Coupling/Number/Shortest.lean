import Coupling.Number.Binary64

/-!
# The fewest digits that read back

Among the decimals that round to a given binary64 number, those with the fewest digits are chosen,
and of these the nearest.
-/

namespace Coupling.Number

/-- Bounds of the reals that round to a number, as multiples of one unit: the value, its lower and
its upper bound, and whether the bounds themselves round to it. -/
structure Neighbourhood where
  value : Nat
  low : Nat
  high : Nat
  closed : Bool
  /-- The unit is `1 / den`. -/
  den : Nat

def Dyadic.neighbourhood (d : Dyadic) : Neighbourhood :=
  let m := d.mantissa
  let e := d.exponent - 2
  let up := if 0 ≤ e then Nat.pow 2 e.natAbs else 1
  let den := if 0 ≤ e then 1 else Nat.pow 2 e.natAbs
  -- Below a power of two the numbers lie twice as close.
  let below := if m = Nat.pow 2 52 ∧ d.exponent ≠ -1074 then 1 else 2
  ⟨4 * m * up, (4 * m - below) * up, (4 * m + 2) * up, m % 2 == 0, den⟩

def Neighbourhood.contains (n : Neighbourhood) (num scale : Nat) : Bool :=
  let x := num * n.den
  let lo := n.low * scale
  let hi := n.high * scale
  if n.closed then lo ≤ x && x ≤ hi else lo < x && x < hi

/-- Largest power of ten that is at most `num / den`. -/
def decimalPower (num den : Nat) : Int :=
  let guess : Int := (Nat.toDigits 10 num).length - (Nat.toDigits 10 den).length
  let fits : Bool :=
    if 0 ≤ guess then den * Nat.pow 10 guess.natAbs ≤ num else den ≤ num * Nat.pow 10 guess.natAbs
  if fits then guess else guess - 1

/-- The candidate with `count` digits: an integer times a power of ten. -/
def Neighbourhood.candidate? (n : Neighbourhood) (power : Int) (count : Nat) :
    Option (Nat × Int) :=
  let step := power + 1 - count
  -- In units of `10 ^ step` the value is `num / den`.
  let grow := if 0 ≤ step then 1 else Nat.pow 10 step.natAbs
  let shrink := if 0 ≤ step then Nat.pow 10 step.natAbs else 1
  let num := n.value * grow
  let den := n.den * shrink
  let down := num / den
  let fits (k : Nat) : Bool := n.contains (k * shrink) grow
  match fits down, fits (down + 1) with
  | true, true =>
    let r := num % den
    some (if 2 * r < den ∨ (2 * r = den ∧ down % 2 = 0) then down else down + 1, step)
  | true, false => some (down, step)
  | false, true => some (down + 1, step)
  | false, false => none

/-- Drops trailing zero digits. -/
def stripZeros : Nat → Nat × Int → Nat × Int
  | 0, x => x
  | fuel + 1, (n, e) => if n ≠ 0 ∧ n % 10 = 0 then stripZeros fuel (n / 10, e + 1) else (n, e)

/-- Digits and decimal exponent of the shortest decimal of a non-zero magnitude. Seventeen digits
always suffice. -/
def Dyadic.shortest (d : Dyadic) : Nat × Int :=
  let n := d.neighbourhood
  let power := decimalPower n.value n.den
  match (List.range' 1 17).findSome? (n.candidate? power) with
  | some x => stripZeros 17 x
  | none => (0, 0)

end Coupling.Number
