import Coupling.Number.Binary64

/-!
# A fixed number of decimal places

The exact value is rounded to the nearest multiple of the last place, and a tie goes to the even
neighbour.
-/

namespace Coupling.Number

/-- The integer nearest to `num / den`, ties to even. -/
def roundDiv (num den : Nat) : Nat :=
  let q := num / den
  let r := num % den
  if 2 * r < den then q
  else if den < 2 * r then q + 1
  else q + q % 2

/-- Decimal digits of `n`, at least `width` of them. -/
def digitsPadded (width n : Nat) : List Char :=
  let ds := Nat.toDigits 10 n
  List.replicate (width - ds.length) '0' ++ ds

/-- Writes `n / 10 ^ places`. -/
def pointed (places n : Nat) : List Char :=
  if places = 0 then Nat.toDigits 10 n
  else
    let ds := digitsPadded (places + 1) n
    ds.take (ds.length - places) ++ '.' :: ds.drop (ds.length - places)

def fixed (places : Nat) (x : Float) : String :=
  match Binary64.ofFloat x with
  | .nan => "NaN"
  | .infinite negative => if negative then "-inf" else "inf"
  | .finite d =>
    let (num, den) := d.ratio
    let text := pointed places (roundDiv (num * Nat.pow 10 places) den)
    String.ofList (if d.negative then '-' :: text else text)

end Coupling.Number
