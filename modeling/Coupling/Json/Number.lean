import Coupling.Json.Value
import Coupling.Number.Decimal

/-!
# Numbers in JSON text

Reading keeps the leading digits that fit in 64 bits and scales them by a power of ten, with one
rounding for each step. Writing takes the fewest digits that read back.
-/

namespace Coupling.Json

/-- Splits decimal digits into the number of the leading ones that fit in 64 bits and the count of
the others. -/
def leadingDigits (acc : Nat) : List Char → Nat × Nat
  | [] => (acc, 0)
  | c :: cs =>
    let next := 10 * acc + (c.toNat - 48)
    if next < Nat.pow 2 64 then leadingDigits next cs else (acc, cs.length + 1)

/-- Divides by a power of ten, in steps of at most three hundred and eight. -/
def scaleDown : Nat → Float → Nat → Float
  | 0, _, _ => 0.0
  | fuel + 1, f, e =>
    if e ≤ 308 then f / Float.ofScientific 1 false e
    else if f == 0.0 then f
    else scaleDown fuel (f / Float.ofScientific 1 false 308) (e - 308)

/-- `significand · 10 ^ exponent`; a value beyond the range is infinite. -/
def scaled (significand : Nat) (exponent : Int) : Float :=
  let f := Float.ofNat significand
  if exponent < 0 then scaleDown 4 f exponent.natAbs
  else if exponent ≤ 308 then f * Float.ofScientific 1 false exponent.natAbs
  else if significand = 0 then 0.0
  else 1.0 / 0.0

/-- The magnitude written by the digits before and after the point and an exponent. -/
def magnitude (whole fraction : List Char) (exponent : Int) : Float :=
  match leadingDigits 0 whole with
  | (n, 0) =>
    let (n, dropped) := leadingDigits n fraction
    scaled n (exponent - (fraction.length - dropped : Nat))
  | (n, dropped) =>
    -- Once a digit does not fit, a later one may still fit after the point.
    let (n, left) := leadingDigits n fraction
    scaled n (exponent + dropped - (fraction.length - left : Nat))

/-- A number without point and exponent. -/
def integer (negative : Bool) (digits : List Char) : Json :=
  let n := Number.ofDigits digits
  if negative then
    if n = 0 ∨ Nat.pow 2 63 < n then .float (-(magnitude digits [] 0)) else .int (-n)
  else if n < Nat.pow 2 64 then .int n
  else .float (magnitude digits [] 0)

/-- Reads a number at the front of a text. -/
def number? (cs : List Char) : Option (Json × List Char) := do
  let (negative, cs) :=
    match cs with
    | '-' :: cs => (true, cs)
    | cs => (false, cs)
  let whole := cs.takeWhile Char.isDigit
  let rest := cs.dropWhile Char.isDigit
  guard (!whole.isEmpty && (whole.length == 1 || whole.head? != some '0'))
  let (fraction, hasPoint, rest) :=
    match rest with
    | '.' :: rest => (rest.takeWhile Char.isDigit, true, rest.dropWhile Char.isDigit)
    | rest => ([], false, rest)
  guard (!hasPoint || !fraction.isEmpty)
  match rest with
  | c :: after =>
    if c = 'e' ∨ c = 'E' then do
      let sign := after.takeWhile fun c => c == '+' || c == '-'
      let after := after.drop sign.length
      let digits := after.takeWhile Char.isDigit
      let exponent ← Number.exponent? (sign ++ digits)
      let x := magnitude whole fraction exponent
      return (.float (if negative then -x else x), after.dropWhile Char.isDigit)
    else if hasPoint then
      let x := magnitude whole fraction 0
      return (.float (if negative then -x else x), rest)
    else return (integer negative whole, rest)
  | [] =>
    if hasPoint then
      let x := magnitude whole fraction 0
      return (.float (if negative then -x else x), [])
    else return (integer negative whole, [])

end Coupling.Json
