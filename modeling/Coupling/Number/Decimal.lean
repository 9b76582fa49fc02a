import Coupling.Number.Binary64

/-!
# Reading decimal numbers

`digits · 10 ^ exponent`, as written in decimal notation, and the binary64 number nearest to it.
-/

namespace Coupling.Number

structure Decimal where
  digits : Nat
  exponent : Int
deriving DecidableEq, Repr

/-- The number written by some decimal digits. -/
def ofDigits (cs : List Char) : Nat := cs.foldl (fun n c => 10 * n + (c.toNat - 48)) 0

/-- An exponent after its letter, with an optional sign. -/
def exponent? (cs : List Char) : Option Int :=
  let (negative, ds) :=
    match cs with
    | '-' :: ds => (true, ds)
    | '+' :: ds => (false, ds)
    | ds => (false, ds)
  if !ds.isEmpty && ds.all Char.isDigit then
    some (if negative then -(ofDigits ds : Int) else ofDigits ds)
  else none

/-- Reads digits with an optional point and an optional exponent; some digit stands before the
exponent. -/
def Decimal.parse? (cs : List Char) : Option Decimal := do
  let whole := cs.takeWhile Char.isDigit
  let rest := cs.dropWhile Char.isDigit
  let (fraction, rest) :=
    match rest with
    | '.' :: rest => (rest.takeWhile Char.isDigit, rest.dropWhile Char.isDigit)
    | rest => ([], rest)
  guard (!(whole ++ fraction).isEmpty)
  let power ←
    match rest with
    | [] => some 0
    | c :: rest => if c = 'e' ∨ c = 'E' then exponent? rest else none
  return ⟨ofDigits (whole ++ fraction), power - fraction.length⟩

/-- Decimal exponents beyond these bounds leave the range of binary64. -/
def leastPower : Int := -400
def greatestPower : Int := 400

/-- The nearest binary64 number; too large a value is infinite. -/
def Decimal.toFloat (d : Decimal) : Float :=
  let top := (Nat.toDigits 10 d.digits).length + d.exponent
  if d.digits = 0 ∨ top < leastPower then 0.0
  else if greatestPower < top then 1.0 / 0.0
  else Float.ofScientific d.digits (d.exponent < 0) d.exponent.natAbs

end Coupling.Number
