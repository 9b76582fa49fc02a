/-!
# Binary64 numbers, exactly

A finite binary64 number is an integer times a power of two. Everything that looks inside such a
number goes through this view.
-/

namespace Coupling.Number

/-- The value `± mantissa · 2 ^ exponent`. -/
structure Dyadic where
  negative : Bool
  mantissa : Nat
  exponent : Int
deriving DecidableEq, Repr

inductive Binary64 where
  | finite (value : Dyadic)
  | infinite (negative : Bool)
  | nan
deriving DecidableEq, Repr

/-- Reads sign, exponent and fraction off sixty-four bits. -/
def Binary64.ofBits (bits : Nat) : Binary64 :=
  let negative : Bool := Nat.pow 2 63 ≤ bits
  let biased : Nat := bits / Nat.pow 2 52 % Nat.pow 2 11
  let fraction : Nat := bits % Nat.pow 2 52
  if biased = Nat.pow 2 11 - 1 then
    if fraction = 0 then .infinite negative else .nan
  else if biased = 0 then .finite ⟨negative, fraction, -1074⟩
  else .finite ⟨negative, Nat.pow 2 52 + fraction, biased - 1075⟩

def Binary64.ofFloat (x : Float) : Binary64 := .ofBits x.toBits.toNat

def Binary64.isFinite : Binary64 → Bool
  | .finite _ => true
  | _ => false

/-- The value as an integer, if it is one. -/
def Dyadic.integer? (d : Dyadic) : Option Int :=
  let scale := Nat.pow 2 d.exponent.natAbs
  let magnitude : Option Nat :=
    if 0 ≤ d.exponent then some (d.mantissa * scale)
    else if d.mantissa % scale = 0 then some (d.mantissa / scale)
    else none
  magnitude.map fun n => if d.negative then -(n : Int) else n

/-- The magnitude as a fraction. -/
def Dyadic.ratio (d : Dyadic) : Nat × Nat :=
  if 0 ≤ d.exponent then (d.mantissa * Nat.pow 2 d.exponent.natAbs, 1)
  else (d.mantissa, Nat.pow 2 d.exponent.natAbs)

end Coupling.Number
