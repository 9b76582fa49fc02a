import Coupling.Number.Decimal

/-!
# Number literals

The value of a number literal as a binary64 number. Underscores separate digits, and letters may
have either case. Imaginary numbers and integers in another base beyond 63 bits have no value.
-/

namespace Coupling.Literal

/-- The value of a digit in a base up to sixteen. -/
def digit? (base : Nat) (c : Char) : Option Nat :=
  let value :=
    if c.isDigit then some (c.toNat - 48)
    else if 'a' ≤ c ∧ c ≤ 'f' then some (c.toNat - 87)
    else none
  value.filter (· < base)

/-- The number that some digits write in a base. -/
def radix? (base : Nat) (cs : List Char) : Option Nat :=
  if cs.isEmpty then none
  else cs.foldl (fun acc c => acc.bind fun n => (digit? base c).map fun d => base * n + d) (some 0)

/-- The spelling of a literal in small letters, without underscores and the mark of a long integer.
-/
def plain (text : List Char) : List Char :=
  let cs := (text.filter (· ≠ '_')).map Char.toLower
  if cs.getLast? = some 'l' then cs.dropLast else cs

def value? (text : List Char) : Option Float :=
  let cs := plain text
  let based (base : Nat) (digits : List Char) : Option Float :=
    ((radix? base digits).filter (· < Nat.pow 2 63)).map Float.ofNat
  if cs.getLast? = some 'j' then none
  else
    match cs with
    | '0' :: 'x' :: digits => based 16 digits
    | '0' :: 'o' :: digits => based 8 digits
    | '0' :: 'b' :: digits => based 2 digits
    | cs => (Number.Decimal.parse? cs).map Number.Decimal.toFloat

end Coupling.Literal
