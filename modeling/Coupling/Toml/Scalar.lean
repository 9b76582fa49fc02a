import Coupling.Json.Value
import Coupling.Number.Decimal

/-!
# TOML scalars

Booleans, numbers, dates and times. A date or time becomes an object with a single field.
-/

namespace Coupling.Toml

/-- Digits of a class with single underscores between them, without the underscores. -/
def digits? (isDigit : Char → Bool) : List Char → Option (List Char)
  | [] => none
  | [c] => if isDigit c then some [c] else none
  | c :: '_' :: rest => if isDigit c then (digits? isDigit rest).map (c :: ·) else none
  | c :: rest => if isDigit c then (digits? isDigit rest).map (c :: ·) else none

/-- A decimal integer without a sign; only zero starts with a zero. -/
def whole? (cs : List Char) : Option (List Char) := do
  let ds ← digits? Char.isDigit cs
  guard (ds.length == 1 || ds.head? != some '0')
  return ds

def digitValue (c : Char) : Nat :=
  if c.isDigit then c.toNat - 48 else if 'a' ≤ c then c.toNat - 87 else c.toNat - 55

/-- An integer with a prefix for its base. -/
def based? (base : Nat) (isDigit : Char → Bool) (cs : List Char) : Option Int :=
  (digits? isDigit cs).map fun ds => (ds.foldl (fun n c => base * n + digitValue c) 0 : Nat)

def isHexDigit (c : Char) : Bool := c.isDigit || ('a' ≤ c && c ≤ 'f') || ('A' ≤ c && c ≤ 'F')

/-- Splits off a sign. -/
def signed : List Char → Bool × List Char
  | '-' :: rest => (true, rest)
  | '+' :: rest => (false, rest)
  | cs => (false, cs)

/-- Integers are kept up to 128 bits. -/
def integer? (cs : List Char) : Option Json := do
  let n ← match cs with
    | '0' :: 'x' :: rest => based? 16 isHexDigit rest
    | '0' :: 'o' :: rest => based? 8 (fun c => '0' ≤ c && c ≤ '7') rest
    | '0' :: 'b' :: rest => based? 2 (fun c => c == '0' || c == '1') rest
    | cs =>
      let (negative, rest) := signed cs
      (whole? rest).map fun ds =>
        if negative then -(Number.ofDigits ds : Int) else Number.ofDigits ds
  guard (-(Nat.pow 2 127 : Int) ≤ n ∧ n < Nat.pow 2 128)
  return .int n

/-- A number with a fraction or an exponent, or a special value. A number beyond the range is
refused. -/
def float? (cs : List Char) : Option Json := do
  let (negative, body) := signed cs
  let apply (x : Float) : Json := .float (if negative then -x else x)
  if body = ['i', 'n', 'f'] then return apply (1.0 / 0.0)
  if body = ['n', 'a', 'n'] then return apply (0.0 / 0.0)
  let isMark (c : Char) : Bool := c == 'e' || c == 'E'
  let mantissa := body.takeWhile (!isMark ·)
  let power := (body.dropWhile (!isMark ·)).drop 1
  let hasPower := body.any isMark
  let isPoint (c : Char) : Bool := c == '.'
  let front ← whole? (mantissa.takeWhile (!isPoint ·))
  let hasPoint := mantissa.any isPoint
  let fraction ←
    if hasPoint then digits? Char.isDigit ((mantissa.dropWhile (!isPoint ·)).drop 1) else some []
  let exponent : Int ←
    if hasPower then
      let (down, ds) := signed power
      (digits? Char.isDigit ds).map fun ds =>
        if down then -(Number.ofDigits ds : Int) else Number.ofDigits ds
    else some 0
  guard (hasPoint || hasPower)
  let x := (Number.Decimal.mk (Number.ofDigits (front ++ fraction))
    (exponent - fraction.length)).toFloat
  guard (Number.Binary64.ofFloat x).isFinite
  return apply x

/-- A number of exactly two digits at the front, within bounds. -/
def two? (lo hi : Nat) : List Char → Option (Nat × List Char)
  | a :: b :: rest =>
    if a.isDigit && b.isDigit then
      let n := Number.ofDigits [a, b]
      if lo ≤ n ∧ n ≤ hi then some (n, rest) else none
    else none
  | _ => none

def isLeap (year : Nat) : Bool := (year % 4 == 0 && year % 100 != 0) || year % 400 == 0

def daysIn (year month : Nat) : Nat :=
  if month = 2 then if isLeap year then 29 else 28
  else if month = 4 ∨ month = 6 ∨ month = 9 ∨ month = 11 then 30
  else 31

/-- What follows a date at the front of a text. -/
def afterDate? : List Char → Option (List Char)
  | a :: b :: c :: d :: '-' :: rest => do
    guard ([a, b, c, d].all Char.isDigit)
    let year := Number.ofDigits [a, b, c, d]
    let (month, rest) ← two? 1 12 rest
    match rest with
    | '-' :: rest => (·.2) <$> two? 1 (daysIn year month) rest
    | _ => none
  | _ => none

/-- What follows a time at the front of a text. Seconds and their fraction may be missing. -/
def afterTime? (cs : List Char) : Option (List Char) := do
  let (_, rest) ← two? 0 23 cs
  match rest with
  | ':' :: rest =>
    let (_, rest) ← two? 0 59 rest
    match rest with
    | ':' :: rest =>
      let (_, rest) ← two? 0 60 rest
      match rest with
      | '.' :: rest =>
        guard (rest.head?.any Char.isDigit)
        return rest.dropWhile Char.isDigit
      | rest => return rest
    | rest => return rest
  | _ => none

/-- A text that is nothing or an offset from universal time. -/
def isOffset : List Char → Bool
  | [] => true
  | ['Z'] => true
  | ['z'] => true
  | c :: rest =>
    (c == '+' || c == '-') &&
      match two? 0 23 rest with
      | some (_, ':' :: rest) => (two? 0 59 rest).any (·.2.isEmpty)
      | _ => false

/-- A date, a time, or both. -/
def isDatetime (cs : List Char) : Bool :=
  match afterDate? cs with
  | some [] => true
  | some (c :: rest) =>
    (c == 'T' || c == 't' || c == ' ') &&
      match afterTime? rest with
      | some left => isOffset left
      | none => false
  | none =>
    match afterTime? cs with
    | some left => left.isEmpty
    | none => false

/-- The name of the single field of a date or time. -/
def datetimeField : String := "$__toml_private_datetime"

def scalar? (cs : List Char) : Option Json :=
  if cs = ['t', 'r', 'u', 'e'] then some (.bool true)
  else if cs = ['f', 'a', 'l', 's', 'e'] then some (.bool false)
  else if isDatetime cs then some (.obj [(datetimeField, .str (String.ofList cs))])
  else (integer? cs).or (float? cs)

def isScalarChar (c : Char) : Bool :=
  c.isAlphanum || c == '+' || c == '-' || c == '_' || c == '.' || c == ':'

/-- Splits off the text of a scalar; a time may follow a date after one space. -/
def scalarText (cs : List Char) : List Char × List Char :=
  let front := cs.takeWhile isScalarChar
  let rest := cs.dropWhile isScalarChar
  match afterDate? front, rest with
  | some [], ' ' :: c :: more =>
    if c.isDigit then
      let time := (c :: more).takeWhile isScalarChar
      (front ++ ' ' :: time, (c :: more).dropWhile isScalarChar)
    else (front, rest)
  | _, _ => (front, rest)

end Coupling.Toml
