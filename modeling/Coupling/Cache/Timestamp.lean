import Coupling.Number.Decimal
import Coupling.Text.Blank

/-!
# Timestamps

A date, a time of day and an offset, as in `2024-01-02T03:04:05+02:00`. Reading is lenient: numbers
need no leading zeros, blanks may stand between the parts, and years beyond four digits have a sign.
The first and the last day are the first and the last one without the offset too.
-/

namespace Coupling.Timestamp

open Text

/-- Reads at least one and at most `most` digits. -/
def digits? (most : Nat) (cs : List Char) : Option (Nat × List Char) :=
  let ds := (cs.take most).takeWhile Char.isDigit
  if ds.isEmpty then none else some (Number.ofDigits ds, cs.drop ds.length)

/-- A number of at most two digits after any blanks. -/
def pair? (cs : List Char) : Option (Nat × List Char) := digits? 2 (trimStart cs)

def year? (cs : List Char) : Option (Int × List Char) :=
  match trimStart cs with
  | '-' :: rest => (digits? rest.length rest).map fun (n, rest) => (-n, rest)
  | '+' :: rest => (digits? rest.length rest).map fun (n, rest) => (n, rest)
  | cs => (digits? 4 cs).map fun (n, rest) => (n, rest)

/-- Drops a character after any blanks. -/
def mark? (c : Char) (cs : List Char) : Option (List Char) :=
  match trimStart cs with
  | x :: rest => if x = c then some rest else none
  | [] => none

def isLeap (year : Int) : Bool := year % 4 = 0 && (year % 100 ≠ 0 || year % 400 = 0)

def daysIn (year : Int) (month : Nat) : Nat :=
  if month = 2 then if isLeap year then 29 else 28
  else if month = 4 ∨ month = 6 ∨ month = 9 ∨ month = 11 then 30
  else 31

def leastYear : Int := -262143

def greatestYear : Int := 262142

/-- A day: year, month and day of the month. -/
structure Date where
  year : Int
  month : Nat
  day : Nat
deriving DecidableEq

def firstDate : Date := ⟨leastYear, 1, 1⟩

def lastDate : Date := ⟨greatestYear, 12, 31⟩

/-- Reads a day that exists. -/
def date? (cs : List Char) : Option (Date × List Char) := do
  let (year, cs) ← year? cs
  let (month, cs) ← pair? (← mark? '-' cs)
  let (day, cs) ← pair? (← mark? '-' cs)
  guard (leastYear ≤ year ∧ year ≤ greatestYear ∧ 1 ≤ month ∧ month ≤ 12)
  guard (1 ≤ day ∧ day ≤ daysIn year month)
  return (⟨year, month, day⟩, cs)

/-- Reads the part of a second after a point, if there is one. -/
def fraction? (cs : List Char) : Option (List Char) :=
  match cs with
  | '.' :: rest =>
    let after := rest.dropWhile Char.isDigit
    if after.length < rest.length then some after else none
  | cs => some cs

/-- Reads a time of day as the seconds since midnight; a leap second belongs to the one before. -/
def time? (cs : List Char) : Option (Nat × List Char) := do
  let (hour, cs) ← pair? cs
  let (minute, cs) ← pair? (← mark? ':' cs)
  let (second, cs) ← pair? (← mark? ':' cs)
  guard (hour ≤ 23 ∧ minute ≤ 59 ∧ second ≤ 60)
  return (hour * 3600 + minute * 60 + min second 59, ← fraction? cs)

/-- Reads hours and minutes of an offset after its sign, with or without a colon, as seconds. -/
def hoursMinutes? (cs : List Char) : Option (Nat × List Char) :=
  match cs with
  | h :: h' :: rest =>
    match rest.dropWhile fun c => c == ':' || isBlank c with
    | m :: m' :: rest =>
      let hours := Number.ofDigits [h, h']
      let minutes := Number.ofDigits [m, m']
      if [h, h', m, m'].all Char.isDigit ∧ hours ≤ 23 ∧ minutes ≤ 59 then
        some (hours * 3600 + minutes * 60, rest)
      else none
    | _ => none
  | _ => none

/-- Reads an offset in seconds: a name for none, or a sign with hours and minutes. -/
def offset? (cs : List Char) : Option (Int × List Char) :=
  if (cs.take 3).map Char.toUpper = ['U', 'T', 'C'] then some (0, cs.drop 3)
  else
    match cs with
    | 'Z' :: rest | 'z' :: rest => some (0, rest)
    | '+' :: rest => (hoursMinutes? rest).map fun (n, rest) => (n, rest)
    | '-' :: rest | '−' :: rest => (hoursMinutes? rest).map fun (n, rest) => (-n, rest)
    | _ => none

/-- Reads a day, a time of day and an offset. -/
def parts? (cs : List Char) : Option ((Date × Nat × Int) × List Char) := do
  match ← date? cs with
  | (date, c :: cs) =>
    guard (c = 'T' ∨ c = 't' ∨ c = ' ')
    let (time, cs) ← time? cs
    let (offset, cs) ← offset? (trimStart cs)
    return ((date, time, offset), cs)
  | (_, []) => none

/-- Without its offset, the moment is still on a day between the first and the last. -/
def inRange (date : Date) (time : Nat) (offset : Int) : Bool :=
  (date = firstDate → offset ≤ time) ∧ (date = lastDate → (time : Int) - offset < 24 * 3600)

/-- The text is a timestamp. -/
def isValid (text : String) : Bool :=
  (parts? text.toList).any fun ((date, time, offset), rest) =>
    (trimStart rest).isEmpty && inRange date time offset

end Coupling.Timestamp
