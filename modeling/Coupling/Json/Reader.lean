import Coupling.Json.Number
import Coupling.Text.Utf8

/-!
# Reading JSON

Bytes are read if they are one JSON value with nothing but blanks around it. This takes two steps.
The first finds the parts of the value and leaves strings as they are written, the second decodes
the strings. A part that nobody asks for is not decoded, so its strings need not mean anything.

The readers of parts return what they leave.
-/

namespace Coupling.Json

/-- A value whose strings are as they are written. -/
inductive Raw where
  | atom (value : Json)
  /-- A string after its opening quote. -/
  | quoted (text : Text.Bytes)
  | arr (items : List Raw)
  | obj (fields : List (Text.Bytes × Raw))

/-! ### Parts -/

/-- The character of a byte. -/
def ascii (b : UInt8) : Char := Char.ofNat b.toNat

def isSpace (b : UInt8) : Bool :=
  ascii b == ' ' || ascii b == '\n' || ascii b == '\t' || ascii b == '\r'

def skip (bytes : Text.Bytes) : Text.Bytes := bytes.dropWhile isSpace

/-- Reads blanks and a character. -/
def mark? (c : Char) (bytes : Text.Bytes) : Option Text.Bytes :=
  match skip bytes with
  | b :: rest => if ascii b = c then some rest else none
  | [] => none

def hexValue? (c : Char) : Option Nat :=
  if '0' ≤ c ∧ c ≤ '9' then some (c.toNat - 48)
  else if 'a' ≤ c ∧ c ≤ 'f' then some (c.toNat - 87)
  else if 'A' ≤ c ∧ c ≤ 'F' then some (c.toNat - 55)
  else none

/-- The character of a one-letter escape. -/
def simpleEscape? : Char → Option Char
  | '"' => some '"'
  | '\\' => some '\\'
  | '/' => some '/'
  | 'b' => some '\x08'
  | 'f' => some '\x0c'
  | 'n' => some '\n'
  | 'r' => some '\r'
  | 't' => some '\t'
  | _ => none

/-- What may stand after a backslash: a letter, or one for a code unit with its four digits. -/
def isEscape (letter : Char) (rest : List Char) : Bool :=
  (simpleEscape? letter).isSome ||
    letter == 'u' && (rest.take 4).length == 4 && (rest.take 4).all (hexValue? · |>.isSome)

/-- Reads a string after its opening quote up to the closing one; `acc` holds the bytes so far,
reversed. -/
def quotedAt (acc : Text.Bytes) : Text.Bytes → Option (Text.Bytes × Text.Bytes)
  | [] => none
  | b :: rest =>
    if ascii b = '"' then some ((b :: acc).reverse, rest)
    else if b < 0x20 then none
    else if ascii b = '\\' then
      match rest with
      | [] => none
      | letter :: rest =>
        if isEscape (ascii letter) ((rest.take 4).map ascii) then
          quotedAt (letter :: b :: acc) rest
        else none
    else quotedAt (b :: acc) rest

/-- Reads a number, or the name of a value. -/
def atomAt (bytes : Text.Bytes) : Option (Raw × Text.Bytes) :=
  let isInside (b : UInt8) : Bool :=
    (ascii b).isAlphanum || ascii b == '+' || ascii b == '-' || ascii b == '.'
  let rest := bytes.dropWhile isInside
  match (bytes.takeWhile isInside).map ascii with
  | ['n', 'u', 'l', 'l'] => some (.atom .null, rest)
  | ['t', 'r', 'u', 'e'] => some (.atom (.bool true), rest)
  | ['f', 'a', 'l', 's', 'e'] => some (.atom (.bool false), rest)
  | cs =>
    match number? cs with
    | some (value, []) => some (.atom value, rest)
    | _ => none

mutual

/-- Reads a value; `fuel` bounds the nesting and the number of parts. -/
def valueAt : Nat → Text.Bytes → Option (Raw × Text.Bytes)
  | 0, _ => none
  | fuel + 1, bytes =>
    match mark? '"' bytes, mark? '[' bytes, mark? '\x7b' bytes with
    | some rest, _, _ => (quotedAt [] rest).map fun (text, rest) => (.quoted text, rest)
    | _, some rest, _ =>
      match mark? ']' rest with
      | some rest => some (.arr [], rest)
      | none => itemsAt fuel [] rest
    | _, _, some rest =>
      match mark? '\x7d' rest with
      | some rest => some (.obj [], rest)
      | none => fieldsAt fuel [] rest
    | none, none, none => atomAt (skip bytes)

/-- Reads the items of an array after its bracket; `acc` holds the items so far, reversed. -/
def itemsAt : Nat → List Raw → Text.Bytes → Option (Raw × Text.Bytes)
  | 0, _, _ => none
  | fuel + 1, acc, bytes =>
    match valueAt fuel bytes with
    | none => none
    | some (value, rest) =>
      match mark? ',' rest, mark? ']' rest with
      | some rest, _ => itemsAt fuel (value :: acc) rest
      | _, some rest => some (.arr (value :: acc).reverse, rest)
      | none, none => none

/-- Reads the fields of an object after its brace. -/
def fieldsAt : Nat → List (Text.Bytes × Raw) → Text.Bytes → Option (Raw × Text.Bytes)
  | 0, _, _ => none
  | fuel + 1, acc, bytes =>
    match (mark? '"' bytes).bind (quotedAt []) with
    | none => none
    | some (name, rest) =>
      match (mark? ':' rest).bind (valueAt fuel) with
      | none => none
      | some (value, rest) =>
        match mark? ',' rest, mark? '\x7d' rest with
        | some rest, _ => fieldsAt fuel ((name, value) :: acc) rest
        | _, some rest => some (.obj ((name, value) :: acc).reverse, rest)
        | none, none => none

end

/-! ### Strings -/

/-- A code unit of four hexadecimal digits. -/
def unit? (a b c d : Char) : Option Nat := do
  return (← hexValue? a) * 0x1000 + (← hexValue? b) * 0x100 + (← hexValue? c) * 0x10 +
    (← hexValue? d)

/-- Decodes a string after its opening quote; `acc` is the reversed text so far. -/
def stringBody (acc : List Char) : List Char → Option (String × List Char)
  | '"' :: rest => some (String.ofList acc.reverse, rest)
  | '\\' :: 'u' :: a :: b :: c :: d :: rest =>
    match unit? a b c d with
    | none => none
    | some hi =>
      if 0xd800 ≤ hi ∧ hi < 0xdc00 then
        -- The first half of a pair needs the second.
        match rest with
        | '\\' :: 'u' :: a :: b :: c :: d :: rest =>
          match unit? a b c d with
          | none => none
          | some lo =>
            if 0xdc00 ≤ lo ∧ lo < 0xe000 then
              stringBody (Char.ofNat (0x10000 + (hi - 0xd800) * 0x400 + (lo - 0xdc00)) :: acc) rest
            else none
        | _ => none
      else if 0xdc00 ≤ hi ∧ hi < 0xe000 then none
      else stringBody (Char.ofNat hi :: acc) rest
  | '\\' :: e :: rest =>
    match simpleEscape? e with
    | some c => stringBody (c :: acc) rest
    | none => none
  | c :: rest => if c == '\\' || c.toNat < 0x20 then none else stringBody (c :: acc) rest
  | [] => none

namespace Raw

/-- Finds the parts of a value. -/
def parse? (bytes : Text.Bytes) : Option Raw :=
  match valueAt (2 * bytes.length + 2) bytes with
  | some (value, rest) => if (skip rest).isEmpty then some value else none
  | none => none

/-- The text of a string after its opening quote. -/
def decodeText? (text : Text.Bytes) : Option String :=
  (Text.decode? text).bind fun cs => (stringBody [] cs).map (·.1)

mutual

/-- Decodes the strings of a value. -/
def decode? : Raw → Option Json
  | .atom value => some value
  | .quoted text => (decodeText? text).map .str
  | .arr items => (decodeItems? items).map .arr
  | .obj fields => (decodeFields? fields).map .obj

def decodeItems? : List Raw → Option (List Json)
  | [] => some []
  | item :: rest => (decode? item).bind fun item => (decodeItems? rest).map (item :: ·)

def decodeFields? : List (Text.Bytes × Raw) → Option (List (String × Json))
  | [] => some []
  | (name, value) :: rest => (decodeText? name).bind fun name => (decode? value).bind fun value =>
      (decodeFields? rest).map ((name, value) :: ·)

end

end Raw

/-- Reads a whole value. -/
def parse? (bytes : Text.Bytes) : Option Json := (Raw.parse? bytes).bind Raw.decode?

end Coupling.Json
