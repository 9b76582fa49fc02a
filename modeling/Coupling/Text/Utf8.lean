/-!
# UTF-8

Reading bytes as text. `decodePrefix` splits bytes into the text of their longest well-formed prefix
and the bytes after it, so `decode?` succeeds exactly when nothing is left over. `lossy` reads any
bytes and shows those that belong to no character by a mark.
-/

namespace Coupling.Text

abbrev Bytes := List UInt8

/-- A byte that continues a character, in the range of its low six bits. -/
def continuation? (b : UInt8) : Option Nat :=
  if 0x80 ≤ b ∧ b ≤ 0xbf then some (b.toNat - 0x80) else none

def char2? (b₀ b₁ : UInt8) : Option Char := do
  guard (0xc2 ≤ b₀ ∧ b₀ ≤ 0xdf)
  let x ← continuation? b₁
  return Char.ofNat ((b₀.toNat - 0xc0) * 0x40 + x)

/-- Three bytes, without overlong forms and surrogates. -/
def char3? (b₀ b₁ b₂ : UInt8) : Option Char := do
  guard (0xe0 ≤ b₀ ∧ b₀ ≤ 0xef)
  guard ((b₀ = 0xe0 → 0xa0 ≤ b₁) ∧ (b₀ = 0xed → b₁ ≤ 0x9f))
  let x ← continuation? b₁
  let y ← continuation? b₂
  return Char.ofNat ((b₀.toNat - 0xe0) * 0x1000 + x * 0x40 + y)

/-- Four bytes, without overlong forms and values above the last code point. -/
def char4? (b₀ b₁ b₂ b₃ : UInt8) : Option Char := do
  guard (0xf0 ≤ b₀ ∧ b₀ ≤ 0xf4)
  guard ((b₀ = 0xf0 → 0x90 ≤ b₁) ∧ (b₀ = 0xf4 → b₁ ≤ 0x8f))
  let x ← continuation? b₁
  let y ← continuation? b₂
  let z ← continuation? b₃
  return Char.ofNat ((b₀.toNat - 0xf0) * 0x40000 + x * 0x1000 + y * 0x40 + z)

/-- The first character of some bytes, and how many bytes after the first belong to it. -/
def firstChar? (b : UInt8) (rest : Bytes) : Option (Char × Nat) :=
  if b < 0x80 then some (Char.ofNat b.toNat, 0)
  else
    match rest with
    | [] => none
    | b₁ :: rest =>
      ((char2? b b₁).map (·, 1)).or <|
        match rest with
        | [] => none
        | b₂ :: rest =>
          ((char3? b b₁ b₂).map (·, 2)).or <|
            match rest with
            | [] => none
            | b₃ :: _ => (char4? b b₁ b₂ b₃).map (·, 3)

/-- Reads on after the first `skip` bytes, which belong to a character already read. -/
def decodeFrom : Nat → Bytes → List Char × Bytes
  | _, [] => ([], [])
  | skip + 1, _ :: rest => decodeFrom skip rest
  | 0, b :: rest =>
    match firstChar? b rest with
    | none => ([], b :: rest)
    | some (c, n) =>
      let (cs, left) := decodeFrom n rest
      (c :: cs, left)

/-- The text of the longest well-formed prefix, and the bytes after it. -/
def decodePrefix (bytes : Bytes) : List Char × Bytes := decodeFrom 0 bytes

/-- The text of well-formed bytes. -/
def decode? (bytes : Bytes) : Option (List Char) :=
  match decodePrefix bytes with
  | (cs, []) => some cs
  | _ => none

def encode (s : String) : Bytes := s.toList.flatMap String.utf8EncodeChar

/-! ### Bytes that are not text -/

/-- What is shown in place of bytes that belong to no character. -/
def mark : Char := '\uFFFD'

/-- The two bytes can start a character of three or four bytes. -/
def opens (b₀ b₁ : UInt8) : Bool :=
  (continuation? b₁).isSome && 0xe0 ≤ b₀ && b₀ ≤ 0xf4 && (b₀ != 0xe0 || 0xa0 ≤ b₁) &&
    (b₀ != 0xed || b₁ ≤ 0x9f) && (b₀ != 0xf0 || 0x90 ≤ b₁) && (b₀ != 0xf4 || b₁ ≤ 0x8f)

/-- How many bytes after a first one that starts no character are shown by the same mark: those with
which it could still have become a character. -/
def strayLength (b : UInt8) : Bytes → Nat
  | [] => 0
  | [b₁] => if opens b b₁ then 1 else 0
  | b₁ :: b₂ :: _ =>
    if opens b b₁ then if 0xf0 ≤ b ∧ (continuation? b₂).isSome then 2 else 1 else 0

/-- Shows the bytes after the first `skip`, which belong to what is already shown. -/
def lossyFrom : Nat → Bytes → List Char
  | _, [] => []
  | skip + 1, _ :: rest => lossyFrom skip rest
  | 0, b :: rest =>
    match firstChar? b rest with
    | some (c, n) => c :: lossyFrom n rest
    | none => mark :: lossyFrom (strayLength b rest) rest

/-- The text of any bytes, with a mark for each piece that is not text. -/
def lossy (bytes : Bytes) : List Char := lossyFrom 0 bytes

end Coupling.Text
