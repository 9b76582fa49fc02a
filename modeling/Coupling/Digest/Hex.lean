/-!
# Hexadecimal digits

Digests are shown in lower-case hexadecimal, most significant digit first.
-/

namespace Coupling.Digest

def hexDigit (n : Nat) : Char :=
  if n < 10 then Char.ofNat (48 + n) else Char.ofNat (87 + n)

def hexByte (b : UInt8) : List Char := [hexDigit (b.toNat / 16), hexDigit (b.toNat % 16)]

def hex (bytes : List UInt8) : String := String.ofList (bytes.flatMap hexByte)

/-- The bytes of a 64-bit word, most significant first. -/
def bytesOf64 (w : UInt64) : List UInt8 :=
  [56, 48, 40, 32, 24, 16, 8, 0].map fun (shift : UInt64) => (w >>> shift).toUInt8

/-- Sixteen digits of a 64-bit word. -/
def hex64 (w : UInt64) : String := hex (bytesOf64 w)

/-- The lowest bytes of a number, least significant first. -/
def littleEndian : Nat → Nat → List UInt8
  | 0, _ => []
  | width + 1, n => UInt8.ofNat (n % 256) :: littleEndian width (n / 256)

end Coupling.Digest
