import Coupling.Digest.Hex
import Coupling.Json.Value
import Coupling.Number.Shortest

/-!
# Writing JSON

Compact text: no blanks, only the escapes that JSON requires, and numbers with the fewest digits
that read back.
-/

namespace Coupling.Json

/-- A number is written positionally when its point falls within these bounds. -/
structure FloatStyle where
  leastPoint : Int
  greatestPoint : Int

/-- Up to sixteen digits before the point, and up to four zeros after it. -/
def floatStyle : FloatStyle := ⟨-4, 16⟩

/-- Writes `digits · 10 ^ exponent`, with a point and at least one place after it unless there is an
exponent. -/
def FloatStyle.write (style : FloatStyle) (digits : Nat) (exponent : Int) : List Char :=
  let ds := Nat.toDigits 10 digits
  let point := ds.length + exponent
  if style.leastPoint ≤ point ∧ point ≤ style.greatestPoint then
    if 0 ≤ exponent then ds ++ List.replicate exponent.natAbs '0' ++ ['.', '0']
    else if 0 < point then ds.take point.natAbs ++ '.' :: ds.drop point.natAbs
    else '0' :: '.' :: List.replicate point.natAbs '0' ++ ds
  else
    let power := point - 1
    let mantissa := match ds with
      | [] => []
      | [d] => [d]
      | d :: rest => d :: '.' :: rest
    mantissa ++ 'e' :: (if power < 0 then ['-'] else []) ++ Nat.toDigits 10 power.natAbs

def renderFloat (x : Float) : List Char :=
  match Number.Binary64.ofFloat x with
  | .finite d =>
    let text :=
      if d.mantissa = 0 then ['0', '.', '0']
      else
        let (digits, exponent) := d.shortest
        floatStyle.write digits exponent
    if d.negative then '-' :: text else text
  | _ => ['n', 'u', 'l', 'l']

def escapeChar (c : Char) : List Char :=
  match c with
  | '"' => ['\\', '"']
  | '\\' => ['\\', '\\']
  | '\x08' => ['\\', 'b']
  | '\x0c' => ['\\', 'f']
  | '\n' => ['\\', 'n']
  | '\r' => ['\\', 'r']
  | '\t' => ['\\', 't']
  | c =>
    if c.toNat < 0x20 then
      ['\\', 'u', '0', '0', Digest.hexDigit (c.toNat / 16), Digest.hexDigit (c.toNat % 16)]
    else [c]

def renderString (s : String) : List Char := '"' :: s.toList.flatMap escapeChar ++ ['"']

def renderInt (n : Int) : List Char :=
  if n < 0 then '-' :: Nat.toDigits 10 n.natAbs else Nat.toDigits 10 n.natAbs

mutual

def render : Json → List Char
  | .null => ['n', 'u', 'l', 'l']
  | .bool true => ['t', 'r', 'u', 'e']
  | .bool false => ['f', 'a', 'l', 's', 'e']
  | .int n => renderInt n
  | .float x => renderFloat x
  | .str s => renderString s
  | .arr items => '[' :: renderItems items ++ [']']
  | .obj fields => '\x7b' :: renderFields fields ++ ['\x7d']

def renderItems : List Json → List Char
  | [] => []
  | [j] => render j
  | j :: rest => render j ++ ',' :: renderItems rest

def renderFields : List (String × Json) → List Char
  | [] => []
  | [(name, j)] => renderString name ++ ':' :: render j
  | (name, j) :: rest => renderString name ++ ':' :: render j ++ ',' :: renderFields rest

end

def compress (j : Json) : String := String.ofList (render j)

end Coupling.Json
