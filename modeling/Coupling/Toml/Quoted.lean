import Coupling.Json.Reader

/-!
# TOML strings

Basic strings have escapes, literal strings have none, and both have a form that spans lines.
-/

namespace Coupling.Toml

/-- A character that may stand in a string or a comment. -/
def isPlain (c : Char) : Bool := c == '\t' || (0x20 ≤ c.toNat && c.toNat != 0x7f)

/-- The character with a code point of hexadecimal digits. -/
def codePoint? (cs : List Char) : Option Char := do
  let n ← cs.foldl (fun acc c => acc.bind fun n => (Json.hexValue? c).map (16 * n + ·)) (some 0)
  guard (n < 0xd800 ∨ (0xe000 ≤ n ∧ n < 0x110000))
  return Char.ofNat n

/-- The number of hexadecimal digits after the letter of an escape. -/
def escapeDigits? : Char → Option Nat
  | 'x' => some 2
  | 'u' => some 4
  | 'U' => some 8
  | _ => none

/-- The character of a one-letter escape. -/
def letterEscape? : Char → Option Char
  | 'b' => some '\x08'
  | 't' => some '\t'
  | 'n' => some '\n'
  | 'f' => some '\x0c'
  | 'r' => some '\r'
  | 'e' => some '\x1b'
  | '"' => some '"'
  | '\\' => some '\\'
  | _ => none

/-- The character that an escape stands for, and how many characters after the letter it takes. -/
def escape? (letter : Char) (rest : List Char) : Option (Char × Nat) :=
  match escapeDigits? letter with
  | some n =>
    if rest.length < n then none else (codePoint? (rest.take n)).map (·, n)
  | none => (letterEscape? letter).map (·, 0)

def isIndent (c : Char) : Bool := c == ' ' || c == '\t'

/-- The blanks and newlines that a backslash at the end of a line hides. -/
def hidden (cs : List Char) : Option Nat :=
  match cs.dropWhile isIndent with
  | '\n' :: _ | '\r' :: '\n' :: _ =>
    some (cs.takeWhile fun c => isIndent c || c == '\n' || c == '\r').length
  | _ => none

/-- Reads a string on one line after its quote. The first `skip` characters were read already. -/
def lineString (quote : Char) (skip : Nat) (acc : List Char) :
    List Char → Option (String × List Char)
  | [] => none
  | c :: rest =>
    match skip with
    | skip + 1 => lineString quote skip acc rest
    | 0 =>
      if c = quote then some (String.ofList acc.reverse, rest)
      else if c = '\\' ∧ quote = '"' then
        match rest with
        | [] => none
        | letter :: more =>
          match escape? letter more with
          | some (x, n) => lineString quote (n + 1) (x :: acc) rest
          | none => none
      else if isPlain c then lineString quote 0 (c :: acc) rest
      else none

/-- Reads a string over several lines after its quotes. Up to two quotes may stand before the
closing ones. -/
def blockString (quote : Char) (skip : Nat) (acc : List Char) :
    List Char → Option (String × List Char)
  | [] => none
  | c :: rest =>
    match skip with
    | skip + 1 => blockString quote skip acc rest
    | 0 =>
      if c = quote then
        let run := (rest.takeWhile (· == quote)).length + 1
        if run < 3 then blockString quote 0 (c :: acc) rest
        else if run ≤ 5 then
          some (String.ofList (acc.reverse ++ List.replicate (run - 3) quote), rest.drop (run - 1))
        else none
      else if c = '\\' ∧ quote = '"' then
        match rest with
        | [] => none
        | letter :: more =>
          match hidden (letter :: more) with
          | some n => blockString quote n acc rest
          | none =>
            match escape? letter more with
            | some (x, n) => blockString quote (n + 1) (x :: acc) rest
            | none => none
      else if c = '\n' ∨ isPlain c then blockString quote 0 (c :: acc) rest
      else if c = '\r' ∧ rest.head? = some '\n' then blockString quote 1 ('\n' :: acc) rest
      else none

/-- Drops a newline right after the opening quotes. -/
def dropNewline : List Char → List Char
  | '\n' :: rest => rest
  | '\r' :: '\n' :: rest => rest
  | cs => cs

/-- Reads a string at the front of a text, if one starts there. -/
def string? : List Char → Option (String × List Char)
  | '"' :: '"' :: '"' :: rest => blockString '"' 0 [] (dropNewline rest)
  | '\'' :: '\'' :: '\'' :: rest => blockString '\'' 0 [] (dropNewline rest)
  | '"' :: rest => lineString '"' 0 [] rest
  | '\'' :: rest => lineString '\'' 0 [] rest
  | _ => none

end Coupling.Toml
