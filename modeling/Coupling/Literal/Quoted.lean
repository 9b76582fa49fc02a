/-!
# String literals

The text that the inside of a string literal stands for. A backslash and one of a few characters
stand for one character, and a backslash before a newline stands for nothing; any other backslash
stands for itself.
-/

namespace Coupling.Literal

/-- The character that an escape stands for. -/
def escaped? : Char → Option Char
  | 'n' => some '\n'
  | 't' => some '\t'
  | 'r' => some '\r'
  | '0' => some (Char.ofNat 0)
  | '\\' => some '\\'
  | '\'' => some '\''
  | '"' => some '"'
  | _ => none

def unescape : List Char → List Char
  | [] => []
  | ['\\'] => ['\\']
  | c :: d :: rest =>
    if c = '\\' then
      if d = '\n' then unescape rest
      else
        match escaped? d with
        | some x => x :: unescape rest
        | none => '\\' :: d :: unescape rest
    else c :: unescape (d :: rest)
  | [c] => [c]

end Coupling.Literal
