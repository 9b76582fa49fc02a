import Coupling.Toml.Quoted
import Coupling.Toml.Scalar
import Coupling.Toml.Table

/-!
# Reading TOML

A document is a sequence of lines with a key and its value, a header, or nothing. Arrays and inline
tables may span lines.
-/

namespace Coupling.Toml

def skipIndent (cs : List Char) : List Char := cs.dropWhile isIndent

/-- Skips a comment up to the end of its line. -/
def skipComment (cs : List Char) : List Char :=
  match cs with
  | '#' :: rest => rest.dropWhile isPlain
  | cs => cs

/-- Skips blanks, comments and newlines. A carriage return belongs to a newline. -/
def skipLines : Nat → List Char → List Char
  | 0, cs => cs
  | fuel + 1, cs =>
    match skipComment (skipIndent cs) with
    | '\n' :: rest => skipLines fuel rest
    | '\r' :: '\n' :: rest => skipLines fuel rest
    | rest => rest

def skipAll (cs : List Char) : List Char := skipLines cs.length cs

def isBareKey (c : Char) : Bool := c.isAlphanum || c == '_' || c == '-'

/-- One part of a dotted key. -/
def simpleKey? (cs : List Char) : Option (String × List Char) :=
  match cs with
  | '"' :: rest => lineString '"' 0 [] rest
  | '\'' :: rest => lineString '\'' 0 [] rest
  | cs =>
    let key := cs.takeWhile isBareKey
    if key.isEmpty then none else some (String.ofList key, cs.dropWhile isBareKey)

/-- The parts of a dotted key, and what follows them and blanks. -/
def key? : Nat → List Char → Option (List String × List Char)
  | 0, _ => none
  | fuel + 1, cs => do
    let (part, rest) ← simpleKey? (skipIndent cs)
    match skipIndent rest with
    | '.' :: rest => do
      let (parts, rest) ← key? fuel rest
      return (part :: parts, rest)
    | rest => return ([part], rest)

/-- The keys on the way and the last key. -/
def splitKey? (parts : List String) : Option (List String × String) :=
  parts.getLast?.map fun last => (parts.dropLast, last)

mutual

/-- Reads a value; `fuel` bounds the nesting and the number of parts. -/
def valueAt : Nat → List Char → Option (Json × List Char)
  | 0, _ => none
  | fuel + 1, cs =>
    match cs with
    | '[' :: rest => itemsAt fuel [] (skipAll rest)
    | '\x7b' :: rest => entriesAt fuel [] (skipAll rest)
    | '"' :: _ | '\'' :: _ => (string? cs).map fun (s, rest) => (.str s, rest)
    | cs =>
      let (text, rest) := scalarText cs
      (scalar? text).map (·, rest)

/-- Reads the items of an array; a comma may follow the last one. -/
def itemsAt : Nat → List Json → List Char → Option (Json × List Char)
  | 0, _, _ => none
  | fuel + 1, acc, cs =>
    match cs with
    | ']' :: rest => some (.arr acc.reverse, rest)
    | cs =>
      match valueAt fuel cs with
      | none => none
      | some (v, rest) =>
        match skipAll rest with
        | ',' :: rest => itemsAt fuel (v :: acc) (skipAll rest)
        | ']' :: rest => some (.arr (v :: acc).reverse, rest)
        | _ => none

/-- Reads the entries of an inline table; a comma may follow the last one. -/
def entriesAt : Nat → Entries → List Char → Option (Json × List Char)
  | 0, _, _ => none
  | fuel + 1, acc, cs =>
    match cs with
    | '\x7d' :: rest => some ((Node.table .header acc).toJson, rest)
    | cs =>
      match entryAt fuel cs with
      | none => none
      | some (parts, v, rest) =>
        match (splitKey? parts).bind fun (path, key) => addValue [] path key v acc with
        | none => none
        | some acc =>
          match skipAll rest with
          | ',' :: rest => entriesAt fuel acc (skipAll rest)
          | '\x7d' :: rest => some ((Node.table .header acc).toJson, rest)
          | _ => none

/-- Reads a key, an equals sign and a value. -/
def entryAt : Nat → List Char → Option (List String × Json × List Char)
  | 0, _ => none
  | fuel + 1, cs =>
    match key? cs.length cs with
    | some (parts, '=' :: rest) =>
      (valueAt fuel (skipIndent rest)).map fun (v, rest) => (parts, v, rest)
    | _ => none

end

/-- Fuel that suffices for a text. -/
def enough (cs : List Char) : Nat := 3 * cs.length + 3

/-- A document under construction: the table that keys go to, and all tables. -/
structure Draft where
  current : List String
  document : Entries

/-- Reads a header. -/
def header? (draft : Draft) (cs : List Char) : Option (Draft × List Char) :=
  match cs with
  | '[' :: '[' :: rest => do
    let (parts, rest) ← key? rest.length rest
    let (path, key) ← splitKey? parts
    match rest with
    | ']' :: ']' :: rest =>
      (openItem path key draft.document).map fun document => (⟨parts, document⟩, rest)
    | _ => none
  | '[' :: rest => do
    let (parts, rest) ← key? rest.length rest
    let (path, key) ← splitKey? parts
    match rest with
    | ']' :: rest =>
      (openTable path key draft.document).map fun document => (⟨parts, document⟩, rest)
    | _ => none
  | _ => none

/-- Reads what stands on a line, if anything. -/
def expression? (draft : Draft) (cs : List Char) : Option (Draft × List Char) :=
  match cs with
  | [] | '\n' :: _ | '\r' :: _ | '#' :: _ => some (draft, cs)
  | '[' :: _ => header? draft cs
  | cs => do
    let (parts, v, rest) ← entryAt (enough cs) cs
    let (path, key) ← splitKey? parts
    let document ← addValue draft.current path key v draft.document
    return ({ draft with document := document }, rest)

/-- Reads line after line. -/
def linesFrom : Nat → Draft → List Char → Option Draft
  | 0, _, _ => none
  | fuel + 1, draft, cs =>
    match expression? draft (skipIndent cs) with
    | none => none
    | some (draft, rest) =>
      match skipComment (skipIndent rest) with
      | [] => some draft
      | '\n' :: rest => linesFrom fuel draft rest
      | '\r' :: '\n' :: rest => linesFrom fuel draft rest
      | _ => none

/-- The value of a document. A byte order mark at its front means nothing. -/
def parse? (text : List Char) : Option Json :=
  let cs := match text with
    | c :: rest => if c.toNat = 0xfeff then rest else text
    | [] => []
  (linesFrom (cs.length + 1) ⟨[], []⟩ cs).map fun draft =>
    (Node.table .header draft.document).toJson

end Coupling.Toml
