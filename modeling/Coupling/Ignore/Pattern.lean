import Coupling.Text.Utf8

/-!
# Patterns of ignore files

A pattern is a sequence of pieces that are matched against the bytes of a path. `*` and `?` stay
within a name; `**` spans whole names; braces hold alternatives.
-/

namespace Coupling.Ignore

open Text

inductive Piece where
  | byte (b : UInt8)
  /-- One byte of a name. -/
  | any
  /-- Any number of bytes of a name. -/
  | star
  | oneOf (negated : Bool) (ranges : List (UInt8 × UInt8))
  /-- `**` at the front: nothing, or whole names with the slash after them. -/
  | front
  /-- `**` between slashes, with both of them. -/
  | between
  /-- `**` at the end, with the slash before it. -/
  | beneath
  /-- One of some sequences. -/
  | choice (branches : List (List Piece))
deriving BEq, Repr

def slash : UInt8 := 0x2f

namespace Piece

/-- What is left after any number of bytes of a name. -/
def afterName : Bytes → List Bytes
  | [] => [[]]
  | b :: rest => (b :: rest) :: if b = slash then [] else afterName rest

/-- What is left after any number of bytes. -/
def afterAny : Bytes → List Bytes
  | [] => [[]]
  | b :: rest => (b :: rest) :: afterAny rest

/-- What is left after each slash. -/
def afterSlash : Bytes → List Bytes
  | [] => []
  | b :: rest => if b = slash then rest :: afterSlash rest else afterSlash rest

/-- Takes one byte if it passes a test. -/
def afterByte (p : UInt8 → Bool) : Bytes → List Bytes
  | [] => []
  | b :: rest => if p b then [rest] else []

mutual

/-- What is left of some bytes after a piece, in every way in which it matches. -/
def rests : Piece → Bytes → List Bytes
  | .byte b => afterByte (· == b)
  | .any => afterByte (· != slash)
  | .star => afterName
  | .oneOf negated ranges =>
    afterByte fun b => ranges.any (fun r => r.1 ≤ b && b ≤ r.2) != negated
  | .front => fun bytes => bytes :: afterSlash bytes
  | .between => fun bytes =>
    (afterByte (· == slash) bytes).flatMap fun rest => rest :: afterSlash rest
  | .beneath => fun bytes => (afterByte (· == slash) bytes).flatMap afterAny
  | .choice branches => fun bytes =>
    if branches.isEmpty then [bytes] else restsOfAny branches bytes

/-- What is left after a sequence of pieces. -/
def restsOfAll : List Piece → Bytes → List Bytes
  | [] => fun bytes => [bytes]
  | p :: ps => fun bytes => (rests p bytes).flatMap (restsOfAll ps)

/-- What is left after one of some sequences. -/
def restsOfAny : List (List Piece) → Bytes → List Bytes
  | [] => fun _ => []
  | branch :: others => fun bytes => restsOfAll branch bytes ++ restsOfAny others bytes

end

end Piece

/-- A sequence of pieces. -/
abbrev Pattern := List Piece

namespace Pattern

/-- The pattern covers all of the bytes. A lone `**` covers everything. -/
def accepts (p : Pattern) (bytes : Bytes) : Bool :=
  p == [.front] || (Piece.restsOfAll p bytes).any (·.isEmpty)

/-! ### Reading -/

/-- A pattern being read: the pieces of the current sequence, and for each open brace its finished
sequences and the pieces before it. Everything is reversed. -/
structure Draft where
  pieces : List Piece := []
  braces : List (List (List Piece) × List Piece) := []
  /-- A bracket was found not to be closed, so brackets are plain characters from there on. -/
  plainBrackets : Bool := false

namespace Draft

def push (d : Draft) (p : Piece) : Draft := { d with pieces := p :: d.pieces }

def pushChar (d : Draft) (c : Char) : Draft :=
  { d with pieces := ((encode c.toString).map Piece.byte).reverse ++ d.pieces }

def openBrace (d : Draft) : Draft := { d with pieces := [], braces := ([], d.pieces) :: d.braces }

def comma (d : Draft) : Draft :=
  match d.braces with
  | [] => d.pushChar ','
  | (done, before) :: outer =>
    { d with pieces := [], braces := (d.pieces.reverse :: done, before) :: outer }

/-- Closes a brace; empty alternatives do not count. -/
def closeBrace? (d : Draft) : Option Draft :=
  match d.braces with
  | [] => none
  | (done, before) :: outer =>
    let branches := (d.pieces.reverse :: done).reverse.filter (!·.isEmpty)
    some { d with pieces := .choice branches :: before, braces := outer }

/-- Puts `**` in place of the slash before it. -/
def replaceSlash (d : Draft) (p : Piece) : Draft :=
  match d.pieces with
  | .front :: _ => d
  | .beneath :: _ => d
  | _ :: before => { d with pieces := p :: before }
  | [] => d.push p

/-- Two stars, by the characters around them; also how many characters after the first star belong
to them. Stars that do not stand for whole names are like one. -/
def twoStars (d : Draft) (before after : Option Char) : Draft × Nat :=
  let plain := ((d.push .star).push .star, 1)
  if d.pieces.isEmpty then
    match after with
    | none => (d.push .front, 1)
    | some '/' => (d.push .front, 2)
    | some _ => plain
  else if before ≠ some '/' ∧ (d.braces.isEmpty ∨ (before ≠ some ',' ∧ before ≠ some '\x7b')) then
    plain
  else
    match after with
    | none => (d.replaceSlash .beneath, 1)
    | some '/' => (d.replaceSlash .between, 2)
    | some c =>
      if !d.braces.isEmpty && (c == ',' || c == '\x7d') then (d.replaceSlash .beneath, 1) else plain

end Draft

/-- The ranges of a set of characters, reversed. -/
inductive SetReading where
  | closed (ranges : List (Char × Char)) (length : Nat)
  | unclosed
  | badRange

/-- Reads a set up to its closing bracket; `length` counts the characters read. -/
def readSet (first inRange : Bool) (ranges : List (Char × Char)) (length : Nat) :
    List Char → SetReading
  | [] => .unclosed
  | c :: rest =>
    if c = ']' ∧ !first then
      .closed (if inRange then ('-', '-') :: ranges else ranges) (length + 1)
    else if c = '-' ∧ !first ∧ !inRange then readSet false true ranges (length + 1) rest
    else
      match inRange, ranges with
      | true, (low, _) :: others =>
        if c < low then .badRange
        else readSet false false ((low, c) :: others) (length + 1) rest
      | _, _ => readSet false false ((c, c) :: ranges) (length + 1) rest

/-- The bytes of a range of characters, read byte by byte. -/
def byteRanges (range : Char × Char) : List (UInt8 × UInt8) :=
  let low := encode range.1.toString
  if range.1 = range.2 then low.map fun b => (b, b)
  else
    match low.reverse, encode range.2.toString with
    | a :: before, b :: after =>
      before.map (fun x => (x, x)) ++ (a, b) :: after.map fun x => (x, x)
    | _, _ => []

/-- Reads a set after its opening bracket. -/
def set? (d : Draft) (rest : List Char) : Option (Draft × Nat) :=
  let (negated, skipped) :=
    match rest with
    | '!' :: _ | '^' :: _ => (true, 1)
    | _ => (false, 0)
  match readSet true false [] skipped (rest.drop skipped) with
  | .closed ranges length => some (d.push (.oneOf negated (ranges.flatMap byteRanges)), length)
  | .unclosed => some ({ d.pushChar '[' with plainBrackets := true }, 0)
  | .badRange => none

/-- Reads one character; also how many of those after it belong to it. -/
def read? (d : Draft) (before : Option Char) (c : Char) (rest : List Char) : Option (Draft × Nat) :=
  match c with
  | '?' => some (d.push .any, 0)
  | '*' =>
    match rest with
    | '*' :: rest => some (d.twoStars before rest.head?)
    | _ => some (d.push .star, 0)
  | '[' => if d.plainBrackets then some (d.pushChar '[', 0) else set? d rest
  | '\x7b' => some (d.openBrace, 0)
  | '\x7d' => d.closeBrace?.map fun d => (d, 0)
  | ',' => some (d.comma, 0)
  | '\\' =>
    match rest with
    | [] => none
    | c :: _ => some (d.pushChar c, 1)
  | c => some (d.pushChar c, 0)

/-- Reads character after character; `skip` of them have been read already. -/
def readFrom (skip : Nat) (before : Option Char) (d : Draft) : List Char → Option Draft
  | [] => some d
  | c :: rest =>
    match skip with
    | skip + 1 => readFrom skip (some c) d rest
    | 0 =>
      match read? d before c rest with
      | none => none
      | some (d, skip) => readFrom skip (some c) d rest

/-- Reads a pattern. -/
def parse? (cs : List Char) : Option Pattern :=
  (readFrom 0 none {} cs).bind fun d => if d.braces.isEmpty then some d.pieces.reverse else none

end Pattern

end Coupling.Ignore
