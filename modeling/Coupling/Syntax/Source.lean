import Coupling.Finding.Basic
import Coupling.Syntax.Search
import Coupling.Text.Blank
import Coupling.Text.Lines

/-!
# Source files

The text of a file with its syntax tree. A file whose bytes are not text, or whose tree has a fault,
has no source; the finding that says so is made here.
-/

namespace Coupling.Syntax

/-- The bytes of a file and the tree that the grammar assigns to their text. -/
structure Document where
  bytes : Text.Bytes
  tree : Option Tree

/-- A text with the offsets of its lines. -/
structure SourceText where
  chars : List Char
  starts : List Nat
  starts_eq : starts = Text.lineStarts chars

namespace SourceText

def ofChars (chars : List Char) : SourceText := ⟨chars, Text.lineStarts chars, rfl⟩

/-- The line of that number, without its ending. -/
def line? (s : SourceText) (n : Nat) : Option String :=
  match n with
  | 0 => none
  | k + 1 =>
    s.starts[k]?.bind fun start =>
      let stop := (s.starts[k + 1]?.map (· - 1)).getD (Text.byteSize s.chars)
      (Text.slice? s.chars start stop).map fun cs => String.ofList (Text.dropReturn cs)

/-- At most `count` lines from a number on, up to the first that is missing. -/
def linesFrom (s : SourceText) (n : Nat) : (count : Nat) → List String
  | 0 => []
  | count + 1 =>
    match s.line? n with
    | none => []
    | some line => line :: linesFrom s (n + 1) count

/-- The lines between two numbers, as far as the file has them. -/
def linesBetween (s : SourceText) (first last : Nat) : List String :=
  s.linesFrom (max first 1) (last + 1 - max first 1)

/-- The place of a byte offset. -/
def place (s : SourceText) (offset : Nat) : Place :=
  let before := s.starts.takeWhile (· ≤ offset)
  ⟨before.length, offset - before.getLastD 0⟩

/-- The text of a node, empty if its offsets fall inside characters. -/
def text (s : SourceText) (t : Tree) : String :=
  String.ofList ((Text.slice? s.chars t.label.start t.label.stop).getD [])

/-- The place at which a node starts. -/
def placeOf (s : SourceText) (t : Tree) : Place := s.place t.label.start

/-- Lines between the start and the end of a node. -/
def span (s : SourceText) (t : Tree) : Nat :=
  (s.place t.label.stop).line - (s.place t.label.start).line

end SourceText

/-- A file without syntax faults. -/
structure Source where
  path : String
  text : SourceText
  root : Tree

/-- Characters of a faulty text that are quoted. -/
def quotedChars : Nat := 40

def syntaxFinding (path : String) (place : Place) (description : String) : Finding :=
  .new .parseError .critical path place description
    "Fix syntax errors before analyzing connascence" []

/-- What is wrong at a node that is an error or missing. -/
def faultText (text : SourceText) (t : Tree) : String :=
  if t.label.missing then s!"Syntax error: missing '{t.kind.name}'"
  else
    let first := (text.text t).toList.takeWhile (· ≠ '\n')
    let quoted := String.ofList (Text.trim (first.take quotedChars))
    s!"Syntax error: invalid syntax near '{quoted}'"

/-- The place after some bytes. -/
def placeAfter (bytes : Text.Bytes) : Place :=
  ⟨bytes.count 0x0a + 1, (bytes.reverse.takeWhile (· ≠ 0x0a)).length⟩

def encodingFinding (path : String) (valid : Text.Bytes) : Finding :=
  let place := placeAfter valid
  syntaxFinding path place
    s!"Syntax error: file is not valid UTF-8 (invalid byte at line {place.line})"

/-- The source of a document, or the finding that says why it has none. -/
def Source.ofDocument (path : String) (doc : Document) : Except Finding Source :=
  match Text.decodePrefix doc.bytes with
  | (_, left@(_ :: _)) =>
    .error (encodingFinding path (doc.bytes.take (doc.bytes.length - left.length)))
  | (chars, []) =>
    match doc.tree with
    | none => .error (syntaxFinding path .fileStart "Syntax error: parser produced no tree")
    | some root =>
      let text := SourceText.ofChars chars
      match if root.label.faulty then (Focus.root root).firstFault? else none with
      | some f => .error (syntaxFinding path (text.placeOf f.tree) (faultText text f.tree))
      | none => .ok ⟨path, text, root⟩

end Coupling.Syntax
