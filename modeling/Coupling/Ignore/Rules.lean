import Coupling.Disk.Basic
import Coupling.Ignore.Pattern
import Coupling.Text.Blank
import Coupling.Text.Lines

/-!
# Ignore rules

A directory may hold files of rules for what is below it. Rules of inner directories go before those
of outer ones, and within a file the last rule that matches decides. Rules for version control count
only within a repository.
-/

namespace Coupling.Ignore

open Text

structure Rule where
  pattern : Pattern
  /-- The rule takes back what an earlier one ignores. -/
  keeps : Bool
  directoriesOnly : Bool

namespace Rule

/-- A line without blanks at its end, unless a backslash holds the last one. -/
def trimLine (line : List Char) : List Char :=
  if line.reverse.take 2 = [' ', '\\'] then line else dropWhileEnd isBlank line

/-- Splits off the marks at the front of a rule: whether it keeps, whether it is anchored. -/
def marks (line : List Char) : Bool × Bool × List Char :=
  match line with
  | '\\' :: '!' :: _ | '\\' :: '#' :: _ => (false, false, line.drop 1)
  | _ =>
    let (keeps, line) := match line with
      | '!' :: rest => (true, rest)
      | _ => (false, line)
    match line with
    | '/' :: rest => (keeps, true, rest)
    | _ => (keeps, false, line)

/-- Splits off a slash at the end of a rule, with the backslash that may stand before it. -/
def endSlash (line : List Char) : Bool × List Char :=
  match line.reverse with
  | '/' :: '\\' :: rest => (true, rest.reverse)
  | '/' :: rest => (true, rest.reverse)
  | _ => (false, line)

/-- A rule without a slash applies in every directory below. -/
def anywhere (line : List Char) : List Char :=
  if line = ['*', '*'] ∨ ['*', '*', '/'].isPrefixOf line then line else '*' :: '*' :: '/' :: line

/-- Everything in a directory does not include the directory. -/
def inside (line : List Char) : List Char :=
  if ['/', '*', '*'].isSuffixOf line then line ++ ['/', '*'] else line

/-- Reads a line. Comments, empty lines and malformed patterns are no rules. -/
def parse? (line : List Char) : Option Rule :=
  if line.head? = some '#' then none
  else
    let line := trimLine line
    if line.isEmpty then none
    else
      let (keeps, anchored, line) := marks line
      let (directoriesOnly, line) := endSlash line
      let line := if anchored || line.contains '/' then line else anywhere line
      (Pattern.parse? (inside line)).map fun pattern => ⟨pattern, keeps, directoriesOnly⟩

def applies (r : Rule) (path : Bytes) (isDir : Bool) : Bool :=
  (!r.directoriesOnly || isDir) && r.pattern.accepts path

end Rule

/-- The rules of a file, up to a line that is not text. A byte order mark at its front means
nothing. -/
def rulesOf (bytes : Bytes) : List Rule :=
  let lines : List (List Char) := match decodePrefix bytes with
    | (chars, []) => pieces chars
    | (chars, _) => (pieces chars).dropLast
  let marked : List (List Char) := match lines with
    | first :: rest => first.dropWhile (·.toNat == 0xfeff) :: rest
    | [] => []
  marked.filterMap fun line => Rule.parse? (dropReturn line)

/-- Whether rules ignore a path, if any of them applies: the last one decides. -/
def judge (rules : List Rule) (path : Bytes) (isDir : Bool) : Option Bool :=
  (rules.reverse.find? fun r => r.applies path isDir).map fun r => !r.keeps

/-- The rules that a directory holds. -/
structure Rulebook where
  own : List Rule
  versioned : List Rule
  excluded : List Rule
  isRepository : Bool

/-- The rules of the file at a location, none if it cannot be read. -/
def rulesAt (d : Disk) (location : Location) : List Rule :=
  match d.node? location with
  | some (.file document _) => rulesOf document.bytes
  | _ => []

def Rulebook.ofDirectory (d : Disk) (here : Location) : Rulebook where
  own := rulesAt d (here ++ [".ignore"].map Path.ofText)
  versioned := rulesAt d (here ++ [".gitignore"].map Path.ofText)
  excluded := rulesAt d (here ++ [".git", "info", "exclude"].map Path.ofText)
  isRepository := [".git", ".jj"].any fun name => (d.node? (here ++ [.ofText name])).isSome

/-- Names as one path. -/
def pathOf (names : List Path) : Path := ⟨[Paths.slash].intercalate (names.map (·.bytes))⟩

/-- The directories above a location, innermost first, with the path of the location below each. -/
def views (location : Location) : List (Location × Bytes) :=
  (List.range location.length).reverse.map fun n =>
    (location.take n, (pathOf (location.drop n)).bytes)

/-- The front of a list up to the first item that passes a test; nothing if none does. -/
def upTo {α : Type} (p : α → Bool) (xs : List α) : List α :=
  if xs.any p then xs.takeWhile (fun x => !p x) ++ (xs.find? p).toList else []

/-- Some rule on the way to a location says that it is ignored. -/
def isIgnored (d : Disk) (location : Location) (isDir : Bool) : Bool :=
  let books := (views location).map fun (here, path) => (Rulebook.ofDirectory d here, path)
  let repository := upTo (fun b => b.1.isRepository) books
  let verdict := (books.findSome? fun (b, path) => judge b.own path isDir).or <|
    (repository.findSome? fun (b, path) => judge b.versioned path isDir).or <|
    repository.findSome? fun (b, path) => judge b.excluded path isDir
  verdict == some true

end Coupling.Ignore
