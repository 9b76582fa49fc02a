import Coupling.Text.Utf8
import Std.Data.TreeMap

/-!
# Paths

A path is what the disk knows a file by: bytes, which need not be those of a text. Its components
are what lies between slashes. Repeated slashes and single dots mean nothing, except for a dot at
the front. Findings and messages show a path as a text, and different paths may be shown alike.
-/

namespace Coupling

/-- A path, or a name in a directory. -/
@[ext]
structure Path where
  bytes : Text.Bytes
deriving DecidableEq, Repr

namespace Path

def ofText (s : String) : Path := ⟨Text.encode s⟩

instance : Coe String Path := ⟨ofText⟩

/-- How a path is shown. -/
def text (path : Path) : String := String.ofList (Text.lossy path.bytes)

/-- Paths are ordered by their bytes. -/
instance : Ord Path := ⟨compareOn bytes⟩

instance : Std.TransOrd Path := inferInstanceAs (Std.TransCmp (compareOn bytes))

instance : Std.LawfulEqOrd Path where
  eq_of_compare h := Path.ext (Std.LawfulEqCmp.eq_of_compare h)

end Path

namespace Paths

open Text (Bytes)

def slash : UInt8 := 0x2f

def dot : UInt8 := 0x2e

inductive Component where
  | root
  | here
  | up
  | normal (name : Path)
deriving DecidableEq, Repr

namespace Component

/-- Position among the components that are not names. -/
def rank : Component → Nat
  | .root => 0
  | .here => 1
  | .up => 2
  | .normal _ => 3

/-- Components in their order: the root, the dots, then names by their bytes. -/
def le (a b : Component) : Bool :=
  match a, b with
  | .normal x, .normal y => (compare x y).isLE
  | a, b => a.rank ≤ b.rank

end Component

/-- The pieces of a path between slashes. -/
def segments : Bytes → List Bytes
  | [] => [[]]
  | b :: bytes =>
    if b = slash then [] :: segments bytes
    else
      match segments bytes with
      | [] => [[b]]
      | s :: rest => (b :: s) :: rest

/-- The component of a piece that does not start the path. -/
def component? (segment : Bytes) : Option Component :=
  if segment = [] ∨ segment = [dot] then none
  else if segment = [dot, dot] then some .up
  else some (.normal ⟨segment⟩)

def components (path : Path) : List Component :=
  match segments path.bytes with
  | [] => []
  | first :: rest =>
    let front :=
      if first.isEmpty then if rest.isEmpty then [] else [.root]
      else if first = [dot] then [.here]
      else (component? first).toList
    front ++ rest.filterMap component?

/-- The name at the end of a path. -/
def fileName? (path : Path) : Option Path :=
  match (components path).getLast? with
  | some (.normal name) => some name
  | _ => none

/-- What follows the last dot of a name, unless the dot starts the name. -/
def extension? (path : Path) : Option Path :=
  (fileName? path).bind fun name =>
    let after := (name.bytes.reverse.takeWhile (· ≠ dot)).reverse
    if after.length + 1 < name.bytes.length then some ⟨after⟩ else none

/-- A path below another; an absolute one stands for itself. -/
def join (base path : Path) : Path :=
  if path.bytes.head? = some slash then path
  else if base.bytes = [] ∨ base.bytes.getLast? = some slash then ⟨base.bytes ++ path.bytes⟩
  else ⟨base.bytes ++ slash :: path.bytes⟩

/-- Lists of components in lexicographic order. -/
def leComponents : List Component → List Component → Bool
  | [], _ => true
  | _ :: _, [] => false
  | a :: as, b :: bs => if a = b then leComponents as bs else a.le b

def lePaths (a b : Path) : Bool := leComponents (components a) (components b)

/-- Length of the front that cannot be popped piece by piece: a root or a dot. -/
def frontLength : Bytes → Nat
  | [] => 0
  | b :: rest =>
    if b = slash ∨ b = dot ∧ (rest = [] ∨ rest.head? = some slash) then 1 else 0

/-- Drops pieces that are no components from the end of a reversed path. -/
def trimEnd : Nat → Bytes → Bytes
  | 0, body => body
  | fuel + 1, body =>
    let piece := body.takeWhile (· ≠ slash)
    if body.isEmpty then []
    else if piece.isEmpty || piece = [dot] then trimEnd fuel (body.drop (piece.length + 1))
    else body

/-- The path without its last component; the root and the empty path have none to drop. -/
def parent? (path : Path) : Option Path :=
  let n := frontLength path.bytes
  let front := path.bytes.take n
  let body := trimEnd path.bytes.length (path.bytes.drop n).reverse
  if body.isEmpty then
    if front = [dot] then some ⟨[]⟩ else none
  else
    let rest := trimEnd path.bytes.length (body.dropWhile (· ≠ slash))
    some ⟨front ++ rest.reverse⟩

/-- A path and the paths above it, at most `count` of them. -/
def ancestors : Nat → Path → List Path
  | 0, _ => []
  | count + 1, path => path :: (match parent? path with
    | some up => ancestors count up
    | none => [])

end Paths

end Coupling
