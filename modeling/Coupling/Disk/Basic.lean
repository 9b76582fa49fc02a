import Coupling.Paths.Path
import Coupling.Syntax.Source

/-!
# The disk

Directories and files by their locations. A path is followed name by name from the working
directory, and everything on the way has to be a directory.
-/

namespace Coupling

/-- Names from the root down. -/
abbrev Location := List Path

inductive DiskNode where
  | directory
  /-- A file and the time of its last change, in nanoseconds since the epoch. -/
  | file (document : Syntax.Document) (modified : Int)

namespace DiskNode

/-- The time of the last change; only files keep one. -/
def modified : DiskNode → Int
  | .directory => 0
  | .file _ modified => modified

/-- The number of bytes; only files have any. -/
def size : DiskNode → Nat
  | .directory => 0
  | .file document _ => document.bytes.length

end DiskNode

/-- Why the disk refuses an operation. -/
inductive DiskError where
  | notFound
  | occupied
  | notDirectory
  | isDirectory
  | withinItself
  | notEmpty
  | notText
deriving DecidableEq, Repr

namespace DiskError

def message : DiskError → String
  | .notFound => "No such file or directory (os error 2)"
  | .occupied => "File exists (os error 17)"
  | .notDirectory => "Not a directory (os error 20)"
  | .isDirectory => "Is a directory (os error 21)"
  | .withinItself => "Invalid argument (os error 22)"
  | .notEmpty => "Directory not empty (os error 39)"
  | .notText => "stream did not contain valid UTF-8"

/-- The message with the path that was asked for. -/
def report (e : DiskError) (path : Path) : String :=
  s!"File system error at {path.text}: {e.message}"

end DiskError

structure Disk where
  workDir : Location
  nodes : Std.TreeMap Location DiskNode

namespace Disk

/-- A disk with nothing but its working directory. -/
def blank (workDir : Location) : Disk :=
  let above : List (Location × DiskNode) :=
    (List.range workDir.length).map fun n => (workDir.take (n + 1), .directory)
  ⟨workDir, .ofList above⟩

/-- What is at a location. The root is always there. -/
def node? (d : Disk) (here : Location) : Option DiskNode :=
  if here = [] then some .directory else d.nodes[here]?

def put (d : Disk) (here : Location) (node : DiskNode) : Disk :=
  { d with nodes := d.nodes.insert here node }

/-- Where a piece of a path leads from a directory. -/
def step (here : Location) (segment : Text.Bytes) : Location :=
  if segment = [] ∨ segment = [Paths.dot] then here
  else if segment = [Paths.dot, Paths.dot] then here.dropLast
  else here ++ [⟨segment⟩]

/-- Follows the pieces of a path. Nothing has to be at its end. -/
def follow (d : Disk) (here : Location) : List Text.Bytes → Except DiskError Location
  | [] => .ok here
  | segment :: rest =>
    match d.node? here with
    | none => .error .notFound
    | some (.file ..) => .error .notDirectory
    | some .directory => d.follow (step here segment) rest

/-- The location that a path means; the empty path means none. -/
def locate (d : Disk) (path : Path) : Except DiskError Location :=
  match path.bytes with
  | [] => .error .notFound
  | b :: rest =>
    if b = Paths.slash then d.follow [] (Paths.segments rest)
    else d.follow d.workDir (Paths.segments (b :: rest))

/-- What a path leads to. -/
def look (d : Disk) (path : Path) : Except DiskError DiskNode :=
  match d.locate path with
  | .error e => .error e
  | .ok here =>
    match d.node? here with
    | some node => .ok node
    | none => .error .notFound

def read (d : Disk) (path : Path) : Except DiskError Syntax.Document :=
  match d.look path with
  | .error e => .error e
  | .ok .directory => .error .isDirectory
  | .ok (.file document _) => .ok document

/-- The text of a file. -/
def readText (d : Disk) (path : Path) : Except DiskError (List Char) :=
  match d.read path with
  | .error e => .error e
  | .ok document =>
    match Text.decode? document.bytes with
    | some chars => .ok chars
    | none => .error .notText

/-- Names in a directory, in the order of their bytes. -/
def namesIn (d : Disk) (here : Location) : List Path :=
  d.nodes.keys.filterMap fun location =>
    if location.dropLast = here then location.getLast? else none

def list (d : Disk) (path : Path) : Except DiskError (List Path) :=
  match d.locate path with
  | .error e => .error e
  | .ok here =>
    match d.node? here with
    | none => .error .notFound
    | some (.file ..) => .error .notDirectory
    | some .directory => .ok (d.namesIn here)

end Disk

end Coupling
