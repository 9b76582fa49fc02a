import Coupling.Disk.Basic

/-!
# Changes of the disk
-/

namespace Coupling.Disk

open Syntax

/-- Writes a whole file; its directory has to be there. -/
def write (d : Disk) (path : Path) (document : Document) (modified : Int) :
    Except DiskError Disk :=
  match d.locate path with
  | .error e => .error e
  | .ok here =>
    match d.node? here with
    | some .directory => .error .isDirectory
    | _ => .ok (d.put here (.file document modified))

/-- Makes the directories that some pieces of a path name. -/
def makeFrom (d : Disk) (here : Location) : List Text.Bytes → Except DiskError Disk
  | [] => .ok d
  | segment :: rest =>
    let next := step here segment
    match d.node? next with
    | some .directory => d.makeFrom next rest
    | some (.file ..) => .error (if rest.all (·.isEmpty) then .occupied else .notDirectory)
    | none => (d.put next .directory).makeFrom next rest

/-- Makes a directory and those above it, as far as they are missing. -/
def makeDirectories (d : Disk) (path : Path) : Except DiskError Disk :=
  match path.bytes with
  | [] => .ok d
  | b :: rest =>
    if b = Paths.slash then d.makeFrom [] (Paths.segments rest)
    else d.makeFrom d.workDir (Paths.segments (b :: rest))

/-- Writes a file and makes the directories above it. -/
def place (d : Disk) (path : Path) (document : Document) (modified : Int) :
    Except DiskError Disk :=
  match d.makeDirectories ((Paths.parent? path).getD ⟨[]⟩) with
  | .error e => .error e
  | .ok d => d.write path document modified

/-- Sets the time of the last change of a file. -/
def touch (d : Disk) (path : Path) (modified : Int) : Except DiskError Disk :=
  match d.read path with
  | .error e => .error e
  | .ok document => d.write path document modified

/-- Everything but what is at a location and below it. -/
def without (d : Disk) (here : Location) : Disk :=
  { d with nodes := d.nodes.filter fun location _ => !here.isPrefixOf location }

/-- Removes a file, or a directory with all that is in it. -/
def remove (d : Disk) (path : Path) : Except DiskError Disk :=
  match d.locate path with
  | .error e => .error e
  | .ok here => if (d.node? here).isNone then .error .notFound else .ok (d.without here)

/-- Removes a file; anything else stays. -/
def removeFile (d : Disk) (path : Path) : Except DiskError Disk :=
  match d.locate path with
  | .error e => .error e
  | .ok here =>
    match d.node? here with
    | none => .error .notFound
    | some .directory => .error .isDirectory
    | some (.file ..) => .ok { d with nodes := d.nodes.erase here }

/-- The disk after what is at a location, and below it, has gone to another one. -/
def moved (d : Disk) (source target : Location) : Disk :=
  let inside := d.nodes.toList.filter fun (location, _) => source.isPrefixOf location
  inside.foldl (fun d (location, node) => d.put (target ++ location.drop source.length) node)
    (d.without source)

/-- Whether something may take the place of what is at a location. -/
def mayReplace (d : Disk) (node : DiskNode) (target : Location) : Except DiskError Unit :=
  match node, d.node? target with
  | _, none => .ok ()
  | .file .., some (.file ..) => .ok ()
  | .file .., some .directory => .error .isDirectory
  | .directory, some (.file ..) => .error .notDirectory
  | .directory, some .directory => if (d.namesIn target).isEmpty then .ok () else .error .notEmpty

/-- Renames a file or a directory. A file that was there before is replaced. -/
def rename (d : Disk) (old new : Path) : Except DiskError Disk := do
  let source ← d.locate old
  let some node := d.node? source | .error .notFound
  let target ← d.locate new
  if source = target then return d
  if source.isPrefixOf target then throw .withinItself
  d.mayReplace node target
  return d.moved source target

end Coupling.Disk
