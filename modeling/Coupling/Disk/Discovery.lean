import Coupling.Disk.Basic
import Coupling.Ignore.Rules
import Coupling.Paths.Exclusion

/-!
# Files to analyze

Below a directory these are the files with the extension `py` that no exclusion leaves out and no
rule ignores. A directory that is left out or ignored is not entered.
-/

namespace Coupling.Discovery

open Paths

/-- The extension of the files that are looked for. -/
def sourceExtension : Path := .ofText "py"

/-- A search below a directory. -/
structure Search where
  disk : Disk
  root : Location
  exclusions : List Exclusion

namespace Search

/-- What has these names below the directory is neither left out nor ignored. -/
def admits (s : Search) (names : List Path) (isDir : Bool) : Bool :=
  !isExcluded s.exclusions (Ignore.pathOf names) isDir &&
    !Ignore.isIgnored s.disk (s.root ++ names) isDir

/-- The search gets to a file: it enters all directories on the way. -/
def reaches (s : Search) (above : List Path) : List Path → Bool
  | [] => false
  | [name] =>
    extension? name == some sourceExtension && s.admits (above ++ [name]) false
  | name :: rest => s.admits (above ++ [name]) true && s.reaches (above ++ [name]) rest

/-- The names of all files below the directory. -/
def candidates (s : Search) : List (List Path) :=
  s.disk.nodes.toList.filterMap fun (location, node) =>
    match node with
    | .file .. => if s.root.isPrefixOf location then some (location.drop s.root.length) else none
    | .directory => none

def found (s : Search) : List (List Path) := s.candidates.filter (s.reaches [])

end Search

/-- The source files at a path: itself if it is a file, or what is found below it, in the order of
their components. -/
def sourceFiles (d : Disk) (exclusions : List String) (root : Path) :
    Except DiskError (List Path) :=
  match d.locate root with
  | .error e => .error e
  | .ok here =>
    match d.node? here with
    | none => .error .notFound
    | some (.file ..) => .ok [root]
    | some .directory =>
      let search : Search := ⟨d, here, exclusionsOf exclusions⟩
      .ok ((search.found.map fun names => names.foldl join root).mergeSort lePaths)

end Coupling.Discovery
