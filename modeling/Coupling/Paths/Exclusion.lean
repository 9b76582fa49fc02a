import Coupling.Paths.Glob
import Coupling.Paths.Path
import Coupling.Text.Search

/-!
# Exclusions

Patterns for paths that are left out. A pattern with a slash at its end names directories, one with
a wildcard describes a path or a file name, and any other one is a text to look for. All of them are
about the texts by which paths are shown.
-/

namespace Coupling.Paths

inductive Exclusion where
  | directory (glob : Glob)
  | glob (glob : Glob)
  | text (s : String)
deriving DecidableEq, Repr

namespace Exclusion

def hasWildcard (cs : List Char) : Bool := cs.any fun c => c == '*' || c == '?' || c == '['

/-- Reads a pattern; a malformed one is nothing. -/
def parse? (raw : String) : Option Exclusion :=
  let cs := raw.toList
  if cs.getLast? = some '/' then
    (Glob.parse (String.ofList cs.dropLast)).toOption.map .directory
  else if hasWildcard cs then (Glob.parse raw).toOption.map .glob
  else some (.text raw)

/-- The names of the directories that a path goes through, itself included if it is one. -/
def directories (path : Path) (isDir : Bool) : List Path :=
  let names := (components path).filterMap fun
    | .normal name => some name
    | _ => none
  if isDir then names else names.dropLast

def excludes (e : Exclusion) (path : Path) (isDir : Bool) : Bool :=
  match e with
  | .directory g => (directories path isDir).any fun name => g.accepts name.text
  | .glob g =>
    !isDir && (g.accepts path.text || g.accepts (((fileName? path).map Path.text).getD ""))
  | .text s => Text.occurs s.toList path.text.toList

end Exclusion

/-- The exclusions of the well-formed patterns. -/
def exclusionsOf (patterns : List String) : List Exclusion := patterns.filterMap Exclusion.parse?

/-- Some exclusion leaves the path out. -/
def isExcluded (exclusions : List Exclusion) (path : Path) (isDir : Bool) : Bool :=
  exclusions.any fun e => e.excludes path isDir

end Coupling.Paths
