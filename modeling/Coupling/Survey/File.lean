import Coupling.Disk.Basic
import Coupling.Finding.Failure
import Coupling.Survey.Walk

/-!
# Analysis of one file
-/

namespace Coupling

/-- The findings about a file and the lines it has. -/
structure Analysis where
  findings : List Finding
  lines : Nat

/-- The analysis of content that was read before. -/
def Syntax.Document.analysis (l : Limits) (path : String) (doc : Document) :
    Except Fault Analysis :=
  (doc.analyze l path).map fun findings => ⟨findings, Text.lineCount doc.bytes⟩

/-- The analysis of a file. One without a source has no lines. -/
def Disk.analysis (d : Disk) (l : Limits) (path : Path) : Except Fault Analysis :=
  match d.read path with
  | .error e => .ok ⟨[.unreadable path.text e.message], 0⟩
  | .ok doc =>
    match Syntax.Source.ofDocument path.text doc with
    | .error finding => .ok ⟨[finding], 0⟩
    | .ok source =>
      (source.analyze l).map fun findings => ⟨findings, Text.lineCount doc.bytes⟩

end Coupling
