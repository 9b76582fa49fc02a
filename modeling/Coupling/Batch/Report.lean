import Coupling.Batch.Meter
import Coupling.Batch.Worker
import Coupling.Finding.Summary

/-!
# Reports on batches
-/

namespace Coupling

/-- Told after each file. -/
structure Progress where
  completed : Nat
  total : Nat
  path : Path
deriving DecidableEq, Repr

/-- Findings in the order of the texts of their paths, of their places and of their identities. -/
def Finding.precedes (a b : Finding) : Bool :=
  ((compare a.path b.path).then <| (compare a.place.line b.place.line).then <|
    (compare a.place.column b.place.column).then <| compare a.id b.id).isLE

/-- What came of a batch. -/
structure Report where
  /-- Number of files in the batch. -/
  total : Nat
  /-- The outcomes, in the order in which the files were completed. -/
  outcomes : List Outcome
  /-- A stop was requested before the end. -/
  stopRequested : Bool
  /-- Number of workers, when it does not depend on the machine. -/
  workers : Option Nat
  parallel : Bool

namespace Report

def findings (r : Report) : List Finding := r.outcomes.flatMap (·.findings)

def sortedFindings (r : Report) : List Finding := r.findings.mergeSort Finding.precedes

def meter (r : Report) : Meter := r.outcomes.foldl (fun m o => m.record o.lines o.hit) {}

def summary (r : Report) : Summary := .ofFindings r.findings

/-- A request to stop left files out. -/
def stopped (r : Report) : Bool := r.stopRequested && r.outcomes.length < r.total

def progress (r : Report) : List Progress :=
  r.outcomes.zipIdx.map fun (o, i) => ⟨i + 1, r.total, o.path⟩

end Report

end Coupling
