import Coupling.Function.Shape
import Coupling.Finding.Basic
import Coupling.Settings.Basic
import Std.Data.HashMap

/-!
# Duplicated algorithms

Functions whose bodies have the same shape repeat an algorithm. The first of them is the model, and
every later one is reported once.
-/

namespace Coupling

/-- A function met on the way through a file. -/
structure Routine where
  name : String
  place : Place
  shape : Shape
deriving DecidableEq, Repr

namespace Duplicate

/-- Number of routines with each digest. -/
def groupSizes (routines : List Routine) : Std.HashMap UInt64 Nat :=
  routines.foldl (fun sizes r => sizes.alter r.shape.digest fun n => some (n.getD 0 + 1)) ∅

def finding (path : String) (copy model : Routine) (group : Nat) : Finding :=
  .new .algorithm .medium path copy.place
    s!"Function '{copy.name}' duplicates algorithm from '{model.name}'"
    "Extract common algorithm into shared function or module"
    [("function_name", .str copy.name), ("similar_function", .str model.name),
     ("original_line", .nat model.place.line), ("duplicate_count", .nat group),
     ("statement_count", .nat copy.shape.statements),
     ("signature", .str (Digest.hex64 copy.shape.digest)), ("issue_type", .str "code_duplication")]

/-- Reports the routines whose digest has a model already; the others become models. -/
def reportFrom (path : String) (sizes : Std.HashMap UInt64 Nat)
    (models : Std.HashMap UInt64 Routine) : List Routine → List Finding
  | [] => []
  | r :: rest =>
    match models[r.shape.digest]? with
    | some model =>
      finding path r model (sizes[r.shape.digest]?.getD 0) :: reportFrom path sizes models rest
    | none => reportFrom path sizes (models.insert r.shape.digest r) rest

/-- The duplicates among the routines that are long enough. -/
def check (l : Limits) (path : String) (routines : List Routine) : List Finding :=
  let eligible := routines.filter fun r => l.duplicateStatementMinimum ≤ r.shape.statements
  reportFrom path (groupSizes eligible) ∅ eligible

end Duplicate

end Coupling
