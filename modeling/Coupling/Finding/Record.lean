import Coupling.Finding.Basic
import Coupling.Json.Decode

/-!
# Findings as records
-/

namespace Coupling.Finding

def fieldNames : List String :=
  ["id", "type", "severity", "file_path", "line", "column", "description", "recommendation",
   "weight", "context"]

def encode (f : Finding) : Json :=
  .obj (fieldNames.zip
    [.str f.id, .str f.kind.label, .str f.severity.label, .str f.path, .nat f.place.line,
     .nat f.place.column, .str f.description, .str f.recommendation, .float f.weight,
     .obj f.context])

/-- How deep arrays and objects may be nested in the context. -/
def contextDepth : Nat := 124

/-- The fields of a context. -/
def context? (j : Json) : Option (List (String × Json)) :=
  match j.plain? with
  | some (.obj fields) => if j.depth ≤ contextDepth then some fields else none
  | _ => none

/-- A finding as it was written; its identity is not computed again. -/
def decode? (r : Json.Raw) : Option Finding := do
  match ← r.record? fieldNames with
  | [id, kind, severity, path, line, column, description, recommendation, weight, context] =>
    return {
      id := ← id.read? Json.text?
      kind := ← kind.read? (Json.choice? Kind.ofLabel?)
      severity := ← severity.read? (Json.choice? Severity.ofLabel?)
      path := ← path.read? Json.text?
      place := ⟨← line.read? Json.count?, ← column.read? Json.count?⟩
      description := ← description.read? Json.text?
      recommendation := ← recommendation.read? Json.text?
      weight := ← weight.read? fun j => j.plain?.bind Json.real?
      context := ← context.read? context? }
  | _ => none

end Coupling.Finding
