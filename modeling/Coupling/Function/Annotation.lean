import Coupling.Function.Signature

/-!
# Coupling by type

A public function without any annotation leaves its types for callers to guess.
-/

namespace Coupling.Annotation

/-- A receiver is never annotated, so the first parameter of a method is not looked at. -/
def check (path : String) (s : Signature) (isMethod : Bool) : List Finding :=
  let parameters := s.parameters.drop (if isMethod then 1 else 0)
  if !s.isPublic || s.returnsAnnotated || parameters.any (·.annotated) then []
  else
    [.new .type .low path s.place s!"Function '{s.name}' has no type annotations"
      "Add parameter and return type annotations to make type expectations explicit"
      [("function_name", .str s.name), ("parameter_count", .nat parameters.length)]]

end Coupling.Annotation
