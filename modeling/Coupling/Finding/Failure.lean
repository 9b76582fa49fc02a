import Coupling.Finding.Basic

/-!
# Files that could not be processed
-/

namespace Coupling.Finding

/-- The finding about a file that could not be processed. -/
def failure (path message : String) : Finding :=
  .new .processingError .critical path .fileStart s!"Failed to process file: {message}"
    "Check file encoding and permissions" []

/-- The finding about a file that could not be read. -/
def unreadable (path cause : String) : Finding := failure path s!"cannot read file: {cause}"

end Coupling.Finding
