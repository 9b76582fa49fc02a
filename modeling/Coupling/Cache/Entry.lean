import Coupling.Cache.Timestamp
import Coupling.Finding.Record
import Coupling.Json.Printer

/-!
# Cache entries

The findings of a file as they are kept on disk, with the path they were found under.
-/

namespace Coupling.Cache

structure Entry where
  path : String
  findings : List Finding
deriving DecidableEq

namespace Entry

def fieldNames : List String := ["file_path", "created", "violations"]

/-- The timestamp of entries. No look-up depends on it, so all entries have the same. -/
def created : String := "1970-01-01T00:00:00Z"

def encode (e : Entry) : Json :=
  .obj (fieldNames.zip [.str e.path, .str created, .arr (e.findings.map Finding.encode)])

def decode? (r : Json.Raw) : Option Entry := do
  match ← r.record? fieldNames with
  | [path, created, findings] =>
    guard (Timestamp.isValid (← created.read? Json.text?))
    return ⟨← path.read? Json.text?, ← findings.list? Finding.decode?⟩
  | _ => none

def toBytes (e : Entry) : Text.Bytes := Text.encode e.encode.compress

def ofBytes? (bytes : Text.Bytes) : Option Entry := (Json.Raw.parse? bytes).bind decode?

end Entry

end Coupling.Cache
