import Coupling.Cache.Entry
import Coupling.Disk.Change
import Coupling.Number.Fixed

/-!
# The cache of results

Findings are kept in memory and on disk under a key that depends on the path, the content, the time
of the last change and the size of a file. Of the path it is the text that counts. Memory holds a
bounded number of results, and the oldest leave first. Failures of the disk are misses.
-/

namespace Coupling

namespace Cache

/-- What the key of a result depends on. -/
structure FileState where
  path : Path
  bytes : Text.Bytes
  /-- Nanoseconds since the epoch; earlier times count as zero. -/
  modified : Nat
  size : Nat
deriving DecidableEq

namespace FileState

/-- The state of a file with content that was read before, if there is something at its path. -/
def ofDisk? (d : Disk) (path : Path) (bytes : Text.Bytes) : Option FileState :=
  (d.look path).toOption.map fun node => ⟨path, bytes, node.modified.toNat, node.size⟩

/-- The bytes that are digested: the text of the path up to a zero byte, the content, the time and
the size. -/
def canonical (s : FileState) : Text.Bytes :=
  Text.encode s.path.text ++ 0 :: s.bytes ++ Digest.littleEndian 16 s.modified ++
    Digest.littleEndian 8 s.size

/-- The file name with dots and blanks replaced. -/
def stem (path : Path) : String :=
  match Paths.fileName? path with
  | some name =>
    String.ofList (name.text.toList.map fun c => if c = '.' ∨ c = ' ' then '_' else c)
  | none => "file"

/-- Hexadecimal digits of a key. -/
def keyDigits : Nat := 16

def key (s : FileState) : String :=
  let digest := Digest.Sha256.hexDigest s.canonical
  stem s.path ++ "_" ++ String.ofList (digest.toList.take keyDigits)

end FileState

end Cache

structure ResultCache where
  directory : Path
  /-- Number of results in memory, at least one. -/
  capacity : Nat
  memory : Std.TreeMap String (List Finding) := ∅
  /-- The keys in memory, oldest first. -/
  order : List String := []
  hits : Nat := 0
  misses : Nat := 0

namespace ResultCache

open Cache

/-- Opens a cache and makes its directory. -/
def create (d : Disk) (directory : Path) (capacity : Nat) :
    Except DiskError (ResultCache × Disk) :=
  (d.makeDirectories directory).map fun d => (⟨directory, max capacity 1, ∅, [], 0, 0⟩, d)

def entryPath (c : ResultCache) (key : String) : Path :=
  Paths.join c.directory (.ofText (key ++ ".json"))

/-- Keeps a result in memory. A new key goes to the end, and the oldest ones leave. -/
def remember (c : ResultCache) (key : String) (findings : List Finding) : ResultCache :=
  let memory := c.memory.insert key findings
  if c.memory.contains key then { c with memory := memory }
  else
    let order := c.order ++ [key]
    let excess := order.length - c.capacity
    { c with memory := (order.take excess).foldl (·.erase ·) memory, order := order.drop excess }

/-- What the disk says about a key. -/
inductive Stored where
  | absent
  | damaged
  | found (findings : List Finding)

/-- Looks for an entry on disk; one for another path does not count. -/
def stored (c : ResultCache) (d : Disk) (key : String) (path : Path)
    (read? : Text.Bytes → Option Entry := Entry.ofBytes?) : Stored :=
  match d.read (c.entryPath key) with
  | .error .notFound => .absent
  | .error _ => .damaged
  | .ok document =>
    match read? document.bytes with
    | none => .damaged
    | some e => if e.path = path.text then .found e.findings else .absent

/-- An answer of the cache, with what it left behind. -/
structure Answer where
  found : Option (List Finding)
  cache : ResultCache
  disk : Disk

def miss (c : ResultCache) (d : Disk) : Answer := ⟨none, { c with misses := c.misses + 1 }, d⟩

def hit (c : ResultCache) (d : Disk) (findings : List Finding) : Answer :=
  ⟨some findings, { c with hits := c.hits + 1 }, d⟩

/-- The result for a path whose content was read before. A damaged entry is removed. -/
def getBytes (c : ResultCache) (d : Disk) (path : Path) (bytes : Text.Bytes)
    (read? : Text.Bytes → Option Entry := Entry.ofBytes?) : Answer :=
  match FileState.ofDisk? d path bytes with
  | none => c.miss d
  | some state =>
    match c.memory[state.key]? with
    | some findings => c.hit d findings
    | none =>
      match c.stored d state.key path read? with
      | .found findings => (c.remember state.key findings).hit d findings
      | .absent => c.miss d
      | .damaged => c.miss ((d.removeFile (c.entryPath state.key)).toOption.getD d)

/-- The result for the present content of a file. -/
def get (c : ResultCache) (d : Disk) (path : Path) : Answer :=
  match d.read path with
  | .ok document => c.getBytes d path document.bytes
  | .error _ => c.miss d

/-- Keeps the result for a path whose content was read before. -/
def setBytes (c : ResultCache) (d : Disk) (path : Path) (bytes : Text.Bytes)
    (findings : List Finding) : ResultCache × Disk :=
  match FileState.ofDisk? d path bytes with
  | none => (c, d)
  | some state =>
    let entry : Entry := ⟨path.text, findings⟩
    let written := d.write (c.entryPath state.key) ⟨entry.toBytes, none⟩ 0
    (c.remember state.key findings, written.toOption.getD d)

/-- Keeps the result for the present content of a file. -/
def set (c : ResultCache) (d : Disk) (path : Path) (findings : List Finding) :
    ResultCache × Disk :=
  match d.read path with
  | .ok document => c.setBytes d path document.bytes findings
  | .error _ => (c, d)

/-- Removes the entries in a directory. -/
def clearDirectory (d : Disk) (directory : Path) : Disk :=
  match d.list directory with
  | .error _ => d
  | .ok names =>
    (names.filter fun name => Paths.extension? name == some (.ofText "json")).foldl
      (fun d name => (d.removeFile (Paths.join directory name)).toOption.getD d) d

/-- Forgets everything. -/
def clear (c : ResultCache) (d : Disk) : ResultCache × Disk :=
  (⟨c.directory, c.capacity, ∅, [], 0, 0⟩, clearDirectory d c.directory)

/-- Results in memory. -/
def entries (c : ResultCache) : Nat := c.memory.size

def hitRate (c : ResultCache) : Float :=
  if c.hits + c.misses = 0 then 0.0 else Float.ofNat c.hits / Float.ofNat (c.hits + c.misses)

def text (c : ResultCache) : String :=
  let share := Number.fixed 1 (c.hitRate * 100.0)
  s!"Cache Stats: {c.entries} entries, {c.hits} hits, {c.misses} misses, {share}% hit rate"

end ResultCache

end Coupling
