import Coupling.Batch.Report
import Coupling.Cache.Location
import Coupling.Disk.Discovery
import Coupling.Json.Printer
import Coupling.Settings.Decode

/-!
# Batches

A batch is a list of files for one worker or several. Between two files it can be stopped, and it
then stays stopped until it is reset.
-/

namespace Coupling

structure Batch where
  settings : Settings
  environment : Cache.Environment
  stopRequested : Bool := false
  /-- Told after each file; it may answer with a request to stop. -/
  watcher : Progress → Bool := fun _ => false

namespace Batch

def stop (b : Batch) : Batch := { b with stopRequested := true }

def reset (b : Batch) : Batch := { b with stopRequested := false }

/-! ### Where results are kept -/

/-- Version of the rules that results depend on. -/
def version : String := "0.1.0"

/-- Hexadecimal digits that tell limits apart. -/
def limitDigits : Nat := 12

/-- The text of some limits that is digested. -/
def limitsText (l : Limits) : Text.Bytes := Text.encode (Settings.encodeLimits l).compress

def limitsDigest (l : Limits) : String :=
  String.ofList ((Digest.Sha256.hexDigest (limitsText l)).toList.take limitDigits)

/-- The name of the directory for results under some limits. -/
def directoryName (l : Limits) : String := "v" ++ version ++ "-" ++ limitsDigest l

/-- The directory for results, if they are kept. -/
def cacheDirectory? (b : Batch) : Option Path :=
  if b.settings.cache.enabled then
    some (Paths.join (Cache.resolveDir b.environment b.settings.cache)
      (.ofText (directoryName b.settings.limits)))
  else none

/-- Removes all results under the present limits. A failure names the directory. -/
def clearCache (b : Batch) (d : Disk) : Except (Path × DiskError) Disk :=
  match b.cacheDirectory? with
  | none => .ok d
  | some directory =>
    match ResultCache.create d directory b.settings.cache.memoryCapacity with
    | .error e => .error (directory, e)
    | .ok (cache, d) => .ok (cache.clear d).2

/-! ### Running -/

/-- A worker with a cache, if there can be one. -/
def worker (b : Batch) (d : Disk) : Worker × Disk :=
  let limits := b.settings.limits
  match b.cacheDirectory? with
  | none => ({ limits := limits }, d)
  | some directory =>
    match ResultCache.create d directory b.settings.cache.memoryCapacity with
    | .error _ => ({ limits := limits }, d)
    | .ok (cache, d) => ({ limits := limits, cache := some cache }, d)

/-- A batch under way. -/
structure Run where
  outcomes : List Outcome
  stopRequested : Bool
  worker : Worker
  disk : Disk

/-- Takes the next file, unless a stop was requested. -/
def Run.advance (watcher : Progress → Bool) (total : Nat) (r : Run) (path : Path) : Run :=
  if r.stopRequested then r
  else
    let (outcome, worker, disk) := r.worker.analyze r.disk path
    let outcomes := r.outcomes ++ [outcome]
    ⟨outcomes, watcher ⟨outcomes.length, total, outcome.path⟩, worker, disk⟩

/-- A report, the batch after it, and the disk. -/
structure Ended where
  report : Report
  batch : Batch
  disk : Disk

/-- Runs through some files with a worker. -/
def runWith (b : Batch) (files : List Path) (workers : Option Nat) (parallel : Bool)
    (worker : Worker) (d : Disk) : Ended :=
  let run := files.foldl (Run.advance b.watcher files.length) ⟨[], b.stopRequested, worker, d⟩
  ⟨⟨files.length, run.outcomes, run.stopRequested, workers, parallel⟩,
    { b with stopRequested := run.stopRequested }, run.disk⟩

/-- Analyzes files one after the other. -/
def runSequential (b : Batch) (d : Disk) (files : List Path) : Ended :=
  let (worker, d) := b.worker d
  b.runWith files (some 1) false worker d

/-- Analyzes files with several workers. Each gets its cache with its first file, and the files
count in the order of the list. -/
def runParallel (b : Batch) (d : Disk) (files : List Path) : Ended :=
  let (worker, d) :=
    if files.isEmpty || b.stopRequested then ({ limits := b.settings.limits }, d) else b.worker d
  b.runWith files b.settings.parallel.workers? true worker d

/-- Analyzes files with several workers if that is allowed and of use. -/
def runFiles (b : Batch) (d : Disk) (files : List Path) : Ended :=
  if b.settings.parallel.enabled && 1 < files.length then b.runParallel d files
  else b.runSequential d files

/-- Analyzes the files at a path. -/
def runPath (b : Batch) (d : Disk) (root : Path) : Except DiskError Ended :=
  (Discovery.sourceFiles d b.settings.exclusions root).map (b.runFiles d)

end Batch

end Coupling
