import Coupling.Batch.Staged
import Coupling.Cache.Results
import Coupling.Finding.Failure

/-!
# Workers

A worker analyzes one file after another. It asks its cache first, and keeps there what it had to
find out. A fault in one file does not reach the others.
-/

namespace Coupling

/-- What came of a file. -/
structure Outcome where
  path : Path
  findings : List Finding
  lines : Nat
  /-- Whether the findings come from a cache, if one was asked. -/
  hit : Option Bool

/-- The outcome of a file without an analysis. -/
def Outcome.failed (path : Path) (finding : Finding) : Outcome := ⟨path, [finding], 0, none⟩

structure Worker where
  limits : Limits
  cache : Option ResultCache := none
  activity : Activity := {}
  /-- Lines of the content that was analyzed last. -/
  lines : Nat := 0

namespace Worker

/-- Asks the cache for the findings of content that was read before. -/
def lookUp (w : Worker) (d : Disk) (path : Path) (bytes : Text.Bytes) :
    Option (List Finding) × Worker × Disk :=
  match w.cache with
  | none => (none, w, d)
  | some cache =>
    let (activity, guard) := w.activity.setPhase .cacheLookup
    let asking := { w with activity := activity }
    let answer := cache.getBytes d path bytes
    (answer.found, { asking with cache := some answer.cache, activity := guard.release },
      answer.disk)

/-- Keeps findings in the cache, unless the file could not be processed. -/
def keep (w : Worker) (d : Disk) (path : Path) (bytes : Text.Bytes) (findings : List Finding) :
    Worker × Disk :=
  match w.cache with
  | none => (w, d)
  | some cache =>
    if findings.any (·.kind == .processingError) then (w, d)
    else
      let (cache, d) := cache.setBytes d path bytes findings
      ({ w with cache := some cache }, d)

/-- Analyzes a file; a fault is passed on. -/
def attempt (w : Worker) (d : Disk) (path : Path) : Except Fault Outcome × Worker × Disk :=
  match d.read path with
  | .error e => (.ok (.failed path (.unreadable path.text e.message)), w, d)
  | .ok doc =>
    let lines := Text.lineCount doc.bytes
    match w.lookUp d path doc.bytes with
    | (some findings, w, d) => (.ok ⟨path, findings, lines, some true⟩, w, d)
    | (none, w, d) =>
      let (result, activity) := doc.staged w.limits path.text w.activity
      let w := { w with activity := activity, lines := lines }
      match result with
      | .error fault => (.error fault, w, d)
      | .ok findings =>
        let (w, d) := w.keep d path doc.bytes findings
        (.ok ⟨path, findings, w.lines, w.cache.map fun _ => false⟩, w, d)

/-- Does a job on a file; a fault becomes a finding about the file that the worker is busy with. -/
def isolated (w : Worker) (path : Path) (job : Worker → Except Fault Outcome × Worker × Disk) :
    Outcome × Worker × Disk :=
  let (activity, guard) := w.activity.setFile path
  match job { w with activity := activity } with
  | (.ok outcome, w, d) => (outcome, { w with activity := guard.release }, d)
  | (.error fault, w, d) =>
    let file := w.activity.file.getD path
    (.failed file (.failure file.text s!"analysis panicked: {fault.message}"),
      { w with activity := guard.release }, d)

/-- Analyzes a file, whatever comes of it. -/
def analyze (w : Worker) (d : Disk) (path : Path) : Outcome × Worker × Disk :=
  w.isolated path (·.attempt d path)

end Worker

end Coupling
