import Coupling.Paths.Path

/-!
# What a worker is doing

The phase of its work and the file it works on. Whoever changes either gets a guard that brings back
what was there before.
-/

namespace Coupling

/-- Stages of the work on a batch. -/
inductive Phase where
  | fileDiscovery
  | cacheLookup
  | parsing
  | detection
  | resolution
deriving DecidableEq, Repr

def Phase.label : Phase → String
  | .fileDiscovery => "file_discovery"
  | .cacheLookup => "cache_lookup"
  | .parsing => "parsing"
  | .detection => "detection"
  | .resolution => "resolution"

structure Activity where
  phase : Option Phase := none
  file : Option Path := none
deriving DecidableEq, Repr

namespace Activity

/-- What a guard brings back. -/
structure Guard where
  previous : Activity
deriving DecidableEq, Repr

def setPhase (a : Activity) (phase : Phase) : Activity × Guard :=
  ({ a with phase := some phase }, ⟨a⟩)

def setFile (a : Activity) (path : Path) : Activity × Guard :=
  ({ a with file := some path }, ⟨a⟩)

def Guard.release (g : Guard) : Activity := g.previous

end Activity

/-- A step of a worker that keeps its guards. -/
inductive ActivityStep where
  | phase (phase : Phase)
  | file (path : Path)
  /-- Releases the guard that a step made, by the number of the step. -/
  | release (step : Nat)
  | look
deriving DecidableEq, Repr

/-- An activity with the guards of the steps so far; a step without a guard, or with one that was
released, has none. -/
structure ActivityLog where
  activity : Activity := {}
  guards : List (Option Activity.Guard) := []
deriving DecidableEq, Repr

namespace ActivityLog

def step (log : ActivityLog) : ActivityStep → ActivityLog
  | .phase phase =>
    let (activity, guard) := log.activity.setPhase phase
    ⟨activity, log.guards ++ [some guard]⟩
  | .file path =>
    let (activity, guard) := log.activity.setFile path
    ⟨activity, log.guards ++ [some guard]⟩
  | .release n =>
    match log.guards[n]? with
    | some (some guard) => ⟨guard.release, log.guards.set n none ++ [none]⟩
    | _ => { log with guards := log.guards ++ [none] }
  | .look => { log with guards := log.guards ++ [none] }

/-- The activities after each of some steps. -/
def run (log : ActivityLog) : List ActivityStep → List Activity
  | [] => []
  | s :: rest =>
    let next := log.step s
    next.activity :: next.run rest

end ActivityLog

end Coupling
