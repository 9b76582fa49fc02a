import Coupling.Finding.Basic
import Coupling.Number.Fixed
import Std.Data.TreeMap
import Std.Data.TreeSet

/-!
# Summaries

Counts of a list of findings by kind, severity and file, and the report made from them.
-/

namespace Coupling

structure Summary where
  total : Nat
  /-- Kinds that occur, with the number of their findings. -/
  byKind : List (Kind × Nat)
  /-- Severities that occur, with the number of their findings. -/
  bySeverity : List (Severity × Nat)
  totalWeight : Float
  averageWeight : Float
  filesAffected : Nat
  /-- Files that were not analyzed. -/
  failedFiles : List String

namespace Summary

/-- One more of a key. -/
def countUp {α : Type} [Ord α] (counts : Std.TreeMap α Nat) (key : α) : Std.TreeMap α Nat :=
  counts.alter key fun n => some (n.getD 0 + 1)

/-- What is counted in one pass over findings. -/
structure Counts where
  byKind : Std.TreeMap Kind Nat := ∅
  bySeverity : Std.TreeMap Severity Nat := ∅
  files : Std.TreeSet String := ∅
  failed : Std.TreeSet String := ∅

def Counts.record (c : Counts) (f : Finding) : Counts where
  byKind := countUp c.byKind f.kind
  bySeverity := countUp c.bySeverity f.severity
  files := c.files.insert f.path
  failed := if f.kind.isFailure then c.failed.insert f.path else c.failed

def ofFindings (findings : List Finding) : Summary :=
  let counts : Counts := findings.foldl .record {}
  -- A sum of nothing is a negative zero, the neutral element of addition.
  let weight := findings.foldl (fun sum f => sum + f.weight) (-0.0)
  { total := findings.length
    byKind := counts.byKind.toList
    bySeverity := counts.bySeverity.toList
    totalWeight := weight
    averageWeight := if findings.isEmpty then 0.0 else weight / Float.ofNat findings.length
    filesAffected := counts.files.size
    failedFiles := counts.failed.toList }

def countOf (s : Summary) (kind : Kind) : Nat := ((s.byKind.lookup kind).getD 0)

def countOfSeverity (s : Summary) (severity : Severity) : Nat :=
  ((s.bySeverity.lookup severity).getD 0)

/-- Failed files that a report names. -/
def namedFailures : Nat := 3

def report (s : Summary) : String :=
  let row (label : String) (count : Nat) : String := s!"  {label}: {count}\n"
  let head :=
    s!"{s.total} violation(s) in {s.filesAffected} file(s), average weight " ++
      Number.fixed 2 s.averageWeight ++ "\n"
  let severities := String.join (s.bySeverity.map fun (x, n) => row x.label n)
  let kinds := String.join (s.byKind.map fun (k, n) => row k.label n)
  let failures :=
    if s.failedFiles.isEmpty then ""
    else
      let named := (s.failedFiles.take namedFailures).map fun path => s!"    - {path}\n"
      let more := s.failedFiles.length - namedFailures
      "\nNot analyzed:\n" ++ String.join named ++
        if more = 0 then "" else s!"    ... and {more} more\n"
  head ++ "\nBy severity:\n" ++ severities ++ "\nBy type:\n" ++ kinds ++ failures

end Summary

end Coupling
