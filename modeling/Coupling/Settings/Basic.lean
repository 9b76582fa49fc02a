/-!
# Settings

What counts as too much, how batches run, where results are kept, and which paths are left out.
-/

namespace Coupling

/-- Bounds above which something is reported, and the rules for literals. -/
structure Limits where
  /-- Positional parameters that a function may have. -/
  maxPositionalParams : Nat := 3
  /-- Positional arguments that a call may pass. -/
  maxCallArgs : Nat := 5
  maxCyclomaticComplexity : Nat := 10
  maxNestingDepth : Nat := 4
  godClassMethods : Nat := 20
  godClassLines : Nat := 500
  /-- Statements that a function needs to be compared with others. -/
  duplicateStatementMinimum : Nat := 3
  allowedNumbers : List Float := [0.0, 1.0, -1.0, 2.0, 10.0, 100.0, 1000.0]
  allowedStrings : List String := ["", " ", "\n", "\t"]
  /-- Shorter strings are never reported. -/
  minStringLength : Nat := 4
  securityKeywords : List String :=
    ["password", "secret", "key", "token", "auth", "crypto", "credential", "hash", "salt"]
  /-- Lines above and below a literal that are searched for security keywords. -/
  securityContextLines : Nat := 3
  highNameUsageThreshold : Nat := 15
  maxParamNameLength : Nat := 30
  /-- Report public functions without any annotation. -/
  checkTypeAnnotations : Bool := false

namespace Limits

def allowsNumber (l : Limits) (x : Float) : Bool := l.allowedNumbers.any (· == x)

def allowsString (l : Limits) (s : String) : Bool := l.allowedStrings.any (· == s)

end Limits

structure ParallelSettings where
  enabled : Bool := true
  maxWorkers : Option Nat := none

/-- Number of workers, when it does not depend on the machine. -/
def ParallelSettings.workers? (p : ParallelSettings) : Option Nat := p.maxWorkers.map (max · 1)

structure CacheSettings where
  enabled : Bool := true
  directory : Option String := none
  /-- Results that are kept in memory. -/
  memoryCapacity : Nat := 1000

/-- Paths that are left out unless the settings say otherwise. -/
def defaultExclusions : List String :=
  ["__pycache__/", ".pytest_cache/", ".mypy_cache/", ".git/", "venv*/", ".venv/", "env/",
   "node_modules/", "build/", "dist/", "*.egg-info/", "tests/", "test_*", "*_test.py",
   "conftest.py"]

structure Settings where
  limits : Limits := {}
  parallel : ParallelSettings := {}
  cache : CacheSettings := {}
  exclusions : List String := defaultExclusions

end Coupling
