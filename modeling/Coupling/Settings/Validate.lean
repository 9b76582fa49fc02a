import Coupling.Number.Fixed
import Coupling.Paths.Glob
import Coupling.Settings.Basic
import Coupling.Text.Blank

/-!
# Valid settings

All issues with some settings are collected, so that they can be mended together.
-/

namespace Coupling

/-- A setting with an unusable value. -/
structure Issue where
  field : String
  message : String
deriving DecidableEq, Repr

def Issue.text (i : Issue) : String := i.field ++ ": " ++ i.message

def issuesText (issues : List Issue) : String := "; ".intercalate (issues.map Issue.text)

/-- The message about settings with issues. -/
def issuesReport (issues : List Issue) : String := "Configuration error: " ++ issuesText issues

namespace Settings

def atLeastOne (field : String) (value : Nat) : List Issue :=
  if value = 0 then [⟨field, s!"must be at least 1, got {value}"⟩] else []

def countIssues (l : Limits) : List Issue :=
  [("max_positional_params", l.maxPositionalParams), ("max_call_args", l.maxCallArgs),
   ("max_cyclomatic_complexity", l.maxCyclomaticComplexity),
   ("max_nesting_depth", l.maxNestingDepth), ("god_class_methods", l.godClassMethods),
   ("god_class_lines", l.godClassLines),
   ("duplicate_statement_minimum", l.duplicateStatementMinimum),
   ("high_name_usage_threshold", l.highNameUsageThreshold),
   ("max_param_name_length", l.maxParamNameLength)].flatMap
    fun (field, value) => atLeastOne ("thresholds." ++ field) value

def numberIssues (l : Limits) : List Issue :=
  l.allowedNumbers.zipIdx.flatMap fun (x, i) =>
    if (Number.Binary64.ofFloat x).isFinite then []
    else
      [⟨s!"thresholds.magic_literal_allowed_numbers[{i}]",
        "must be a finite number, got " ++ Number.fixed 0 x⟩]

def keywordIssues (l : Limits) : List Issue :=
  (if l.securityKeywords.isEmpty then
      [⟨"thresholds.security_keywords", "must contain at least one keyword"⟩]
    else []) ++
    l.securityKeywords.zipIdx.flatMap fun (keyword, i) =>
      if (Text.trim keyword.toList).isEmpty then
        [⟨s!"thresholds.security_keywords[{i}]", "must not be blank"⟩]
      else []

def parallelIssues (p : ParallelSettings) : List Issue :=
  if p.maxWorkers = some 0 then [⟨"parallel.max_workers", "must be at least 1 when set"⟩] else []

/-- A pattern is judged without the slashes at its end. -/
def exclusionIssues (patterns : List String) : List Issue :=
  patterns.zipIdx.flatMap fun (pattern, i) =>
    match Paths.Glob.parse (String.ofList (Text.dropWhileEnd (· == '/') pattern.toList)) with
    | .ok _ => []
    | .error e =>
      [⟨s!"exclusions[{i}]", s!"invalid glob pattern '{pattern}' - {e.message}"⟩]

def issues (s : Settings) : List Issue :=
  countIssues s.limits ++ numberIssues s.limits ++ keywordIssues s.limits ++
    parallelIssues s.parallel ++
    atLeastOne "cache.memory_capacity" s.cache.memoryCapacity ++ exclusionIssues s.exclusions

end Settings

end Coupling
