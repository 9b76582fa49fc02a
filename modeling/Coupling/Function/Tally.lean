import Coupling.Finding.Basic
import Coupling.Settings.Basic
import Coupling.Syntax.NodeKind

/-!
# Branching and nesting

Counters of one function while its body is walked, and the findings about them at its end.
-/

namespace Coupling

/-- Counters of a function. -/
structure Tally where
  name : String
  place : Place
  cyclomatic : Nat
  /-- Blocks that are open. -/
  depth : Nat
  maxDepth : Nat
deriving DecidableEq, Repr

namespace Tally

def start (name : String) (place : Place) : Tally := ⟨name, place, 1, 0, 0⟩

def addDecisions (t : Tally) (amount : Nat) : Tally :=
  { t with cyclomatic := t.cyclomatic + amount }

def openBlock (t : Tally) : Tally :=
  { t with depth := t.depth + 1, maxDepth := max t.maxDepth (t.depth + 1) }

def closeBlock (t : Tally) : Tally := { t with depth := t.depth - 1 }

/-- Decisions that a node adds. A chain of boolean operators has one node for each of them, and a
filter of a comprehension counts as well. -/
def decisions : Syntax.NodeKind → Nat
  | .ifStatement | .elifClause | .forStatement | .whileStatement | .exceptClause
  | .exceptGroupClause | .caseClause | .booleanOperator | .ifClause => 1
  | _ => 0

/-- The node opens a block. -/
def nests : Syntax.NodeKind → Bool
  | .ifStatement | .forStatement | .whileStatement | .tryStatement | .withStatement
  | .matchStatement => true
  | _ => false

def complexitySeverity (n : Nat) : Severity :=
  if 20 < n then .critical else if 15 < n then .high else .medium

def complexityAdvice (n : Nat) : String :=
  if 20 < n then
    "This function is extremely complex. Consider major refactoring into multiple smaller functions"
  else if 15 < n then
    "Break down function into smaller, focused functions with clear responsibilities"
  else "Simplify conditional logic and reduce branching complexity"

def checkComplexity (l : Limits) (path : String) (t : Tally) : List Finding :=
  if t.cyclomatic ≤ l.maxCyclomaticComplexity then []
  else
    [.new .algorithm (complexitySeverity t.cyclomatic) path t.place
      s!"Function '{t.name}' has high cyclomatic complexity ({t.cyclomatic})"
      (complexityAdvice t.cyclomatic)
      [("function_name", .str t.name), ("complexity", .nat t.cyclomatic),
       ("threshold", .nat l.maxCyclomaticComplexity), ("issue_type", .str "cyclomatic_complexity")]]

def checkNesting (l : Limits) (path : String) (t : Tally) : List Finding :=
  if t.maxDepth ≤ l.maxNestingDepth then []
  else
    [.new .algorithm .high path t.place
      s!"Function '{t.name}' has excessive nesting depth ({t.maxDepth})"
      "Break down nested logic into smaller functions or use early returns"
      [("function_name", .str t.name), ("nesting_depth", .nat t.maxDepth),
       ("threshold", .nat l.maxNestingDepth), ("issue_type", .str "nesting_depth")]]

/-- The findings about a function at its end. -/
def check (l : Limits) (path : String) (t : Tally) : List Finding :=
  checkComplexity l path t ++ checkNesting l path t

end Tally

end Coupling
