import Coupling.Settings.Basic
import Coupling.Syntax.Source

/-!
# Classes that do too much

A class with too many methods or lines.
-/

namespace Coupling.ClassSize

open Syntax

/-- A method directly in a class body, decorated or not. -/
def isMethod (t : Tree) : Bool :=
  match t.kind with
  | .functionDefinition => true
  | .decoratedDefinition => (t.child? .definition).any (·.kind == .functionDefinition)
  | _ => false

def methods (cls : Tree) : Nat :=
  match cls.child? .body with
  | some body => body.namedChildren.countP isMethod
  | none => 0

def name (text : SourceText) (cls : Tree) : String :=
  ((cls.child? .name).map text.text).getD "<anonymous>"

def check (l : Limits) (source : Source) (cls : Tree) : List Finding :=
  let count := methods cls
  let lines := source.text.span cls
  if count ≤ l.godClassMethods ∧ lines ≤ l.godClassLines then []
  else
    let name := name source.text cls
    [.new .godObject .critical source.path (source.text.placeOf cls)
      s!"God Object: class '{name}' has {count} methods and {lines} lines"
      "Split into smaller, focused classes following Single Responsibility Principle"
      [("class_name", .str name), ("method_count", .nat count), ("lines_of_code", .nat lines),
       ("loc_source", .str "span"), ("method_threshold", .nat l.godClassMethods),
       ("loc_threshold", .nat l.godClassLines)]]

end Coupling.ClassSize
