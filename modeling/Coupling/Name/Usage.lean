import Coupling.Finding.Basic
import Coupling.Settings.Basic
import Coupling.Syntax.Tree
import Std.Data.TreeMap

/-!
# Coupling by name

How often each name is used in a file. A name that many places use couples all of them.
-/

namespace Coupling

open Syntax

/-- Uses of a name, and the place of the first. -/
structure Usage where
  count : Nat
  place : Place
deriving DecidableEq, Repr

/-- The uses of the names of a file, in the order of the names. -/
abbrev NameTable := Std.TreeMap String Usage

namespace NameTable

/-- Counts a use; the first one fixes the place. -/
def record (table : NameTable) (name : String) (place : Place) : NameTable :=
  table.alter name fun
    | some usage => some { usage with count := usage.count + 1 }
    | none => some ⟨1, place⟩

end NameTable

namespace NameUsage

def declaresParameters (kind : NodeKind) : Bool :=
  kind == .parameters || kind == .lambdaParameters || kind == .typedParameter

/-- An identifier that uses a name, as opposed to one that defines, declares or imports it. -/
def isReference (f : Focus) : Bool :=
  f.kind == .identifier &&
    match f.parent? with
    | none => true
    | some parent =>
      match parent.kind with
      | .functionDefinition | .classDefinition | .defaultParameter | .typedDefaultParameter
      | .keywordArgument => !f.isField .name
      | .parameters | .lambdaParameters | .typedParameter => false
      | .listSplatPattern | .dictionarySplatPattern =>
        !f.grandparent?.any fun p => declaresParameters p.kind
      | .attribute => !f.isField .attribute
      | .dottedName | .aliasedImport | .globalStatement | .nonlocalStatement => false
      | _ => true

/-- A name that counts: not a receiver and not private. -/
def counts (name : String) : Bool :=
  name != "self" && name != "cls" && name.toList.head? != some '_'

def finding (path : String) (name : String) (usage : Usage) : Finding :=
  .new .name .medium path usage.place
    s!"Name '{name}' used {usage.count} times (high coupling)"
    "Consider refactoring to reduce name dependencies"
    [("name", .str name), ("usage_count", .nat usage.count)]

/-- The names that are used too often, in order. -/
def check (l : Limits) (path : String) (table : NameTable) : List Finding :=
  (table.toList.filter fun (name, usage) =>
      l.highNameUsageThreshold < usage.count && counts name).map
    fun (name, usage) => finding path name usage

end NameUsage

end Coupling
