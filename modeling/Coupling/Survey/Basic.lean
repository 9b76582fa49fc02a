import Coupling.Function.Duplicate
import Coupling.Function.Tally
import Coupling.Name.Usage

/-!
# What is known half-way through a file

The functions and classes that are open, innermost first, the names used so far, and the functions
met so far. Decisions and blocks count for every open function.
-/

namespace Coupling

/-- An open definition. -/
inductive Scope where
  | function (tally : Tally)
  | cls (name : String)
deriving DecidableEq, Repr

/-- Applies a change to the counters of a function. -/
def Scope.mapTally (f : Tally → Tally) : Scope → Scope
  | .function tally => .function (f tally)
  | .cls name => .cls name

structure Survey where
  /-- Open definitions, innermost first. -/
  scopes : List Scope
  names : NameTable
  /-- Functions in the order in which they were met. -/
  routines : List Routine

namespace Survey

def empty : Survey := ⟨[], ∅, []⟩

def enterFunction (s : Survey) (tally : Tally) : Survey :=
  { s with scopes := .function tally :: s.scopes }

def enterClass (s : Survey) (name : String) : Survey := { s with scopes := .cls name :: s.scopes }

/-- Closes the innermost definition. -/
def leave (s : Survey) : Option Scope × Survey :=
  match s.scopes with
  | [] => (none, s)
  | scope :: rest => (some scope, { s with scopes := rest })

/-- The innermost open definition is a class. -/
def inClass (s : Survey) : Bool :=
  match s.scopes with
  | .cls _ :: _ => true
  | _ => false

def depth (s : Survey) : Nat := s.scopes.length

def mapTallies (s : Survey) (f : Tally → Tally) : Survey :=
  { s with scopes := s.scopes.map (·.mapTally f) }

def addDecisions (s : Survey) (amount : Nat) : Survey := s.mapTallies (·.addDecisions amount)

def openBlock (s : Survey) : Survey := s.mapTallies Tally.openBlock

def closeBlock (s : Survey) : Survey := s.mapTallies Tally.closeBlock

def recordName (s : Survey) (name : String) (place : Place) : Survey :=
  { s with names := s.names.record name place }

def recordRoutine (s : Survey) (routine : Routine) : Survey :=
  { s with routines := s.routines ++ [routine] }

end Survey

end Coupling
