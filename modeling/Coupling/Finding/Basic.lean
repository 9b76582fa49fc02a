import Coupling.Digest.Sha256
import Coupling.Json.Value
import Coupling.Text.Utf8

/-!
# Findings

A finding says what couples two parts of a program, where, and how badly. Its identity is a short
digest of the facts that tell it apart from the other findings of a run.
-/

namespace Coupling

/-- What the two sides have to agree on, or why a file could not be analyzed. -/
inductive Kind where
  | meaning
  | position
  | algorithm
  | name
  | type
  | godObject
  | parseError
  | processingError
deriving DecidableEq, Repr, Ord

namespace Kind

def all : List Kind :=
  [.meaning, .position, .algorithm, .name, .type, .godObject, .parseError, .processingError]

def label : Kind → String
  | .meaning => "meaning"
  | .position => "position"
  | .algorithm => "algorithm"
  | .name => "name"
  | .type => "type"
  | .godObject => "god_object"
  | .parseError => "parse_error"
  | .processingError => "processing_error"

def ofLabel? (s : String) : Option Kind := all.find? (·.label == s)

/-- The finding reports that a file was not analyzed. -/
def isFailure : Kind → Bool
  | .parseError | .processingError => true
  | _ => false

end Kind

/-- From the most to the least severe. -/
inductive Severity where
  | critical
  | high
  | medium
  | low
deriving DecidableEq, Repr, Ord

namespace Severity

def all : List Severity := [.critical, .high, .medium, .low]

def label : Severity → String
  | .critical => "critical"
  | .high => "high"
  | .medium => "medium"
  | .low => "low"

def ofLabel? (s : String) : Option Severity := all.find? (·.label == s)

end Severity

/-- A place in a file: a one-based line and a zero-based byte column. -/
structure Place where
  line : Nat
  column : Nat
deriving DecidableEq, Repr

/-- Where findings about a whole file are reported. -/
def Place.fileStart : Place := ⟨1, 0⟩

/-- Characters of a description that take part in the identity. -/
def identityChars : Nat := 50

/-- Hexadecimal digits of an identity. -/
def identityDigits : Nat := 12

/-- The text that is digested into an identity. -/
def canonical (kind : Kind) (path : String) (place : Place) (description : String) : String :=
  kind.label ++ "|" ++ path ++ "|" ++ toString place.line ++ "|" ++ toString place.column ++ "|" ++
    String.ofList (description.toList.take identityChars)

def identity (kind : Kind) (path : String) (place : Place) (description : String) : String :=
  let digest := Digest.Sha256.hexDigest (Text.encode (canonical kind path place description))
  String.ofList (digest.toList.take identityDigits)

structure Finding where
  id : String
  kind : Kind
  severity : Severity
  path : String
  place : Place
  description : String
  recommendation : String
  weight : Float
  context : List (String × Json)
deriving DecidableEq

/-- A finding of weight one, with the identity its facts determine. -/
def Finding.new (kind : Kind) (severity : Severity) (path : String) (place : Place)
    (description recommendation : String) (context : List (String × Json)) : Finding where
  id := identity kind path place description
  kind := kind
  severity := severity
  path := path
  place := place
  description := description
  recommendation := recommendation
  weight := 1.0
  context := context

/-- Keeps the first of the findings that share an identity; `seen` holds the identities met before.
-/
def distinctFrom (seen : List String) : List Finding → List Finding
  | [] => []
  | f :: rest =>
    if f.id ∈ seen then distinctFrom seen rest else f :: distinctFrom (f.id :: seen) rest

/-- Keeps the first of the findings that share an identity. -/
def distinct (findings : List Finding) : List Finding := distinctFrom [] findings

end Coupling
