import Coupling.Json.Value

/-!
# Tables under construction

A table is opened by its header, by the header of a table inside it, or by a dotted key, and what
opened it decides who may still add to it.
-/

namespace Coupling.Toml

/-- How a table came to be. -/
inductive Origin where
  /-- By its own header, or as the document. -/
  | header
  /-- By the header of a table inside it. -/
  | implied
  /-- By a dotted key. -/
  | dotted
deriving DecidableEq, Repr

inductive Node where
  /-- A finished value. -/
  | value (j : Json)
  | table (origin : Origin) (entries : List (String × Node))
  /-- Tables that share a header, the last one first. -/
  | tables (items : List (List (String × Node)))

abbrev Entries := List (String × Node)

def Entries.get? (entries : Entries) (key : String) : Option Node :=
  (entries.find? (·.1 == key)).map (·.2)

def Entries.put (entries : Entries) (key : String) (node : Node) : Entries :=
  if entries.any (·.1 == key) then
    entries.map fun e => if e.1 == key then (key, node) else e
  else entries ++ [(key, node)]

/-- Changes the table that a path of keys leads to, opening tables on the way; `dotted` tells
whether the path is that of a key. -/
def descend (dotted : Bool) (path : List String) (origin : Origin) (entries : Entries)
    (change : Origin → Entries → Option Entries) : Option Entries :=
  match path with
  | [] => change origin entries
  | key :: rest =>
    match entries.get? key with
    | none =>
      let opened := if dotted then .dotted else .implied
      (descend dotted rest opened [] change).map fun inner => entries.put key (.table opened inner)
    | some (.table found inner) =>
      if dotted && found == .header then none
      else
        (descend dotted rest found inner change).map fun inner =>
          entries.put key (.table found inner)
    | some (.tables (last :: others)) =>
      (descend dotted rest .header last change).map fun last =>
        entries.put key (.tables (last :: others))
    | some _ => none

/-- Adds a value under a dotted key to the table at a path of headers. -/
def addValue (table : List String) (path : List String) (key : String) (value : Json)
    (document : Entries) : Option Entries :=
  descend false table .header document fun origin entries =>
    descend true path origin entries fun origin entries =>
      -- A plain key belongs to a table with a header, a dotted one to a table of dotted keys.
      if (origin == .dotted) == path.isEmpty then none
      else if (entries.get? key).isSome then none
      else some (entries.put key (.value value))

/-- Opens the table of a header. -/
def openTable (path : List String) (key : String) (document : Entries) : Option Entries :=
  descend false path .header document fun _ entries =>
    match entries.get? key with
    | none => some (entries.put key (.table .header []))
    | some (.table .implied inner) => some (entries.put key (.table .header inner))
    | some _ => none

/-- Opens another of the tables that share a header. -/
def openItem (path : List String) (key : String) (document : Entries) : Option Entries :=
  descend false path .header document fun _ entries =>
    match entries.get? key with
    | none => some (entries.put key (.tables [[]]))
    | some (.tables items) => some (entries.put key (.tables ([] :: items)))
    | some _ => none

mutual

/-- The value of a finished table. -/
def Node.toJson : Node → Json
  | .value j => j
  | .table _ entries => .obj (entriesToFields entries)
  | .tables items => .arr (itemsToJson items).reverse

def entriesToFields : List (String × Node) → List (String × Json)
  | [] => []
  | (key, node) :: rest => (key, node.toJson) :: entriesToFields rest

def itemsToJson : List (List (String × Node)) → List Json
  | [] => []
  | entries :: rest => .obj (entriesToFields entries) :: itemsToJson rest

end

end Coupling.Toml
