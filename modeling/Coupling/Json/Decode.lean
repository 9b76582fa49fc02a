import Coupling.Json.Reader

/-!
# Typed values

What a JSON value means where a value of a certain kind is expected.
-/

namespace Coupling.Json

/-- A count that fits in 64 bits. -/
def count? : Json → Option Nat
  | .int n => if 0 ≤ n ∧ n < Nat.pow 2 64 then some n.toNat else none
  | _ => none

/-- A number; integers of 64 bits are accepted. -/
def real? : Json → Option Float
  | .int n => if -(Nat.pow 2 63 : Int) ≤ n ∧ n < Nat.pow 2 64 then some (Float.ofInt n) else none
  | .float x => some x
  | _ => none

def flag? : Json → Option Bool
  | .bool b => some b
  | _ => none

def text? : Json → Option String
  | .str s => some s
  | _ => none

def list? {α : Type} (item? : Json → Option α) : Json → Option (List α)
  | .arr items => items.mapM item?
  | _ => none

def optional? {α : Type} (item? : Json → Option α) : Json → Option (Option α)
  | .null => some none
  | j => (item? j).map some

/-- A name of a finite set of things, alone or as the only field of an object without a value. -/
def choice? {α : Type} (ofName? : String → Option α) : Json → Option α
  | .str s => ofName? s
  | .obj [(s, .null)] => ofName? s
  | _ => none

mutual

/-- A value of any kind, refused if it holds a number beyond the range. Of fields with one name the
last counts. -/
def plain? : Json → Option Json
  | .float x => if (Number.Binary64.ofFloat x).isFinite then some (.float x) else none
  | .arr items => (plainItems? items).map .arr
  | .obj fields => (plainFields? fields).map fun fields =>
    .obj (fields.foldl (fun done (name, value) => insertField done name value) [])
  | j => some j

def plainItems? : List Json → Option (List Json)
  | [] => some []
  | j :: rest => (plain? j).bind fun j => (plainItems? rest).map (j :: ·)

def plainFields? : List (String × Json) → Option (List (String × Json))
  | [] => some []
  | (name, j) :: rest => (plain? j).bind fun j => (plainFields? rest).map ((name, j) :: ·)

end

/-! ### Records -/

namespace Raw

/-- The values of a record in the order of its field names: from an object that has each field once,
where the values of other fields mean nothing, or from an array. -/
def record? (names : List String) : Raw → Option (List Raw)
  | .obj fields => do
    let fields ← fields.mapM fun (name, value) => (decodeText? name).map (·, value)
    names.mapM fun name =>
      match fields.filter (·.1 == name) with
      | [(_, value)] => some value
      | _ => none
  | .arr items => if items.length = names.length then some items else none
  | _ => none

def list? {α : Type} (item? : Raw → Option α) : Raw → Option (List α)
  | .arr items => items.mapM item?
  | _ => none

/-- A value that is decoded and means something. -/
def read? {α : Type} (value? : Json → Option α) (r : Raw) : Option α := r.decode?.bind value?

end Raw

end Coupling.Json
