import Coupling.Literal.Line
import Coupling.Literal.Numeral
import Coupling.Literal.Quoted

/-!
# Coupling by meaning

A number or a string in the middle of the code means something that every reader has to know.
Literals that the settings allow, short strings and strings that look like names are not reported.
-/

namespace Coupling.Literal

open Syntax

inductive LiteralType where
  | int
  | float
  | complex
  | str
deriving DecidableEq, Repr

def LiteralType.label : LiteralType → String
  | .int => "int"
  | .float => "float"
  | .complex => "complex"
  | .str => "str"

/-- A literal that needs a name. -/
structure Magic where
  /-- The node at which it is reported: the minus sign's for a negative number. -/
  anchor : Tree
  display : String
  value : Json
  type : LiteralType

/-- The negation that a number is the operand of. -/
def negation? (f : Focus) : Option Tree :=
  f.parent?.filter fun parent =>
    parent.kind == .unaryOperator && (parent.child? .operator).any (·.kind == .minus) &&
      f.isField .argument

/-- The value that is reported for a number: an integer below `2 ^ 63` in size, a binary64 number,
or else its spelling. -/
def numberValue (type : LiteralType) (number : Option Float) (display : String) : Json :=
  match type, number with
  | .int, some x =>
    match Number.Binary64.ofFloat x with
    | .finite d =>
      match d.integer? with
      | some n => if n.natAbs < Nat.pow 2 63 then .int n else .str display
      | none => .str display
    | _ => .str display
  | .float, some x => .ofFloat x
  | _, _ => .str display

def magicNumber? (l : Limits) (text : SourceText) (f : Focus) : Option Magic :=
  let spelling := text.text f.tree
  let negation := negation? f
  let last := spelling.toList.getLast?
  let type : LiteralType :=
    if last = some 'j' ∨ last = some 'J' then .complex
    else if f.kind = .float then .float
    else .int
  let sign : Float := if negation.isSome then -1.0 else 1.0
  let number := (value? spelling.toList).map (· * sign)
  if number.any l.allowsNumber then none
  else
    let display := if negation.isSome then "-" ++ spelling else spelling
    some ⟨negation.getD f.tree, display, numberValue type number display, type⟩

/-- A string that is a statement of its own, as documentation strings are. -/
def isBareStatement (f : Focus) : Bool :=
  let statement :=
    if f.parent?.any (·.kind == .concatenatedString) then f.grandparent? else f.parent?
  statement.any fun p => p.kind == .expressionStatement && p.namedChildren.length == 1

/-- Only letters, digits, underscores and dashes. -/
def looksLikeName (cs : List Char) : Bool :=
  !cs.isEmpty && cs.all fun c => c.isAlphanum || c == '_' || c == '-'

/-- The text of a plain or raw string literal. Bytes and formatted strings have none. -/
def stringText? (text : SourceText) (t : Tree) : Option (List Char) := do
  let first ← t.children.head?
  let last ← t.children.getLast?
  guard (first.kind = .stringStart ∧ last.kind = .stringEnd)
  let marks := (Text.dropWhileEnd (fun c => c == '"' || c == '\'') (text.text first).toList).map
    Char.toLower
  guard (!marks.contains 'b' && !marks.contains 'f')
  let raw ← Text.slice? text.chars first.label.stop last.label.start
  return if marks.contains 'r' then raw else unescape raw

def magicString? (l : Limits) (text : SourceText) (f : Focus) : Option Magic := do
  guard (!isBareStatement f)
  let cs ← stringText? text f.tree
  let value := String.ofList cs
  guard (!l.allowsString value && !(cs.length < l.minStringLength) && !looksLikeName cs)
  return ⟨f.tree, value, .str value, .str⟩

def magic? (l : Limits) (text : SourceText) (f : Focus) : Option Magic :=
  match f.kind with
  | .integer | .float => magicNumber? l text f
  | .string => magicString? l text f
  | _ => none

def advice (m : Magic) (s : Surroundings) : String :=
  if s.securityRelated then
    "Move security-related constants to configuration or environment variables"
  else if m.type = .str then "Replace string literal with a named constant or configuration value"
  else if s.inConditional then
    s!"Replace {m.display} with a named constant (e.g., MAX_VALUE, THRESHOLD)"
  else s!"Replace {m.display} with a descriptive constant name"

def finding (path : String) (place : Place) (m : Magic) (s : Surroundings) : Finding :=
  .new .meaning s.severity path place s!"Magic literal '{m.display}' should be a named constant"
    (advice m s)
    [("literal_value", m.value), ("literal_type", .str m.type.label),
     ("in_conditional", .bool s.inConditional), ("in_comparison", .bool s.inComparison),
     ("in_assignment", .bool s.inAssignment), ("in_arithmetic", .bool s.inArithmetic),
     ("security_related", .bool s.securityRelated)]

/-- The finding about a literal, if it needs a name. -/
def check (l : Limits) (source : Source) (f : Focus) : Except Fault (List Finding) :=
  match magic? l source.text f with
  | none => .ok []
  | some m =>
    let place := source.text.placeOf m.anchor
    (surroundings l source.text place.line).map fun s => [finding source.path place m s]

end Coupling.Literal
