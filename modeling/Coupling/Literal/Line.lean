import Coupling.Settings.Basic
import Coupling.Syntax.Source
import Coupling.Text.Lower
import Coupling.Text.Search
import Coupling.Text.Word

/-!
# The line of a literal

How bad a literal is depends on what its line does and on whether the lines around it are about
security.
-/

namespace Coupling

/-- Why an analysis stops before its end. -/
inductive Fault where
  /-- A sum does not fit in 64 bits. -/
  | additionOverflow
deriving DecidableEq, Repr

def Fault.message : Fault → String
  | .additionOverflow => "attempt to add with overflow"

namespace Literal

open Syntax

/-- What is known of the surroundings of a literal. -/
structure Surroundings where
  inConditional : Bool
  inComparison : Bool
  inAssignment : Bool
  inArithmetic : Bool
  securityRelated : Bool
deriving DecidableEq, Repr

def conditionalWords : List (List Char) :=
  ["if".toList, "elif".toList, "while".toList, "assert".toList]

/-- The text starts with a word of a condition and a blank after it. -/
def startsConditional (cs : List Char) : Bool :=
  conditionalWords.any fun word =>
    word.isPrefixOf cs && (cs.drop word.length).head?.any Text.isBlank

/-- A word of a condition starts somewhere in the text, not inside another word. -/
def hasConditional (afterWord : Bool) : List Char → Bool
  | [] => false
  | c :: cs =>
    (!afterWord && startsConditional (c :: cs)) || hasConditional (Text.isWord c) cs

def comparisons : List (List Char) :=
  ["==".toList, "!=".toList, "<".toList, ">".toList, "<=".toList, ">=".toList]

def equalities : List (List Char) := ["==".toList, "!=".toList, "<=".toList, ">=".toList]

def arithmetic : List (List Char) :=
  ["+".toList, "-".toList, "*".toList, "/".toList, "%".toList]

/-- The lines around a line, as far as the limits say, in small letters. -/
def neighbourhood (l : Limits) (text : SourceText) (line : Nat) : String :=
  let window := l.securityContextLines
  Text.lower ("\n".intercalate (text.linesBetween (line - window) (line + window)))

def mentionsSecurity (l : Limits) (around : String) : Bool :=
  l.securityKeywords.any fun keyword => Text.occurs (Text.lower keyword).toList around.toList

/-- The surroundings of a literal on a line. The number of the last line to look at has to fit in 64
bits. -/
def surroundings (l : Limits) (text : SourceText) (line : Nat) : Except Fault Surroundings :=
  match text.line? line with
  | none => .ok ⟨false, false, false, false, false⟩
  | some content =>
    if line + l.securityContextLines < Nat.pow 2 64 then
      -- The arrow of an annotation is neither a comparison nor a subtraction.
      let cs := Text.spaceArrows content.toList
      let has (words : List (List Char)) : Bool := words.any fun w => Text.occurs w cs
      .ok
        { inConditional := hasConditional false cs
          inComparison := has comparisons
          inAssignment := cs.contains '=' && !has equalities
          inArithmetic := has arithmetic
          securityRelated := mentionsSecurity l (neighbourhood l text line) }
    else .error .additionOverflow

namespace Surroundings

def severity (s : Surroundings) : Severity :=
  if s.securityRelated then .critical
  else if s.inConditional || s.inComparison then .high
  else if s.inAssignment then .medium
  else .low

end Surroundings

end Literal

end Coupling
