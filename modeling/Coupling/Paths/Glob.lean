/-!
# Glob patterns

A question mark stands for one character, a star for any text, brackets for a set of characters, and
two stars, as a whole component of a path, for any number of components.
-/

namespace Coupling.Paths

/-- A member of a set of characters. -/
inductive Specifier where
  | single (c : Char)
  | range (lo hi : Char)
deriving DecidableEq, Repr

inductive GlobToken where
  | char (c : Char)
  | anyChar
  | anyText
  | anyComponents
  | within (set : List Specifier)
  | except (set : List Specifier)
deriving DecidableEq, Repr

/-- Why a pattern is malformed. -/
inductive GlobFault where
  | wildcards
  | recursion
  | range
deriving DecidableEq, Repr

structure GlobError where
  position : Nat
  fault : GlobFault
deriving DecidableEq, Repr

def GlobFault.message : GlobFault → String
  | .wildcards => "wildcards are either regular `*` or recursive `**`"
  | .recursion => "recursive wildcards must form a single path component"
  | .range => "invalid range pattern"

def GlobError.message (e : GlobError) : String :=
  s!"Pattern syntax error near position {e.position}: {e.fault.message}"

/-- A pattern, as the tokens it is made of. -/
structure Glob where
  tokens : List GlobToken
deriving DecidableEq, Repr

namespace Glob

def isSeparator (c : Char) : Bool := c == '/'

/-- Reads the inside of brackets; a dash between two characters makes a range. -/
def specifiers : List Char → List Specifier
  | a :: '-' :: b :: rest => .range a b :: specifiers rest
  | a :: rest => .single a :: specifiers rest
  | [] => []

/-- The set after an opening bracket, and the number of characters up to its closing bracket. A set
is never empty, so the first closing bracket that counts is the one after a first member. -/
def bracket? : List Char → Option (GlobToken × Nat)
  | '!' :: c :: rest => do
    let n ← rest.findIdx? (· == ']')
    return (.except (specifiers (c :: rest.take n)), n + 3)
  | '!' :: [] => none
  | c :: rest => do
    let n ← rest.findIdx? (· == ']')
    return (.within (specifiers (c :: rest.take n)), n + 2)
  | [] => none

/-- Two stars after another pair of them add nothing, unless these are the whole pattern so far. -/
def pushComponents : List GlobToken → List GlobToken
  | .anyComponents :: t :: rest => .anyComponents :: t :: rest
  | tokens => .anyComponents :: tokens

/-- Reads a pattern from a position on. The first `skip` characters belong to the last token, `prev`
is the character before, and `acc` holds the tokens so far, reversed. -/
def parseFrom (skip position : Nat) (prev : Option Char) (acc : List GlobToken) :
    List Char → Except GlobError Glob
  | [] => .ok ⟨acc.reverse⟩
  | c :: rest =>
    match skip with
    | skip + 1 => parseFrom skip (position + 1) (some c) acc rest
    | 0 =>
      if c = '?' then parseFrom 0 (position + 1) (some c) (.anyChar :: acc) rest
      else if c = '*' then
        let stars := (rest.takeWhile (· == '*')).length + 1
        if stars = 1 then parseFrom 0 (position + 1) (some c) (.anyText :: acc) rest
        else if 2 < stars then .error ⟨position + 2, .wildcards⟩
        else if prev.all isSeparator then
          match rest.drop 1 with
          | [] => parseFrom 1 (position + 1) (some c) (pushComponents acc) rest
          | next :: _ =>
            if isSeparator next then parseFrom 2 (position + 1) (some c) (pushComponents acc) rest
            else .error ⟨position + 2, .recursion⟩
        else .error ⟨position - 1, .recursion⟩
      else if c = '[' then
        match bracket? rest with
        | some (token, n) => parseFrom n (position + 1) (some c) (token :: acc) rest
        | none => .error ⟨position, .range⟩
      else parseFrom 0 (position + 1) (some c) (.char c :: acc) rest

def parse (pattern : String) : Except GlobError Glob := parseFrom 0 0 none [] pattern.toList

def inSet (set : List Specifier) (c : Char) : Bool :=
  set.any fun
    | .single x => c == x
    | .range lo hi => lo ≤ c && c ≤ hi

/-- The suffixes of a text, from the longest to the empty one. -/
def suffixes : List Char → List (List Char)
  | [] => [[]]
  | c :: cs => (c :: cs) :: suffixes cs

/-- What is left of a text after each of its separators. -/
def afterSeparators : List Char → List (List Char)
  | [] => []
  | c :: cs => if isSeparator c then cs :: afterSeparators cs else afterSeparators cs

/-- The tokens describe the whole text. -/
def matchTokens : List GlobToken → List Char → Bool
  | [], cs => cs.isEmpty
  | .anyText :: tokens, cs => (suffixes cs).any (matchTokens tokens)
  | .anyComponents :: tokens, cs => (cs :: afterSeparators cs ++ [[]]).any (matchTokens tokens)
  | _, [] => false
  | .char x :: tokens, c :: cs => c == x && matchTokens tokens cs
  | .anyChar :: tokens, _ :: cs => matchTokens tokens cs
  | .within set :: tokens, c :: cs => inSet set c && matchTokens tokens cs
  | .except set :: tokens, c :: cs => !inSet set c && matchTokens tokens cs

def accepts (g : Glob) (text : String) : Bool := matchTokens g.tokens text.toList

end Glob

end Coupling.Paths
