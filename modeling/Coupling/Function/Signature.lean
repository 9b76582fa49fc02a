import Coupling.Syntax.Source

/-!
# Signatures of functions

The parameters of a function as its header declares them. A star among the parameters makes the
plain ones after it keyword-only.
-/

namespace Coupling

open Syntax

inductive ParameterKind where
  | positional
  | varPositional
  | keywordOnly
  | varKeyword
deriving DecidableEq, Repr

structure Parameter where
  name : String
  kind : ParameterKind
  hasDefault : Bool
  /-- The default is the literal true or false. -/
  boolDefault : Bool
  annotated : Bool
  place : Place
deriving DecidableEq, Repr

structure Signature where
  name : String
  place : Place
  parameters : List Parameter
  decorators : List String
  returnsAnnotated : Bool
deriving DecidableEq, Repr

/-- The name of a parameter after its stars. -/
def splatName (text : String) : String :=
  String.ofList (Text.trim (text.toList.dropWhile (· == '*')))

namespace Parameter

/-- A plain parameter is keyword-only once a star has been passed. -/
def plainKind (starred : Bool) : ParameterKind := if starred then .keywordOnly else .positional

/-- The parameter that a node declares, if any, after parameters with or without a star. -/
def ofNode? (text : SourceText) (starred : Bool) (t : Tree) : Option Parameter :=
  let place := text.placeOf t
  match t.kind with
  | .identifier => some ⟨text.text t, plainKind starred, false, false, false, place⟩
  | .typedParameter =>
    t.namedChildren.head?.map fun inner =>
      let kind := match inner.kind with
        | .listSplatPattern => .varPositional
        | .dictionarySplatPattern => .varKeyword
        | _ => plainKind starred
      ⟨splatName (text.text inner), kind, false, false, true, place⟩
  | .defaultParameter | .typedDefaultParameter =>
    (t.child? .name).map fun name =>
      let boolDefault := (t.child? .value).any fun v =>
        v.kind == .trueLiteral || v.kind == .falseLiteral
      ⟨text.text name, plainKind starred, true, boolDefault, t.kind == .typedDefaultParameter,
        place⟩
  | .listSplatPattern =>
    let name := splatName (text.text t)
    -- A bare star declares nothing.
    if name.isEmpty then none else some ⟨name, .varPositional, false, false, false, place⟩
  | .dictionarySplatPattern =>
    some ⟨splatName (text.text t), .varKeyword, false, false, false, place⟩
  | _ => none

/-- The plain parameters after this node are keyword-only. -/
def isStar (t : Tree) : Bool :=
  match t.kind with
  | .listSplatPattern | .keywordSeparator => true
  | .typedParameter => t.namedChildren.head?.any (·.kind == .listSplatPattern)
  | _ => false

/-- The parameters declared by some nodes, in order. -/
def collect (text : SourceText) (starred : Bool) : List Tree → List Parameter
  | [] => []
  | t :: rest => (ofNode? text starred t).toList ++ collect text (starred || isStar t) rest

end Parameter

/-- The decorators of the definition that a decorated definition holds, without their at signs. -/
def decoratorsOf (text : SourceText) (f : Focus) : List String :=
  match f.parent? with
  | none => []
  | some parent =>
    if parent.kind = .decoratedDefinition then
      (parent.namedChildren.filter (·.kind == .decorator)).map fun d =>
        String.ofList (Text.trim ((text.text d).toList.dropWhile (· == '@')))
    else []

namespace Signature

/-- The signature of a function definition; one without a name has none. -/
def ofFocus? (text : SourceText) (f : Focus) : Option Signature :=
  if f.kind = .functionDefinition then
    (f.tree.child? .name).map fun name =>
      { name := text.text name
        place := text.placeOf f.tree
        parameters := ((f.tree.child? .parameters).map fun params =>
          Parameter.collect text false params.namedChildren).getD []
        decorators := decoratorsOf text f
        returnsAnnotated := (f.tree.child? .returnType).isSome }
  else none

def positional (s : Signature) : List Parameter := s.parameters.filter (·.kind == .positional)

def hasVarargs (s : Signature) : Bool := s.parameters.any (·.kind == .varPositional)

def hasKwargs (s : Signature) : Bool := s.parameters.any (·.kind == .varKeyword)

/-- The first positional parameter is a receiver, given that the function is directly in a class or
not. -/
def isMethod (s : Signature) (inClass : Bool) : Bool :=
  inClass && !s.decorators.contains "staticmethod"

def isPublic (s : Signature) : Bool := s.name.toList.head? != some '_'

end Signature

end Coupling
