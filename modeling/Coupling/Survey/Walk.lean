import Coupling.ClassSize
import Coupling.Function.Annotation
import Coupling.Function.Position
import Coupling.Literal.Magic
import Coupling.Survey.Basic
import Coupling.Syntax.Search

/-!
# The walk through a file

Every node is entered before its children and left after them. The walk goes from a node to its
first child; without one it leaves the node and goes to the next sibling, or leaves the parent as
well and goes on from there. Entering and leaving update the survey and emit findings; duplicates
and names are judged at the end.
-/

namespace Coupling

open Syntax

/-- A walk under way: the survey and the findings so far. -/
structure Walk where
  survey : Survey
  findings : List Finding

namespace Walk

def start : Walk := ⟨.empty, []⟩

def emit (w : Walk) (findings : List Finding) : Walk :=
  { w with findings := w.findings ++ findings }

def enterFunction (l : Limits) (source : Source) (f : Focus) (w : Walk) : Walk :=
  match Signature.ofFocus? source.text f with
  | none =>
    let tally := Tally.start "<anonymous>" (source.text.placeOf f.tree)
    { w with survey := w.survey.enterFunction tally }
  | some s =>
    let inClass := w.survey.inClass
    let annotations :=
      if l.checkTypeAnnotations then Annotation.check source.path s (s.isMethod inClass) else []
    let survey :=
      match Shape.ofFunction? f.tree s.parameters.length with
      | some shape => w.survey.recordRoutine ⟨s.name, s.place, shape⟩
      | none => w.survey
    { survey := survey.enterFunction (.start s.name s.place)
      findings := w.findings ++ Position.checkSignature l source.path s inClass ++ annotations }

def enterClass (l : Limits) (source : Source) (f : Focus) (w : Walk) : Walk :=
  { survey := w.survey.enterClass (ClassSize.name source.text f.tree)
    findings := w.findings ++ ClassSize.check l source f.tree }

/-- What the kind of a node asks for on entering it. -/
def enterKind (l : Limits) (source : Source) (f : Focus) (w : Walk) : Except Fault Walk :=
  match f.kind with
  | .functionDefinition => .ok (w.enterFunction l source f)
  | .classDefinition => .ok (w.enterClass l source f)
  | .integer | .float | .string => (Literal.check l source f).map w.emit
  | .call => .ok (w.emit (Position.checkCall l source f.tree))
  | .identifier =>
    .ok <|
      if NameUsage.isReference f then
        { w with
          survey := w.survey.recordName (source.text.text f.tree) (source.text.placeOf f.tree) }
      else w
  | _ => .ok w

def enter (l : Limits) (source : Source) (f : Focus) (w : Walk) : Except Fault Walk :=
  (w.enterKind l source f).map fun w =>
    let survey := w.survey.addDecisions (Tally.decisions f.kind)
    { w with survey := if Tally.nests f.kind then survey.openBlock else survey }

def leave (l : Limits) (source : Source) (f : Focus) (w : Walk) : Walk :=
  let survey := if Tally.nests f.kind then w.survey.closeBlock else w.survey
  match f.kind with
  | .functionDefinition =>
    match survey.leave with
    | (some (.function tally), survey) =>
      { survey := survey, findings := w.findings ++ tally.check l source.path }
    | (_, survey) => { w with survey := survey }
  | .classDefinition => { w with survey := survey.leave.2 }
  | _ => { w with survey := survey }

/-- Leaves a node and the nodes around it up to one with a next sibling, which comes next. -/
def ascend (l : Limits) (source : Source) (w : Walk) (f : Focus) : Walk × Option Focus :=
  match f.nextSibling? with
  | some g => (w.leave l source f, some g)
  | none =>
    match h : f.enclosing? with
    | some g => (w.leave l source f).ascend l source g
    | none => (w.leave l source f, none)
  termination_by f.above.length
  decreasing_by
    obtain ⟨index, habove⟩ := Focus.above_of_enclosing? h
    rw [habove]
    exact Nat.lt_succ_self _

theorem ascend_snd (l : Limits) (source : Source) (w : Walk) (f : Focus) :
    (w.ascend l source f).2 = f.onward? := by
  fun_induction ascend l source w f with
  | case1 w f g hsibling => rw [Focus.onward?, hsibling]
  | case2 w f hsibling g hparent ih =>
    rw [ih, Focus.onward?_eq_bind hsibling, hparent, Option.bind_some]
  | case3 w f hsibling hparent => rw [Focus.onward?_eq_bind hsibling, hparent, Option.bind_none]

/-- Walks on from a node that is next to be entered. -/
def traverse (l : Limits) (source : Source) (w : Walk) (f : Focus) : Except Fault Walk :=
  match w.enter l source f with
  | .error fault => .error fault
  | .ok u =>
    match hchild : f.firstChild? with
    | some g => u.traverse l source g
    | none =>
      match hnext : u.ascend l source f with
      | (v, some g) => v.traverse l source g
      | (v, none) => .ok v
  termination_by f.ahead
  decreasing_by
    · exact Focus.ahead_firstChild? hchild
    · have honward := ascend_snd l source u f
      rw [hnext] at honward
      exact Nat.lt_of_le_of_lt (Focus.ahead_onward? honward.symm)
        (Nat.lt_add_of_pos_left f.tree.size_pos)

/-- Judges what can only be judged at the end of a file. -/
def finish (l : Limits) (path : String) (w : Walk) : List Finding :=
  w.findings ++ Duplicate.check l path w.survey.routines ++ NameUsage.check l path w.survey.names

end Walk

/-- Every finding about a source, in the order in which they come up. -/
def Syntax.Source.emitted (l : Limits) (source : Source) : Except Fault (List Finding) :=
  (Walk.start.traverse l source (.root source.root)).map fun w => w.finish l source.path

/-- The findings about a source, each once. -/
def Syntax.Source.analyze (l : Limits) (source : Source) : Except Fault (List Finding) :=
  (source.emitted l).map distinct

/-- The findings about a document; one without a source has the single finding that says why. -/
def Syntax.Document.analyze (l : Limits) (path : String) (doc : Document) :
    Except Fault (List Finding) :=
  match Source.ofDocument path doc with
  | .error finding => .ok [finding]
  | .ok source => source.analyze l

end Coupling
