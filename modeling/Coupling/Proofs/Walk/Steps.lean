import Coupling.Proofs.Walk.Events
import Mathlib.Algebra.Group.Nat.Defs

/-!
# What one event of a walk does

Entering a node opens a scope if the node is a definition, counts for every open function, and emits
the findings that the kind of the node asks for. Leaving it takes all of that back and judges a
function that ends. `enter_eq` and `leave_eq` say so in one equation each; no later proof looks into
the two operations.
-/

namespace Coupling

open Syntax

namespace Syntax.Focus

/-- The node is a definition of a function or of a class. -/
def defines (f : Focus) : Bool := f.kind == .functionDefinition || f.kind == .classDefinition

/-- The scope that a definition opens. -/
def frame? (source : Source) (f : Focus) : Option Scope :=
  match f.kind with
  | .functionDefinition =>
    some (.function (.start (ClassSize.name source.text f.tree) (source.text.placeOf f.tree)))
  | .classDefinition => some (.cls (ClassSize.name source.text f.tree))
  | _ => none

/-- What is kept of a function for the search for duplicates. -/
def routine? (source : Source) (f : Focus) : Option Routine :=
  (Signature.ofFocus? source.text f).bind fun s =>
    (Shape.ofFunction? f.tree s.parameters.length).map fun shape => ⟨s.name, s.place, shape⟩

/-- The findings that a node calls for on entering it, directly in a class or not. -/
def entryFindings (l : Limits) (source : Source) (inClass : Bool) (f : Focus) :
    Except Fault (List Finding) :=
  match f.kind with
  | .functionDefinition =>
    match Signature.ofFocus? source.text f with
    | none => .ok []
    | some s =>
      .ok (Position.checkSignature l source.path s inClass ++
        if l.checkTypeAnnotations then Annotation.check source.path s (s.isMethod inClass) else [])
  | .classDefinition => .ok (ClassSize.check l source f.tree)
  | .integer | .float | .string => Literal.check l source f
  | .call => .ok (Position.checkCall l source f.tree)
  | _ => .ok []

end Syntax.Focus

namespace Tally

/-- How entering a node of some kind changes the counters of the functions around it. -/
def entering (kind : NodeKind) (t : Tally) : Tally :=
  if nests kind then (t.addDecisions (decisions kind)).openBlock
  else t.addDecisions (decisions kind)

/-- How leaving a node of some kind changes the counters of the functions around it. -/
def leaving (kind : NodeKind) (t : Tally) : Tally := if nests kind then t.closeBlock else t

end Tally

namespace Survey

def entering (source : Source) (f : Focus) (s : Survey) : Survey where
  scopes := ((f.frame? source).toList ++ s.scopes).map (·.mapTally (Tally.entering f.kind))
  names :=
    if NameUsage.isReference f then
      s.names.record (source.text.text f.tree) (source.text.placeOf f.tree)
    else s.names
  routines := s.routines ++ (f.routine? source).toList

def leaving (f : Focus) (s : Survey) : Survey where
  scopes :=
    (s.scopes.map (·.mapTally (Tally.leaving f.kind))).drop (if f.defines then 1 else 0)
  names := s.names
  routines := s.routines

end Survey

/-- The findings about the function that ends with a node, given the scopes that are open. -/
def Syntax.Focus.exitFindings (l : Limits) (path : String) (scopes : List Scope) (f : Focus) :
    List Finding :=
  match f.kind, scopes with
  | .functionDefinition, .function tally :: _ => tally.check l path
  | _, _ => []

theorem Syntax.Focus.length_frame? (source : Source) (f : Focus) :
    (f.frame? source).toList.length = if f.defines then 1 else 0 := by
  unfold frame? defines
  split <;> simp_all

namespace Scope

@[simp] theorem mapTally_id (s : Scope) : s.mapTally id = s := by
  cases s <;> rfl

@[simp] theorem mapTally_mapTally (s : Scope) (f g : Tally → Tally) :
    (s.mapTally f).mapTally g = s.mapTally (g ∘ f) := by
  cases s <;> rfl

end Scope

namespace Tally

/-- Definitions count for nothing. -/
theorem entering_of_defines {f : Focus} (hf : f.defines = true) : entering f.kind = id := by
  simp only [Focus.defines, Bool.or_eq_true, beq_iff_eq] at hf
  rcases hf with hf | hf <;> rw [hf] <;> rfl

theorem leaving_of_defines {f : Focus} (hf : f.defines = true) : leaving f.kind = id := by
  simp only [Focus.defines, Bool.or_eq_true, beq_iff_eq] at hf
  rcases hf with hf | hf <;> rw [hf] <;> rfl

end Tally

namespace Walk

variable (l : Limits) (source : Source) (f : Focus) (w : Walk)

private theorem enterFunction_eq (hf : f.kind = .functionDefinition) :
    w.enterFunction l source f =
      { survey :=
          { scopes := .function (.start (ClassSize.name source.text f.tree)
              (source.text.placeOf f.tree)) :: w.survey.scopes
            names := w.survey.names
            routines := w.survey.routines ++ (f.routine? source).toList }
        findings := w.findings ++
          match Signature.ofFocus? source.text f with
          | none => []
          | some s => Position.checkSignature l source.path s w.survey.inClass ++
              if l.checkTypeAnnotations then
                Annotation.check source.path s (s.isMethod w.survey.inClass)
              else [] } := by
  unfold enterFunction Focus.routine?
  cases hname : f.tree.child? .name with
  | none =>
    have hnone : Signature.ofFocus? source.text f = none := by
      simp [Signature.ofFocus?, hname]
    simp [hnone, Survey.enterFunction, ClassSize.name, hname]
  | some name =>
    obtain ⟨s, hs, hsname, hsplace⟩ : ∃ s, Signature.ofFocus? source.text f = some s ∧
        s.name = source.text.text name ∧ s.place = source.text.placeOf f.tree := by
      simp [Signature.ofFocus?, hname, hf]
    have hclass : ClassSize.name source.text f.tree = s.name := by
      simp [ClassSize.name, hname, hsname]
    rw [hs, hclass]
    cases hshape : Shape.ofFunction? f.tree s.parameters.length with
    | none => simp [hshape, Survey.enterFunction, hsplace, List.append_assoc]
    | some shape =>
      simp [hshape, Survey.enterFunction, Survey.recordRoutine, hsplace, List.append_assoc]

private theorem routine?_eq_none (hf : f.kind ≠ .functionDefinition) :
    f.routine? source = none := by
  simp [Focus.routine?, Signature.ofFocus?, hf]

private theorem isReference_eq_false (hf : f.kind ≠ .identifier) :
    NameUsage.isReference f = false := by
  simp [NameUsage.isReference, hf]

private theorem map_mapTally_addDecisions (s : Survey) (kind : NodeKind) :
    (if Tally.nests kind then (s.addDecisions (Tally.decisions kind)).openBlock
      else s.addDecisions (Tally.decisions kind)) =
      { s with scopes := s.scopes.map (·.mapTally (Tally.entering kind)) } := by
  cases hn : Tally.nests kind with
  | false =>
    have hentering : Tally.entering kind = (·.addDecisions (Tally.decisions kind)) := by
      funext t
      simp [Tally.entering, hn]
    rw [hentering]
    rfl
  | true =>
    have hentering : Tally.entering kind =
        Tally.openBlock ∘ (·.addDecisions (Tally.decisions kind)) := by
      funext t
      simp [Tally.entering, hn]
    rw [hentering]
    simp [Survey.openBlock, Survey.addDecisions, Survey.mapTallies]

/-- A node that is neither a definition nor an identifier only changes the counters. -/
private theorem entering_of_plain (s : Survey) (hdefines : f.defines = false)
    (hident : f.kind ≠ .identifier) :
    s.entering source f =
      { s with scopes := s.scopes.map (·.mapTally (Tally.entering f.kind)) } := by
  simp only [Focus.defines, Bool.or_eq_false_iff, beq_eq_false_iff_ne] at hdefines
  have hframe : f.frame? source = none := by
    unfold Focus.frame?
    split <;> simp_all
  have hroutine : f.routine? source = none := routine?_eq_none source f hdefines.1
  have href : NameUsage.isReference f = false := isReference_eq_false f hident
  simp [Survey.entering, hframe, hroutine, href]

private theorem enterKind_of_plain (hdefines : f.defines = false) (hident : f.kind ≠ .identifier) :
    w.enterKind l source f = (f.entryFindings l source w.survey.inClass).map w.emit := by
  simp only [Focus.defines, Bool.or_eq_false_iff, beq_eq_false_iff_ne] at hdefines
  unfold enterKind Focus.entryFindings
  split
  · exact absurd ‹_› hdefines.1
  · exact absurd ‹_› hdefines.2
  · rename_i hkind
    rw [hkind]
  · rename_i hkind
    rw [hkind]
  · rename_i hkind
    rw [hkind]
  · rename_i hkind
    rw [hkind]
    rfl
  · exact absurd ‹_› hident
  · split <;> first | contradiction | simp [Except.map, emit]

/-- Entering a node, in one equation. -/
theorem enter_eq :
    w.enter l source f = (f.entryFindings l source w.survey.inClass).map fun new =>
      ⟨w.survey.entering source f, w.findings ++ new⟩ := by
  rw [enter]
  simp only [map_mapTally_addDecisions]
  by_cases hfun : f.kind = .functionDefinition
  · simp only [enterKind, hfun, enterFunction_eq l source f w hfun, Focus.entryFindings]
    cases Signature.ofFocus? source.text f with
    | none => simp [Except.map, Survey.entering, Focus.frame?, hfun, isReference_eq_false]
    | some s => simp [Except.map, Survey.entering, Focus.frame?, hfun, isReference_eq_false]
  by_cases hclass : f.kind = .classDefinition
  · simp [enterKind, hclass, Focus.entryFindings, Except.map, enterClass, Survey.enterClass,
      Survey.entering, Focus.frame?, routine?_eq_none source f hfun, isReference_eq_false]
  by_cases hident : f.kind = .identifier
  · simp only [enterKind, hident, Focus.entryFindings]
    cases href : NameUsage.isReference f <;>
      simp [Except.map, Survey.entering, Focus.frame?, hident, routine?_eq_none source f hfun, href,
        Survey.recordName]
  · have hdefines : f.defines = false := by simp [Focus.defines, hfun, hclass]
    rw [enterKind_of_plain l source f w hdefines hident,
      entering_of_plain source f w.survey hdefines hident]
    cases f.entryFindings l source w.survey.inClass <;> rfl

theorem enter_eq_ok {l : Limits} {source : Source} {f : Focus} {w u : Walk}
    (henter : w.enter l source f = .ok u) :
    ∃ new, f.entryFindings l source w.survey.inClass = .ok new ∧
      u = ⟨w.survey.entering source f, w.findings ++ new⟩ := by
  rw [enter_eq] at henter
  cases hentry : f.entryFindings l source w.survey.inClass with
  | error fault => simp [hentry, Except.map] at henter
  | ok new =>
    simp only [hentry, Except.map, Except.ok.injEq] at henter
    exact ⟨new, rfl, henter.symm⟩

/-- Leaving a node, in one equation. -/
theorem leave_eq :
    w.leave l source f =
      ⟨w.survey.leaving f, w.findings ++ f.exitFindings l source.path w.survey.scopes⟩ := by
  have hcounters : (if Tally.nests f.kind then w.survey.closeBlock else w.survey) =
      { w.survey with scopes := w.survey.scopes.map (·.mapTally (Tally.leaving f.kind)) } := by
    cases hn : Tally.nests f.kind with
    | false =>
      have hleaving : Tally.leaving f.kind = id := by
        funext t
        simp [Tally.leaving, hn]
      rw [hleaving]
      simp
    | true =>
      have hleaving : Tally.leaving f.kind = Tally.closeBlock := by
        funext t
        simp [Tally.leaving, hn]
      rw [hleaving]
      rfl
  rw [leave, hcounters]
  unfold Focus.exitFindings
  by_cases hfun : f.kind = .functionDefinition
  · have hleaving : Tally.leaving f.kind = id :=
      Tally.leaving_of_defines (by simp [Focus.defines, hfun])
    rcases hscopes : w.survey.scopes with _ | ⟨_ | _, rest⟩ <;>
      simp [Survey.leave, Survey.leaving, Focus.defines, hscopes, hleaving] <;> simp [hfun]
  by_cases hclass : f.kind = .classDefinition
  · rcases hscopes : w.survey.scopes with _ | ⟨scope, rest⟩ <;>
      simp [hclass, Survey.leave, Survey.leaving, Focus.defines, hscopes]
  · have hdefines : f.defines = false := by simp [Focus.defines, hfun, hclass]
    split
    · contradiction
    · contradiction
    · split <;> simp_all [Survey.leaving]

end Walk

theorem Walk.findings_prefix_step {l : Limits} {source : Source} {w u : Walk} {e : Event}
    (hstep : w.step l source e = .ok u) : w.findings <+: u.findings := by
  cases e with
  | enter f =>
    obtain ⟨new, _, rfl⟩ := enter_eq_ok hstep
    exact List.prefix_append _ _
  | leave f =>
    rw [step, leave_eq, Except.ok.injEq] at hstep
    rw [← hstep]
    exact List.prefix_append _ _

/-- What has been found stays found. -/
theorem Walk.findings_prefix_run {l : Limits} {source : Source} {w u : Walk} {events : List Event}
    (hrun : w.run l source events = .ok u) : w.findings <+: u.findings := by
  induction events generalizing w with
  | nil =>
    rw [run, Except.ok.injEq] at hrun
    rw [hrun]
  | cons e rest ih =>
    obtain ⟨v, hstep, hrest⟩ := run_cons_eq_ok.mp hrun
    exact (findings_prefix_step hstep).trans (ih hrest)

/-! ### How far a walk gets -/

/-- The numbers of the lines around any literal fit in 64 bits. -/
def Syntax.Source.Fits (l : Limits) (source : Source) : Prop :=
  source.text.starts.length + l.securityContextLines < 2 ^ 64

theorem Literal.check_ok {l : Limits} {source : Source} (hfits : source.Fits l) (f : Focus) :
    ∃ new, Literal.check l source f = .ok new := by
  unfold Literal.check
  cases magic? l source.text f with
  | none => exact ⟨[], rfl⟩
  | some m =>
    have hline : (source.text.placeOf m.anchor).line ≤ source.text.starts.length :=
      (List.takeWhile_prefix _).length_le
    have hsum : (source.text.placeOf m.anchor).line + l.securityContextLines < Nat.pow 2 64 :=
      lt_of_le_of_lt (Nat.add_le_add_right hline _) hfits
    obtain ⟨s, hs⟩ : ∃ s,
        surroundings l source.text (source.text.placeOf m.anchor).line = .ok s := by
      unfold surroundings
      split
      · exact ⟨_, rfl⟩
      · exact ⟨_, if_pos hsum⟩
    exact ⟨[finding source.path (source.text.placeOf m.anchor) m s], by simp only [hs, Except.map]⟩

namespace Walk

theorem step_ok {l : Limits} {source : Source} (hfits : source.Fits l) (w : Walk) (e : Event) :
    ∃ u, w.step l source e = .ok u := by
  cases e with
  | leave f => exact ⟨_, rfl⟩
  | enter f =>
    obtain ⟨new, hnew⟩ : ∃ new, f.entryFindings l source w.survey.inClass = .ok new := by
      unfold Focus.entryFindings
      split
      · split <;> exact ⟨_, rfl⟩
      · exact ⟨_, rfl⟩
      · exact Literal.check_ok hfits f
      · exact Literal.check_ok hfits f
      · exact Literal.check_ok hfits f
      · exact ⟨_, rfl⟩
      · exact ⟨_, rfl⟩
    exact ⟨_, by rw [step, enter_eq, hnew, Except.map]⟩

/-- A walk comes to its end if the numbers of lines do not overflow. -/
theorem run_ok {l : Limits} {source : Source} (hfits : source.Fits l) (w : Walk)
    (events : List Event) : ∃ u, w.run l source events = .ok u := by
  induction events generalizing w with
  | nil => exact ⟨w, rfl⟩
  | cons e rest ih =>
    obtain ⟨v, hstep⟩ := step_ok hfits w e
    obtain ⟨u, hrest⟩ := ih v
    exact ⟨u, run_cons_eq_ok.mpr ⟨v, hstep, hrest⟩⟩

theorem emitted_ok {l : Limits} {source : Source} (hfits : source.Fits l) :
    ∃ findings, source.emitted l = .ok findings := by
  obtain ⟨w, hw⟩ := run_ok hfits start source.events
  exact ⟨w.finish l source.path, by rw [emitted_eq_run, hw, Except.map]⟩

end Walk

end Coupling
