import Coupling.Proofs.Walk.Scopes

/-!
# Receivers and annotations

A public function is reported if neither its result nor any of its parameters is annotated, a
receiver left out. The receiver of a method is its first positional parameter; what the check leaves
out is its first parameter, whatever its kind. Both give the same answer unless the first parameter
is not positional and an annotation stands either there or at the first positional parameter.
-/

namespace Coupling

open Syntax

namespace Signature

def isPositional (p : Parameter) : Bool := p.kind == .positional

/-- The parameters without a receiver, which is the first positional one of a method. -/
def beyondReceiver (s : Signature) (inClass : Bool) : List Parameter :=
  if s.isMethod inClass then s.parameters.eraseP isPositional else s.parameters

/-- A public function whose result and these parameters have no annotation. -/
def untyped (s : Signature) (parameters : List Parameter) : Bool :=
  s.isPublic && !s.returnsAnnotated && !parameters.any (·.annotated)

/-- The first parameter of a method is not positional, and of that parameter and the first
positional one exactly one is annotated. Nothing else is. -/
def misjudged (s : Signature) (inClass : Bool) : Bool :=
  s.isMethod inClass && s.isPublic && !s.returnsAnnotated &&
    match s.parameters with
    | [] => false
    | first :: rest => !isPositional first && !(rest.eraseP isPositional).any (·.annotated) &&
        first.annotated != (rest.find? isPositional).any (·.annotated)

theorem any_eq_find?_or_eraseP {α : Type} (p q : α → Bool) (xs : List α) :
    xs.any q = ((xs.find? p).any q || (xs.eraseP p).any q) := by
  induction xs with
  | nil => rfl
  | cons x rest ih =>
    cases hp : p x with
    | true => rw [List.find?_cons_of_pos hp, List.eraseP_cons_of_pos hp, List.any_cons, Option.any]
    | false =>
      have hneg : ¬ p x = true := by simp [hp]
      rw [List.find?_cons_of_neg hneg, List.eraseP_cons_of_neg hneg, List.any_cons, List.any_cons,
        ih, Bool.or_left_comm]

theorem filter_eraseP {α : Type} (p : α → Bool) (xs : List α) :
    (xs.eraseP p).filter p = (xs.filter p).drop 1 ∧
      (xs.eraseP p).filter (!p ·) = xs.filter (!p ·) := by
  induction xs with
  | nil => exact ⟨rfl, rfl⟩
  | cons x rest ih =>
    cases hp : p x with
    | true => simp [hp]
    | false => simp [hp, ih]

/-- Without its receiver a method has the positional parameters that its callers see, and all
others. -/
theorem filter_beyondReceiver (s : Signature) (inClass : Bool) :
    (s.beyondReceiver inClass).filter isPositional = Position.visible s inClass ∧
      (s.beyondReceiver inClass).filter (!isPositional ·) =
        s.parameters.filter (!isPositional ·) := by
  unfold beyondReceiver Position.visible
  cases s.isMethod inClass with
  | true => exact filter_eraseP isPositional s.parameters
  | false => exact ⟨rfl, rfl⟩

/-- Leaving out the first parameter of a method instead of its receiver changes the answer for the
misjudged ones. -/
theorem untyped_drop (s : Signature) (inClass : Bool) :
    s.untyped (s.parameters.drop (if s.isMethod inClass then 1 else 0)) =
      (s.untyped (s.beyondReceiver inClass) ^^ s.misjudged inClass) := by
  unfold beyondReceiver misjudged
  cases s.isMethod inClass with
  | false => simp
  | true =>
    cases hparameters : s.parameters with
    | nil => simp
    | cons first rest =>
      cases hfirst : isPositional first with
      | true => simp [hfirst]
      | false =>
        -- What is left are the annotations of three disjoint parts of the parameters.
        have hneg : ¬ isPositional first = true := by simp [hfirst]
        have hrest := any_eq_find?_or_eraseP isPositional (·.annotated) rest
        simp only [untyped, hfirst, List.eraseP_cons_of_neg hneg, if_true, List.drop_succ_cons,
          List.drop_zero, List.any_cons, hrest]
        generalize first.annotated = annotated
        generalize (rest.find? isPositional).any (·.annotated) = receiver
        generalize (rest.eraseP isPositional).any (·.annotated) = others
        generalize s.isPublic = isPublic
        generalize s.returnsAnnotated = returns
        revert annotated receiver others isPublic returns
        decide

end Signature

/-! ### Reported functions -/

namespace Syntax.Focus

/-- A function with a name that is reported for its types. -/
def untyped (l : Limits) (source : Source) (f : Focus) : Bool :=
  l.checkTypeAnnotations && (Signature.ofFocus? source.text f).any fun s =>
    s.untyped (s.parameters.drop (f.receivers s))

/-- A finding says that a function has no annotations, and gives the number of parameters that were
looked at. -/
structure ReportsUntyped (source : Source) (f : Focus) (v : Finding) : Prop where
  kind_eq : v.kind = .type
  path_eq : v.path = source.path
  place_eq : v.place = source.text.placeOf f.tree
  facts : ∃ s, Signature.ofFocus? source.text f = some s ∧
    v.description = s!"Function '{s.name}' has no type annotations" ∧
    v.context.lookup "function_name" = some (.str s.name) ∧
    v.context.lookup "parameter_count" = some (.nat (s.parameters.length - f.receivers s))

theorem receivers_eq (f : Focus) (s : Signature) :
    f.receivers s = if s.isMethod f.inClass then 1 else 0 := by
  simp [receivers, Signature.isMethod]

end Syntax.Focus

theorem Finding.filter_type_of_genuine {kind : Kind} {path : String} {findings : List Finding}
    (hgenuine : ∀ v ∈ findings, v.Genuine kind path) :
    findings.filter (·.kind == .type) = if kind = .type then findings else [] := by
  split
  · rename_i hkind
    rw [List.filter_eq_self]
    intro v hv
    simp [(hgenuine v hv).kind_eq, hkind]
  · rename_i hkind
    rw [List.filter_eq_nil_iff]
    intro v hv
    simp [(hgenuine v hv).kind_eq, hkind]

namespace Syntax.Focus

variable {l : Limits} {source : Source} {f : Focus}

/-- A function with a signature is reported for its types exactly if it has none. -/
theorem reportsUntyped_check {s : Signature} (hs : Signature.ofFocus? source.text f = some s) :
    List.Forall₂ (ReportsUntyped source)
      (if s.untyped (s.parameters.drop (f.receivers s)) then [f] else []) <|
      Annotation.check source.path s (s.isMethod f.inClass) := by
  have hkept (parameters : List Parameter) :
      (!s.isPublic || s.returnsAnnotated || parameters.any (·.annotated)) =
        !s.untyped parameters := by
    simp [Signature.untyped, Bool.not_and]
  have hplace : s.place = source.text.placeOf f.tree := by
    unfold Signature.ofFocus? at hs
    split at hs
    · obtain ⟨name, _, rfl⟩ := Option.map_eq_some_iff.mp hs
      rfl
    · simp at hs
  simp only [hkept, Annotation.check, ← receivers_eq]
  cases s.untyped (s.parameters.drop (f.receivers s)) with
  | false => exact .nil
  | true =>
    refine .cons ⟨rfl, rfl, hplace, s, hs, rfl, rfl, ?_⟩ .nil
    rw [← List.length_drop]
    rfl

theorem reportsUntyped_entryFindings {new : List Finding}
    (hnew : f.entryFindings l source f.inClass = .ok new) :
    List.Forall₂ (ReportsUntyped source) ([f].filter (untyped l source))
      (new.filter (·.kind == .type)) := by
  -- Only functions are looked at, and no other node leads to such a finding.
  have hother (kind : Kind) (htype : kind ≠ .type)
      (hunsigned : Signature.ofFocus? source.text f = none)
      (hgenuine : ∀ v ∈ new, v.Genuine kind source.path) :
      List.Forall₂ (ReportsUntyped source) ([f].filter (untyped l source))
        (new.filter (·.kind == .type)) := by
    rw [Finding.filter_type_of_genuine hgenuine, if_neg htype,
      List.filter_cons_of_neg (by simp [untyped, hunsigned])]
    exact .nil
  have hnone (hkind : f.kind ≠ .functionDefinition) : Signature.ofFocus? source.text f = none :=
    if_neg hkind
  have hliteral (hkind : f.kind ≠ .functionDefinition)
      (hcheck : Literal.check l source f = .ok new) :=
    hother .meaning (by decide) (hnone hkind) fun v hv =>
      Literal.genuine_of_mem_check hcheck hv
  unfold entryFindings at hnew
  split at hnew
  · split at hnew
    · rename_i hunnamed
      rw [Except.ok.injEq] at hnew
      subst hnew
      exact hother .name (by decide) hunnamed (by simp)
    · rename_i s hs
      rw [Except.ok.injEq] at hnew
      subst hnew
      rw [List.filter_append, Finding.filter_type_of_genuine fun v hv =>
        Position.genuine_of_mem_checkSignature hv, if_neg (by decide), List.nil_append]
      cases hon : l.checkTypeAnnotations with
      | false =>
        rw [List.filter_cons_of_neg (by simp [untyped, hon])]
        exact .nil
      | true =>
        have hfilter : [f].filter (untyped l source) =
            if s.untyped (s.parameters.drop (f.receivers s)) then [f] else [] := by
          simp [List.filter_cons, untyped, hon, hs]
        rw [hfilter, if_pos rfl, Finding.filter_type_of_genuine fun v hv =>
          Annotation.genuine_of_mem_check hv, if_pos rfl]
        exact reportsUntyped_check hs
  · rename_i hkind
    rw [Except.ok.injEq] at hnew
    exact hother .godObject (by decide) (hnone (by simp [hkind]))
      fun v hv => ClassSize.genuine_of_mem_check (hnew ▸ hv)
  · rename_i hkind
    exact hliteral (by simp [hkind]) hnew
  · rename_i hkind
    exact hliteral (by simp [hkind]) hnew
  · rename_i hkind
    exact hliteral (by simp [hkind]) hnew
  · rename_i hkind
    rw [Except.ok.injEq] at hnew
    exact hother .position (by decide) (hnone (by simp [hkind]))
      fun v hv => Position.genuine_of_mem_checkCall (hnew ▸ hv)
  · rename_i hfun _ _ _ _ _
    rw [Except.ok.injEq] at hnew
    exact hother .name (by decide) (hnone hfun) (by simp [← hnew])

end Syntax.Focus

theorem Walk.reportsUntyped_emitted {l : Limits} {source : Source} {findings : List Finding}
    (hemitted : source.emitted l = .ok findings) :
    List.Forall₂ (Focus.ReportsUntyped source)
      (source.root.preorder.filter (Focus.untyped l source))
      (findings.filter (·.kind == .type)) := by
  refine forall₂_emitted Focus.reportsUntyped_entryFindings (fun f scopes => ?_)
    (fun routines => ?_) (fun table => ?_) hemitted
  · exact Finding.filter_type_of_genuine fun v hv => Focus.genuine_of_exitFindings hv
  · exact Finding.filter_type_of_genuine fun v hv => Duplicate.genuine_of_mem_check hv
  · exact Finding.filter_type_of_genuine fun v hv => NameUsage.genuine_of_mem_check hv

namespace Syntax

/-- The functions that are reported for their types, each once and in order. They are the public
functions without an annotation beyond the receiver, which is the parameter that callers by position
do not see, except that the opposite is said of the misjudged ones. -/
theorem Source.untyped_functions_reported (l : Limits) (source : Source) :
    (source.Fits l → ∃ findings, source.emitted l = .ok findings) ∧
    (∀ findings, source.emitted l = .ok findings →
      List.Forall₂ (Focus.ReportsUntyped source)
        (source.root.preorder.filter (Focus.untyped l source))
        (findings.filter (·.kind == .type))) ∧
    ∀ (f : Focus) s, Signature.ofFocus? source.text f = some s →
      f.untyped l source = (l.checkTypeAnnotations &&
        (s.untyped (s.beyondReceiver f.inClass) ^^ s.misjudged f.inClass)) ∧
      (s.beyondReceiver f.inClass).filter Signature.isPositional =
        Position.visible s f.inClass ∧
      (s.beyondReceiver f.inClass).filter (!Signature.isPositional ·) =
        s.parameters.filter (!Signature.isPositional ·) := by
  refine ⟨Walk.emitted_ok, fun findings => Walk.reportsUntyped_emitted, fun f s hs => ⟨?_, ?_⟩⟩
  · rw [Focus.untyped, hs, Option.any_some, f.receivers_eq s, s.untyped_drop]
  · exact s.filter_beyondReceiver f.inClass

def annotationLimits : Limits := { checkTypeAnnotations := true }

/-- The function and the method in it are reported. The method has a receiver, which is its first
parameter. -/
theorem untyped_functions_reported_nestedSource :
    ∃ findings, nestedSource.emitted annotationLimits = .ok findings ∧
      (findings.filter (·.kind == .type)).length = 2 := by
  obtain ⟨hok, hreports, _⟩ := Source.untyped_functions_reported annotationLimits nestedSource
  obtain ⟨findings, hfindings⟩ := hok (by unfold Source.Fits; decide +kernel)
  have huntyped : (nestedSource.root.preorder.filter
      (Focus.untyped annotationLimits nestedSource)).length = 2 := by
    decide +kernel
  exact ⟨findings, hfindings, (hreports findings hfindings).length_eq.symm.trans huntyped⟩

/-- The source `def m(*args: int): pass` in a class. -/
def starredSource : Source where
  path := "mod.py"
  text := .ofChars "class A:\n    def m(*args: int): pass\n".toList
  root := .span (.other "module") none 0 37
    [.span .classDefinition none 0 36
      [.span .identifier (some .name) 6 7 [],
       .span .block (some .body) 13 36
        [.span .functionDefinition none 13 36
          [.span .identifier (some .name) 17 18 [],
           .span .parameters (some .parameters) 18 30
            [.span .typedParameter none 19 29
              [.span .listSplatPattern none 19 24 [.span .identifier none 20 24 []],
               .span (.other "type") (some (.other "type")) 26 29
                [.span .identifier none 26 29 []]]],
           .span .block (some .body) 32 36
            [.span (.other "pass_statement") none 32 36 []]]]]]

/-- The only parameter of the method is annotated and no receiver, so the method is not without
annotations. It is reported all the same. -/
theorem starred_method_reported :
    starredSource.root.preorder.filterMap (fun f =>
      (Signature.ofFocus? starredSource.text f).map fun s =>
        s.untyped (s.beyondReceiver f.inClass)) = [false] ∧
    ∃ findings, starredSource.emitted annotationLimits = .ok findings ∧
      (findings.filter (·.kind == .type)).length = 1 := by
  refine ⟨by decide +kernel, ?_⟩
  have hfits : starredSource.Fits annotationLimits := by
    unfold Source.Fits
    decide +kernel
  obtain ⟨findings, hemitted⟩ := Walk.emitted_ok hfits
  have huntyped : (starredSource.root.preorder.filter
      (Focus.untyped annotationLimits starredSource)).length = 1 := by
    decide +kernel
  exact ⟨findings, hemitted, (Walk.reportsUntyped_emitted hemitted).length_eq.symm.trans huntyped⟩

end Syntax

end Coupling
