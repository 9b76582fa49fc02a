import Coupling.Proofs.Paths.Below
import Coupling.Proofs.Text.Lower
import Coupling.Proofs.Walk.Faults
import Coupling.Proofs.Walk.Looser
import Mathlib.Data.List.Forall2

/-!
# What security settings change

The security keywords and the number of lines that are searched for them decide whether a literal is
related to security. That changes how severe its finding is and what is advised, and nothing else:
the identity of a finding covers neither, so the same findings are kept. More keywords and more
lines relate more literals to security.
-/

namespace Coupling

open Syntax

/-- The limits with other security settings. -/
def Limits.withSecurity (l : Limits) (keywords : List String) (window : Nat) : Limits :=
  { l with securityKeywords := keywords, securityContextLines := window }

/-! ### The lines around a literal -/

theorem isInfix_range' {a n a' n' : Nat} (hfirst : a' ≤ a) (hlast : a + n ≤ a' + n') :
    List.range' a n <:+: List.range' a' n' := by
  refine ⟨List.range' a' (a - a'), List.range' (a + n) (a' + n' - (a + n)), ?_⟩
  have hstart : a' + (a - a') = a := by omega
  have hmiddle := List.range'_append_1 (s := a') (m := a - a') (n := n)
  have hend := List.range'_append_1 (s := a') (m := a - a' + n) (n := a' + n' - (a + n))
  rw [hstart] at hmiddle
  rw [show a' + (a - a' + n) = a + n by omega,
    show a - a' + n + (a' + n' - (a + n)) = n' by omega] at hend
  rw [hmiddle, hend]

/-- A wider range holds the lines of a narrower one. -/
theorem Syntax.SourceText.isInfix_linesBetween (text : SourceText) {first last first' last' : Nat}
    (hfirst : first' ≤ first) (hlast : last ≤ last') :
    text.linesBetween first last <:+: text.linesBetween first' last' := by
  rw [linesBetween_eq, linesBetween_eq]
  apply List.IsInfix.filterMap
  by_cases hnone : min last text.starts.length + 1 ≤ max first 1
  · rw [Nat.sub_eq_zero_of_le hnone]
    exact List.nil_infix
  · apply isInfix_range'
    · omega
    · omega

namespace Literal

theorem isInfix_neighbourhood {a b : Limits}
    (hwindow : a.securityContextLines ≤ b.securityContextLines) (text : SourceText) (line : Nat) :
    (neighbourhood a text line).toList <:+: (neighbourhood b text line).toList := by
  apply Text.isInfix_lower_intercalate
  apply text.isInfix_linesBetween
  · omega
  · omega

/-- What is related to security stays so if there are more keywords and more lines to search. -/
theorem mentionsSecurity_mono {a b : Limits} (hkeywords : a.securityKeywords ⊆ b.securityKeywords)
    (hwindow : a.securityContextLines ≤ b.securityContextLines) {text : SourceText} {line : Nat}
    (h : mentionsSecurity a (neighbourhood a text line) = true) :
    mentionsSecurity b (neighbourhood b text line) = true := by
  obtain ⟨keyword, hkeyword, hoccurs⟩ := List.any_eq_true.mp h
  refine List.any_eq_true.mpr ⟨keyword, hkeywords hkeyword, ?_⟩
  rw [Paths.occurs_iff] at hoccurs ⊢
  exact hoccurs.trans (isInfix_neighbourhood hwindow text line)

variable {l : Limits} {keywords : List String} {window : Nat}

/-- Other security settings change one flag, and more of them only set it. -/
theorem surroundings_withSecurity {text : SourceText} {line : Nat} {s s' : Surroundings}
    (hs : surroundings l text line = .ok s)
    (hs' : surroundings (l.withSecurity keywords window) text line = .ok s') :
    s' = { s with securityRelated := s'.securityRelated } ∧
      (l.securityKeywords ⊆ keywords → l.securityContextLines ≤ window →
        s.securityRelated = true → s'.securityRelated = true) := by
  unfold surroundings at hs hs'
  cases hline : text.line? line with
  | none =>
    simp only [hline, Except.ok.injEq] at hs hs'
    rw [← hs, ← hs']
    exact ⟨rfl, fun _ _ h => h⟩
  | some content =>
    simp only [hline] at hs hs'
    split at hs
    · split at hs'
      · rw [Except.ok.injEq] at hs hs'
        rw [← hs, ← hs']
        exact ⟨rfl, fun hkeywords hwindow => mentionsSecurity_mono hkeywords hwindow⟩
      · simp at hs'
    · simp at hs

end Literal

/-! ### Findings that are graded anew -/

namespace Finding

/-- The entry of a context that says whether a literal is related to security. -/
def securityEntry : String := "security_related"

/-- The second finding says the same as the first. If they are about a literal they may differ in
how severe it is, in what is advised, and in whether it is related to security. -/
structure Regraded (v u : Finding) : Prop where
  id_eq : u.id = v.id
  kind_eq : u.kind = v.kind
  path_eq : u.path = v.path
  place_eq : u.place = v.place
  description_eq : u.description = v.description
  weight_eq : u.weight = v.weight
  context_eq : u.context.filter (·.1 ≠ securityEntry) = v.context.filter (·.1 ≠ securityEntry)
  /-- The difference is in the one entry, and everything else follows from it. -/
  eq_of_entry : u.context.lookup securityEntry = v.context.lookup securityEntry → u = v
  eq_of_kind : v.kind ≠ .meaning → u = v

theorem Regraded.refl (v : Finding) : v.Regraded v :=
  ⟨rfl, rfl, rfl, rfl, rfl, rfl, rfl, fun _ => rfl, fun _ => rfl⟩

/-- The second finding is critical if the first one is. -/
def StaysCritical (v u : Finding) : Prop := v.severity = .critical → u.severity = .critical

end Finding

open Finding

theorem Literal.regraded_finding (path : String) (place : Place) (m : Magic) (s : Surroundings)
    (related : Bool) :
    (finding path place m s).Regraded
      (finding path place m { s with securityRelated := related }) where
  id_eq := rfl
  kind_eq := rfl
  path_eq := rfl
  place_eq := rfl
  description_eq := rfl
  weight_eq := rfl
  context_eq := rfl
  eq_of_entry h := by
    have hrelated : some (Json.bool related) = some (Json.bool s.securityRelated) := h
    rw [Option.some.injEq, Json.bool.injEq] at hrelated
    rw [hrelated]
  eq_of_kind h := absurd rfl h

theorem Literal.staysCritical_finding {path : String} {place : Place} {m : Magic}
    {s s' : Surroundings} (h : s.securityRelated = true → s'.securityRelated = true) :
    (finding path place m s).StaysCritical (finding path place m s') := by
  intro hcritical
  have hrelated : s.securityRelated = true := by
    by_contra hunrelated
    rw [Bool.not_eq_true] at hunrelated
    simp only [finding, Finding.new, Surroundings.severity, hunrelated] at hcritical
    split at hcritical
    · contradiction
    · split at hcritical
      · contradiction
      · split at hcritical <;> contradiction
  simp only [finding, Finding.new, Surroundings.severity, h hrelated, if_true]

section Runs

variable {l : Limits} {keywords : List String} {window : Nat} {source : Source}

/-- The second findings are the first ones, graded by other security settings. -/
def Limits.Regrades (l : Limits) (keywords : List String) (window : Nat)
    (first second : List Finding) : Prop :=
  List.Forall₂ (fun v u => v.Regraded u ∧ (l.securityKeywords ⊆ keywords →
    l.securityContextLines ≤ window → v.StaysCritical u)) first second

theorem Limits.Regrades.refl (l : Limits) (keywords : List String) (window : Nat)
    (findings : List Finding) : l.Regrades keywords window findings findings :=
  List.forall₂_same.mpr fun v _ => ⟨.refl v, fun _ _ h => h⟩

theorem Literal.regrades_check {f : Focus}
    (hfits : ¬ source.Overflows (l.withSecurity keywords window) f) {new : List Finding}
    (hnew : check l source f = .ok new) :
    ∃ new', check (l.withSecurity keywords window) source f = .ok new' ∧
      l.Regrades keywords window new new' := by
  obtain ⟨new', hnew'⟩ := check_ok_of_not_overflows hfits
  refine ⟨new', hnew', ?_⟩
  have hmagic : magic? (l.withSecurity keywords window) source.text f = magic? l source.text f :=
    rfl
  unfold check at hnew hnew'
  rw [hmagic] at hnew'
  cases hm : magic? l source.text f with
  | none =>
    simp only [hm, Except.ok.injEq] at hnew hnew'
    rw [← hnew, ← hnew']
    exact .nil
  | some m =>
    simp only [hm] at hnew hnew'
    cases hs : surroundings l source.text (source.text.placeOf m.anchor).line with
    | error fault => simp [hs, Except.map] at hnew
    | ok s =>
      cases hs' : surroundings (l.withSecurity keywords window) source.text
          (source.text.placeOf m.anchor).line with
      | error fault => simp [hs', Except.map] at hnew'
      | ok s' =>
        obtain ⟨hsame, hgrows⟩ := surroundings_withSecurity hs hs'
        simp only [hs, hs', Except.map, Except.ok.injEq] at hnew hnew'
        rw [← hnew, ← hnew']
        refine .cons ⟨?_, fun hkeywords hwindow => ?_⟩ .nil
        · rw [hsame]
          exact regraded_finding ..
        · exact staysCritical_finding (hgrows hkeywords hwindow)

/-- Only literals look at the security settings. -/
theorem Limits.compares_withSecurity
    (hfits : ∀ f ∈ source.root.preorder, ¬ source.Overflows (l.withSecurity keywords window) f) :
    Walk.Compares l (l.withSecurity keywords window) source (l.Regrades keywords window) where
  nil := .nil
  append h h' := List.rel_append h h'
  exit _ _ := .refl ..
  entry {f inClass new} hf hnew := by
    unfold Focus.entryFindings at hnew ⊢
    split at hnew
    · exact ⟨new, hnew, .refl ..⟩
    · exact ⟨new, hnew, .refl ..⟩
    · exact Literal.regrades_check (hfits f hf) hnew
    · exact Literal.regrades_check (hfits f hf) hnew
    · exact Literal.regrades_check (hfits f hf) hnew
    · exact ⟨new, hnew, .refl ..⟩
    · exact ⟨new, hnew, .refl ..⟩

end Runs

/-- Findings with the same identities lose the same repetitions. -/
theorem forall₂_distinctFrom {R : Finding → Finding → Prop} (hid : ∀ v u, R v u → u.id = v.id)
    {first second : List Finding} (h : List.Forall₂ R first second) (seen : List String) :
    List.Forall₂ R (distinctFrom seen first) (distinctFrom seen second) := by
  induction h generalizing seen with
  | nil => exact .nil
  | @cons v u first second hvu _ ih =>
    rw [distinctFrom, distinctFrom, hid v u hvu]
    split
    · exact ih seen
    · exact .cons hvu (ih _)

/-- If no line number overflows, two analyses of a source that differ in their security settings
return the same findings in the same order, but for how severe those on literals are, what these
advise and whether they are related to security. With more keywords and more lines to search, what
was critical stays so. -/
theorem Syntax.Document.security_regrades (l : Limits) (keywords : List String) (window : Nat)
    (path : String) (doc : Document) (source : Source)
    (hsource : Source.ofDocument path doc = .ok source)
    (hfits : ∀ f ∈ source.root.preorder, ¬ source.Overflows l f)
    (hfits' : ∀ f ∈ source.root.preorder,
      ¬ source.Overflows (l.withSecurity keywords window) f) :
    ∃ first second, doc.analyze l path = .ok first ∧
      doc.analyze (l.withSecurity keywords window) path = .ok second ∧
      List.Forall₂ Finding.Regraded first second ∧
      (l.securityKeywords ⊆ keywords → l.securityContextLines ≤ window →
        List.Forall₂ Finding.StaysCritical first second) := by
  obtain ⟨emitted, hemitted⟩ := Source.emitted_of_not_overflows hfits
  obtain ⟨emitted', hemitted', hregrades⟩ := (Limits.compares_withSecurity hfits').emitted
    (fun _ => .refl ..) (fun _ => .refl ..) hemitted
  have hkept := forall₂_distinctFrom (fun v u h => h.1.id_eq) hregrades []
  refine ⟨distinct emitted, distinct emitted', ?_, ?_, ?_, ?_⟩
  · simp only [analyze, hsource, Source.analyze, hemitted, Except.map]
  · simp only [analyze, hsource, Source.analyze, hemitted', Except.map]
  · exact hkept.imp fun _ _ h => h.1
  · exact fun hkeywords hwindow => hkept.imp fun _ _ h => h.2 hkeywords hwindow

namespace Syntax

/-- Limits that look for doors in the line of a literal. -/
def doorLimits : Limits := { securityKeywords := ["door"], securityContextLines := 0 }

/-- The second literal is in a line with a door. If the lines next to a literal count too, so is the
first one, and both are critical. -/
theorem security_regrades_doorDocument :
    ∃ first second, doorDocument.analyze doorLimits "mod.py" = .ok first ∧
      doorDocument.analyze (doorLimits.withSecurity ["door", "gate"] 1) "mod.py" = .ok second ∧
      first.map (·.severity) = [.medium, .critical] ∧
      List.Forall₂ Finding.Regraded first second ∧
      List.Forall₂ Finding.StaysCritical first second := by
  have hfits : doorSource.Fits doorLimits := by
    unfold Source.Fits
    decide +kernel
  have hfits' : doorSource.Fits (doorLimits.withSecurity ["door", "gate"] 1) := by
    unfold Source.Fits
    decide +kernel
  obtain ⟨first, second, hfirst, hsecond, hregraded, hcritical⟩ :=
    Document.security_regrades doorLimits ["door", "gate"] 1 "mod.py" doorDocument doorSource
      ofDocument_doorDocument (fun _ _ => hfits.not_overflows) fun _ _ => hfits'.not_overflows
  refine ⟨first, second, hfirst, hsecond, ?_, hregraded, hcritical (by decide) (by decide)⟩
  have hseverities : (doorDocument.analyze doorLimits "mod.py").map (·.map (·.severity)) =
      .ok [.medium, .critical] := by
    simp only [Document.analyze, ofDocument_doorDocument]
    decide +kernel
  rw [hfirst, Except.map, Except.ok.injEq] at hseverities
  exact hseverities

end Syntax

end Coupling
