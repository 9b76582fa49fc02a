import Coupling.Json.Decode
import Coupling.Proofs.Finding.Origin
import Coupling.Proofs.Text.Separated
import Coupling.Proofs.Walk.Counters
import Mathlib.Data.List.Find

/-!
# Which findings are kept

Of the findings with one identity the first is kept. The identity stands for the kind, the place and
the start of the description, so a finding is lost exactly if an earlier one agrees with it in these
and differs in something else. Functions with long names show that this happens: their descriptions
agree in the start that counts, whatever is wrong with them.
-/

namespace Coupling

open Syntax

/-! ### The first of each identity -/

theorem mem_distinctFrom_iff {seen : List String} {findings : List Finding} {v : Finding} :
    v ∈ distinctFrom seen findings ↔ v.id ∉ seen ∧ findings.find? (·.id == v.id) = some v := by
  induction findings generalizing seen with
  | nil => simp [distinctFrom]
  | cons f rest ih =>
    rw [distinctFrom]
    by_cases hseen : f.id ∈ seen
    · rw [if_pos hseen, ih]
      by_cases hid : f.id = v.id
      · rw [← hid]
        simp [hseen]
      · rw [List.find?_cons_of_neg (by simpa using hid)]
    · rw [if_neg hseen, List.mem_cons, ih]
      by_cases hid : f.id = v.id
      · rw [List.find?_cons_of_pos (by simpa using hid), ← hid]
        simp [hseen, eq_comm]
      · have hne : v ≠ f := fun h => hid (by rw [h])
        rw [List.find?_cons_of_neg (by simpa using hid)]
        simp [hne, Ne.symm hid]

theorem mem_distinct_iff {findings : List Finding} {v : Finding} :
    v ∈ distinct findings ↔ findings.find? (·.id == v.id) = some v := by
  rw [distinct, mem_distinctFrom_iff]
  simp

/-! ### What the digested text tells -/

namespace Kind

theorem label_injective {k k' : Kind} (h : k.label = k'.label) : k = k' := by
  revert h
  cases k <;> cases k' <;> simp [label]

theorem bar_notMem_label (k : Kind) : '|' ∉ k.label.toList := by
  cases k <;> decide

end Kind

theorem bar_notMem_toString (n : Nat) : '|' ∉ (toString n).toList := by
  intro hbar
  exact absurd (Text.isDigit_of_mem_toString hbar) (by decide)

/-- About one file, the digested text determines the kind, the place and the start of the
description. -/
theorem canonical_injective {k k' : Kind} {path : String} {p p' : Place} {d d' : String}
    (h : canonical k path p d = canonical k' path p' d') :
    k = k' ∧ p = p' ∧ d.toList.take identityChars = d'.toList.take identityChars := by
  have hchars := congrArg String.toList h
  simp only [canonical, String.toList_append, String.toList_ofList, List.append_assoc,
    show "|".toList = ['|'] from rfl, List.cons_append, List.nil_append] at hchars
  obtain ⟨hlabel, hchars⟩ :=
    Text.append_cons_inj (Kind.bar_notMem_label k) (Kind.bar_notMem_label k') hchars
  obtain ⟨_, hchars⟩ := List.cons.inj (List.append_cancel_left hchars)
  obtain ⟨hline, hchars⟩ :=
    Text.append_cons_inj (bar_notMem_toString p.line) (bar_notMem_toString p'.line) hchars
  obtain ⟨hcolumn, hstart⟩ :=
    Text.append_cons_inj (bar_notMem_toString p.column) (bar_notMem_toString p'.column) hchars
  refine ⟨Kind.label_injective (String.toList_injective hlabel), ?_, hstart⟩
  cases p
  cases p'
  rw [Place.mk.injEq]
  exact ⟨Text.toString_nat_injective hline, Text.toString_nat_injective hcolumn⟩

namespace Finding

/-- The facts that take part in the identities of two findings about one file are the same. -/
def SameFacts (v u : Finding) : Prop :=
  v.kind = u.kind ∧ v.place = u.place ∧
    v.description.toList.take identityChars = u.description.toList.take identityChars

instance (v u : Finding) : Decidable (v.SameFacts u) :=
  inferInstanceAs (Decidable (_ ∧ _ ∧ _))

theorem SameFacts.refl (v : Finding) : v.SameFacts v := ⟨rfl, rfl, rfl⟩

/-- The digests of different texts about some findings differ. -/
def DigestsApart (findings : List Finding) : Prop :=
  ∀ v ∈ findings, ∀ u ∈ findings,
    identity v.kind v.path v.place v.description = identity u.kind u.path u.place u.description →
    canonical v.kind v.path v.place v.description = canonical u.kind u.path u.place u.description

theorem SameFacts.id_eq {v u : Finding} {kind kind' : Kind} {path : String}
    (h : v.SameFacts u) (hv : v.Genuine kind path) (hu : u.Genuine kind' path) : v.id = u.id := by
  rw [hv.id_eq, hu.id_eq, hv.path_eq, hu.path_eq, identity, identity, canonical, canonical, h.1,
    h.2.1, h.2.2]

theorem id_eq_iff_sameFacts {findings : List Finding} {path : String}
    (hgenuine : ∀ v ∈ findings, ∃ kind, v.Genuine kind path) (hdigest : DigestsApart findings)
    {v u : Finding} (hv : v ∈ findings) (hu : u ∈ findings) : u.id = v.id ↔ v.SameFacts u := by
  obtain ⟨kind, hgv⟩ := hgenuine v hv
  obtain ⟨kind', hgu⟩ := hgenuine u hu
  constructor
  · intro hid
    rw [hgu.id_eq, hgv.id_eq] at hid
    have htext := hdigest v hv u hu hid.symm
    rw [hgv.path_eq, hgu.path_eq] at htext
    exact canonical_injective htext
  · intro hsame
    exact (hsame.id_eq hgv hgu).symm

end Finding

/-- If digests do not collide, a finding is kept if it is the first with its facts. -/
theorem mem_distinct_iff_sameFacts {findings : List Finding} {path : String}
    (hgenuine : ∀ v ∈ findings, ∃ kind, v.Genuine kind path)
    (hdigest : Finding.DigestsApart findings) {v : Finding} :
    v ∈ distinct findings ↔ findings.find? (fun u => v.SameFacts u) = some v := by
  rw [mem_distinct_iff]
  have hfind : v ∈ findings → findings.find? (·.id == v.id) =
      findings.find? (fun u => v.SameFacts u) := by
    intro hv
    apply List.find?_congr
    intro u hu
    rw [Bool.eq_iff_iff, beq_iff_eq, decide_eq_true_iff]
    exact Finding.id_eq_iff_sameFacts hgenuine hdigest hv hu
  constructor
  · intro hfirst
    rwa [← hfind (List.mem_of_find?_eq_some hfirst)]
  · intro hfirst
    rwa [hfind (List.mem_of_find?_eq_some hfirst)]

/-- Of the findings with the same facts one is kept, whether digests collide or not. -/
theorem eq_of_mem_distinct {findings : List Finding} {path : String}
    (hgenuine : ∀ v ∈ findings, ∃ kind, v.Genuine kind path) {v u : Finding}
    (hv : v ∈ distinct findings) (hu : u ∈ distinct findings) (hsame : v.SameFacts u) : v = u := by
  rw [mem_distinct_iff] at hv hu
  obtain ⟨kind, hgv⟩ := hgenuine v (List.mem_of_find?_eq_some hv)
  obtain ⟨kind', hgu⟩ := hgenuine u (List.mem_of_find?_eq_some hu)
  rw [hsame.id_eq hgv hgu, hu] at hv
  exact (Option.some.inj hv).symm

theorem all_kept_iff {findings : List Finding} {path : String}
    (hgenuine : ∀ v ∈ findings, ∃ kind, v.Genuine kind path)
    (hdigest : Finding.DigestsApart findings) :
    (∀ v ∈ findings, v ∈ distinct findings) ↔
      ∀ v ∈ findings, ∀ u ∈ findings, v.SameFacts u → v = u := by
  constructor
  · intro hkept v hv u hu hsame
    exact eq_of_mem_distinct hgenuine (hkept v hv) (hkept u hu) hsame
  · intro halone v hv
    rw [mem_distinct_iff_sameFacts hgenuine hdigest]
    cases hfirst : findings.find? (fun u => v.SameFacts u) with
    | none =>
      have hnone := List.find?_eq_none.mp hfirst v hv
      exact absurd (Finding.SameFacts.refl v) (by simpa using hnone)
    | some u =>
      have hsame : v.SameFacts u := by simpa using List.find?_some hfirst
      rw [halone v hv u (List.mem_of_find?_eq_some hfirst) hsame]

/-! ### Long names -/

namespace Tally

/-- Characters of a name after which two findings about a function look the same. -/
def longName : Nat := 34

private theorem take_description {name : List Char} (hlong : longName ≤ name.length)
    (rest : List Char) :
    ("Function '".toList ++ name ++ ("' has ".toList ++ rest)).take identityChars =
      ("Function '".toList ++ name ++ "' has ".toList).take identityChars := by
  rw [← List.append_assoc, List.take_append_of_le_length]
  simp only [List.length_append, identityChars, longName] at hlong ⊢
  have hfunction : "Function '".toList.length = 10 := rfl
  have hhas : "' has ".toList.length = 6 := rfl
  omega

/-- If the name of a function is long, its findings on branching and on nesting agree in everything
that identifies them. -/
theorem sameFacts_of_long_name {l : Limits} {path : String} {t : Tally} {v u : Finding}
    (hlong : longName ≤ t.name.length) (hv : v ∈ t.checkComplexity l path)
    (hu : u ∈ t.checkNesting l path) : v.SameFacts u := by
  unfold checkComplexity at hv
  unfold checkNesting at hu
  split at hv
  · simp at hv
  split at hu
  · simp at hu
  rw [List.mem_singleton.mp hv, List.mem_singleton.mp hu]
  refine ⟨rfl, rfl, ?_⟩
  have hlong' : longName ≤ t.name.toList.length := by rwa [String.length_toList]
  have hhigh : "' has high cyclomatic complexity (".toList =
      "' has ".toList ++ "high cyclomatic complexity (".toList := rfl
  have hexcessive : "' has excessive nesting depth (".toList =
      "' has ".toList ++ "excessive nesting depth (".toList := rfl
  simp only [Finding.new, String.toList_append, toString, hhigh, hexcessive, List.append_assoc]
  simp only [← List.append_assoc "Function '".toList]
  rw [take_description hlong', take_description hlong']

theorem ne_of_mem_checks {l : Limits} {path : String} {t : Tally} {v u : Finding}
    (hv : v ∈ t.checkComplexity l path) (hu : u ∈ t.checkNesting l path) : v ≠ u := by
  unfold checkComplexity at hv
  unfold checkNesting at hu
  split at hv
  · simp at hv
  split at hu
  · simp at hu
  rw [List.mem_singleton.mp hv, List.mem_singleton.mp hu]
  intro heq
  simpa [Finding.new] using congrArg Finding.context heq

end Tally

namespace Walk

variable {l : Limits} {source : Source} {findings : List Finding}

/-- The findings about a function at its end are findings about its source. -/
theorem check_subset_emitted (hemitted : source.emitted l = .ok findings) {f : Focus}
    (hf : f ∈ source.root.preorder) (hkind : f.kind = .functionDefinition) :
    (f.tally source).check l source.path ⊆ findings := by
  rw [emitted_eq_run] at hemitted
  cases hrun : start.run l source source.events with
  | error fault => simp [hrun, Except.map] at hemitted
  | ok w =>
    simp only [hrun, Except.map, Except.ok.injEq] at hemitted
    obtain ⟨done, todo, hsplit⟩ := List.append_of_mem
      ((Event.mem_ofTree_iff [] source.root (.leave f)).mpr hf)
    rw [Source.events, hsplit] at hrun
    obtain ⟨u, hdone, htodo⟩ := run_append_eq_ok.mp hrun
    obtain ⟨x, hleave, hlater⟩ := run_cons_eq_ok.mp htodo
    obtain ⟨rest, hscopes⟩ :=
      scopes_before_leave.1 [] source.root start u done f todo level_start hsplit hkind hdone
    have hexit : f.exitFindings l source.path u.survey.scopes =
        (f.tally source).check l source.path := by
      simp only [Focus.exitFindings, hkind, hscopes]
    rw [step, leave_eq, hexit, Except.ok.injEq] at hleave
    intro v hv
    have hx : v ∈ x.findings := by
      rw [← hleave]
      exact List.mem_append_right _ hv
    rw [← hemitted, finish]
    exact List.mem_append_left _ (List.mem_append_left _
      ((findings_prefix_run hlater).subset hx))

/-- A function with a long name that branches and nests too much has a finding that is lost. -/
theorem lost_of_long_name (hemitted : source.emitted l = .ok findings) {f : Focus}
    (hf : f ∈ source.root.preorder) (hkind : f.kind = .functionDefinition)
    (hlong : Tally.longName ≤ (ClassSize.name source.text f.tree).length)
    (hbranching : l.maxCyclomaticComplexity < 1 + f.decisionsBelow)
    (hnesting : l.maxNestingDepth < f.nestingBelow) :
    ∃ v ∈ findings, v ∉ distinct findings := by
  have hcheck := check_subset_emitted hemitted hf hkind
  have hcomplexity := (Tally.length_checkComplexity l source.path (f.tally source)).trans
    (if_pos hbranching)
  have hdepth := (Tally.length_checkNesting l source.path (f.tally source)).trans (if_pos hnesting)
  obtain ⟨v, hv⟩ := List.length_eq_one_iff.mp hcomplexity
  obtain ⟨u, hu⟩ := List.length_eq_one_iff.mp hdepth
  have hv' : v ∈ (f.tally source).checkComplexity l source.path := by simp [hv]
  have hu' : u ∈ (f.tally source).checkNesting l source.path := by simp [hu]
  by_cases hkept : v ∈ distinct findings
  · refine ⟨u, hcheck (List.mem_append_right _ hu'), fun hlost => ?_⟩
    exact Tally.ne_of_mem_checks hv' hu' (eq_of_mem_distinct (emitted_genuine hemitted) hkept hlost
      (Tally.sameFacts_of_long_name hlong hv' hu'))
  · exact ⟨v, hcheck (List.mem_append_left _ hv'), hkept⟩

end Walk

/-- If digests do not collide, what is kept is the first finding of each kind, place and start of a
description. So nothing is lost exactly if findings that agree in these are the same; a function
with a long name that branches and nests too much always loses one. -/
theorem Syntax.Source.kept_iff_first_of_facts (l : Limits) (source : Source)
    (findings : List Finding) (hemitted : source.emitted l = .ok findings)
    (hdigest : Finding.DigestsApart findings) :
    source.analyze l = .ok (distinct findings) ∧
    (∀ v, v ∈ distinct findings ↔ findings.find? (fun u => v.SameFacts u) = some v) ∧
    ((∀ v ∈ findings, v ∈ distinct findings) ↔
      ∀ v ∈ findings, ∀ u ∈ findings, v.SameFacts u → v = u) ∧
    ∀ f ∈ source.root.preorder, f.kind = .functionDefinition →
      Tally.longName ≤ (ClassSize.name source.text f.tree).length →
      l.maxCyclomaticComplexity < 1 + f.decisionsBelow → l.maxNestingDepth < f.nestingBelow →
      ∃ v ∈ findings, v ∉ distinct findings := by
  have hgenuine := Walk.emitted_genuine hemitted
  refine ⟨?_, fun v => mem_distinct_iff_sameFacts hgenuine hdigest, all_kept_iff hgenuine hdigest,
    fun f hf hkind hlong hbranching hnesting =>
      Walk.lost_of_long_name hemitted hf hkind hlong hbranching hnesting⟩
  rw [analyze, hemitted, Except.map]

namespace Syntax

/-- A call of what a call returns, both with two arguments. -/
def chainedSource : Source where
  path := "chained.py"
  text := .ofChars "f(a,b)(a,b)\n".toList
  root := .span (.other "module") none 0 12
    [.span .expressionStatement none 0 11
      [.span .call none 0 11
        [.span .call (some .function) 0 6
          [.span .identifier (some .function) 0 1 [],
           .span .argumentList (some .arguments) 1 6
             [.span .identifier none 2 3 [], .span .identifier none 4 5 []]],
         .span .argumentList (some .arguments) 6 11
           [.span .identifier none 7 8 [], .span .identifier none 9 10 []]]]]

/-- The two calls start at one place and are described in the same words, but call different
functions. -/
theorem kept_iff_first_of_facts_chainedSource :
    ∃ findings, chainedSource.emitted { maxCallArgs := 1 } = .ok findings ∧
      Finding.DigestsApart findings ∧ ∃ v ∈ findings, v ∉ distinct findings := by
  have hfacts : (chainedSource.emitted { maxCallArgs := 1 }).toOption.map (·.map fun v =>
      ((v.kind, v.path, v.place, v.description),
        (v.context.lookup "function_name").bind Json.text?)) = some
      [((.position, "chained.py", ⟨1, 0⟩, "Function call with 2 positional arguments (>1)"),
          some "unknown"),
       ((.position, "chained.py", ⟨1, 0⟩, "Function call with 2 positional arguments (>1)"),
          some "f")] := by
    decide +kernel
  cases hemitted : chainedSource.emitted { maxCallArgs := 1 } with
  | error fault => simp [hemitted, Except.toOption] at hfacts
  | ok findings =>
    rw [hemitted, Except.toOption, Option.map_some, Option.some.injEq] at hfacts
    obtain ⟨v, rest, rfl, hv, hrest⟩ := List.map_eq_cons_iff.mp hfacts
    obtain ⟨u, rest', rfl, hu, hnil⟩ := List.map_eq_cons_iff.mp hrest
    obtain rfl := List.map_eq_nil_iff.mp hnil
    simp only [Prod.mk.injEq] at hv hu
    have hdigest : Finding.DigestsApart [v, u] := by
      intro x hx y hy _
      simp only [List.mem_cons, List.not_mem_nil, or_false] at hx hy
      rcases hx with rfl | rfl <;> rcases hy with rfl | rfl <;> simp only [hv, hu]
    obtain ⟨_, _, hkept, _⟩ :=
      Source.kept_iff_first_of_facts { maxCallArgs := 1 } chainedSource [v, u] hemitted hdigest
    have hsame : v.SameFacts u := by simp only [Finding.SameFacts, hv, hu, and_self]
    have hne : v ≠ u := fun heq => by simp [heq, hu.2] at hv
    refine ⟨[v, u], rfl, hdigest, ?_⟩
    by_contra hall
    have hevery : ∀ x ∈ [v, u], x ∈ distinct [v, u] := fun x hx =>
      by_contra fun hx' => hall ⟨x, hx, hx'⟩
    exact hne (hkept.mp hevery v (by simp) u (by simp) hsame)

/-- A token of a text without faults. -/
private def token (text : String) (start stop : Nat) : Tree :=
  .node ⟨.other text, none, false, false, false, false, start, stop⟩ []

/-- A function with a name of 34 characters and a condition in a condition. -/
def longNamed : Tree :=
  .span .functionDefinition none 0 71
    [token "def" 0 3, .span .identifier (some .name) 4 38 [],
     .span .parameters (some .parameters) 38 41
       [token "(" 38 39, .span .identifier none 39 40 [], token ")" 40 41],
     token ":" 41 42,
     .span .block (some .body) 47 71
       [.span .ifStatement none 47 71
         [token "if" 47 49, .span .identifier (some (.other "condition")) 50 51 [], token ":" 51 52,
          .span .block (some .consequence) 61 71
            [.span .ifStatement none 61 71
              [token "if" 61 63, .span .identifier (some (.other "condition")) 64 65 [],
               token ":" 65 66,
               .span .block (some .consequence) 67 71
                 [.span (.other "pass_statement") none 67 71 [token "pass" 67 71]]]]]]]

def longNamedSource : Source where
  path := "mod.py"
  text := .ofChars ("def settle_every_open_account_of_today(a):\n    if a:\n" ++
    "        if a: pass\n").toList
  root := .span (.other "module") none 0 72 [longNamed]

/-- Limits of one decision and one level of blocks. -/
def narrowLimits : Limits := { maxCyclomaticComplexity := 1, maxNestingDepth := 1 }

/-- The function has two findings of which one is lost. -/
theorem finding_lost_longNamedSource :
    ∃ findings kept v, longNamedSource.emitted narrowLimits = .ok findings ∧
      longNamedSource.analyze narrowLimits = .ok kept ∧ v ∈ findings ∧ v ∉ kept := by
  have hfits : longNamedSource.Fits narrowLimits := by
    unfold Source.Fits
    decide +kernel
  obtain ⟨w, hw⟩ := Walk.run_ok hfits Walk.start longNamedSource.events
  have hemitted := Walk.emitted_eq_run narrowLimits longNamedSource
  rw [hw, Except.map] at hemitted
  have hname : Tally.longName ≤ (ClassSize.name longNamedSource.text longNamed).length := by
    decide +kernel
  obtain ⟨v, hv, hlost⟩ := Walk.lost_of_long_name hemitted
    (f := ⟨longNamed, [(longNamedSource.root, 0)]⟩) (.tail _ (.head _)) rfl hname (by decide)
    (by decide)
  exact ⟨_, _, v, hemitted, by rw [Source.analyze, hemitted, Except.map], hv, hlost⟩

end Syntax

end Coupling
