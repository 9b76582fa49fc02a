import Coupling.Proofs.Finding.Sites

/-!
# Two walks through one file

The survey of a walk does not depend on the limits, so walks under different limits go through the
same states and differ in what they find only. What relates the findings of each event relates the
findings of the walks. Limits that are looser report less at every event: the text of a finding does
not mention the limit it exceeds, so the finding has the same identity under both.
-/

namespace Coupling

open Syntax

/-! ### Walks side by side -/

namespace Walk

variable {a b : Limits} {source : Source}

/-- A relation between findings under two limits that holds at every event of the walk. -/
structure Compares (a b : Limits) (source : Source) (R : List Finding → List Finding → Prop) :
    Prop where
  nil : R [] []
  append : ∀ {first first' second second'}, R first first' → R second second' →
    R (first ++ second) (first' ++ second')
  entry : ∀ {f : Focus} {inClass new}, f ∈ source.root.preorder →
    f.entryFindings a source inClass = .ok new →
    ∃ new', f.entryFindings b source inClass = .ok new' ∧ R new new'
  exit : ∀ (f : Focus) scopes,
    R (f.exitFindings a source.path scopes) (f.exitFindings b source.path scopes)

variable {R : List Finding → List Finding → Prop}

theorem Compares.step (h : Compares a b source R) {w w' u : Walk} {e : Event}
    (he : e.focus ∈ source.root.preorder) (hsurvey : w'.survey = w.survey)
    (hR : R w.findings w'.findings) (hstep : w.step a source e = .ok u) :
    ∃ u', w'.step b source e = .ok u' ∧ u'.survey = u.survey ∧ R u.findings u'.findings := by
  cases e with
  | enter f =>
    obtain ⟨new, hnew, rfl⟩ := enter_eq_ok hstep
    obtain ⟨new', hnew', hRnew⟩ := h.entry (f := f) he hnew
    refine ⟨⟨w.survey.entering source f, w'.findings ++ new'⟩, ?_, rfl, h.append hR hRnew⟩
    rw [Walk.step, enter_eq, hsurvey, hnew', Except.map]
  | leave f =>
    rw [Walk.step, leave_eq, Except.ok.injEq] at hstep
    rw [← hstep]
    refine ⟨⟨w.survey.leaving f, w'.findings ++ f.exitFindings b source.path w.survey.scopes⟩, ?_,
      rfl, h.append hR (h.exit f w.survey.scopes)⟩
    rw [Walk.step, leave_eq, hsurvey]

theorem Compares.run (h : Compares a b source R) {w w' u : Walk} {events : List Event}
    (hevents : ∀ e ∈ events, e.focus ∈ source.root.preorder) (hsurvey : w'.survey = w.survey)
    (hR : R w.findings w'.findings) (hrun : w.run a source events = .ok u) :
    ∃ u', w'.run b source events = .ok u' ∧ u'.survey = u.survey ∧ R u.findings u'.findings := by
  induction events generalizing w w' with
  | nil =>
    rw [Walk.run, Except.ok.injEq] at hrun
    rw [← hrun]
    exact ⟨w', rfl, hsurvey, hR⟩
  | cons e rest ih =>
    obtain ⟨he, hevents⟩ := List.forall_mem_cons.mp hevents
    obtain ⟨v, hstep, hrest⟩ := run_cons_eq_ok.mp hrun
    obtain ⟨v', hstep', hsurvey', hR'⟩ := h.step he hsurvey hR hstep
    obtain ⟨u', hrest', hsame⟩ := ih hevents hsurvey' hR' hrest
    exact ⟨u', run_cons_eq_ok.mpr ⟨v', hstep', hrest'⟩, hsame⟩

/-- Findings under two limits are related if those of each event and those at the end are. -/
theorem Compares.emitted (h : Compares a b source R)
    (hduplicates : ∀ routines,
      R (Duplicate.check a source.path routines) (Duplicate.check b source.path routines))
    (hnames : ∀ table,
      R (NameUsage.check a source.path table) (NameUsage.check b source.path table))
    {findings : List Finding} (hemitted : source.emitted a = .ok findings) :
    ∃ findings', source.emitted b = .ok findings' ∧ R findings findings' := by
  rw [emitted_eq_run] at hemitted ⊢
  cases hrun : start.run a source source.events with
  | error fault => simp [hrun, Except.map] at hemitted
  | ok u =>
    have hevents : ∀ e ∈ source.events, e.focus ∈ source.root.preorder :=
      fun e => (Event.mem_ofTree_iff [] source.root e).mp
    obtain ⟨u', hrun', hsurvey, hR⟩ := h.run hevents rfl h.nil hrun
    simp only [hrun, Except.map, Except.ok.injEq] at hemitted
    rw [← hemitted, hrun']
    refine ⟨u'.finish b source.path, rfl, ?_⟩
    rw [finish, finish, hsurvey]
    exact h.append (h.append hR (hduplicates _)) (hnames _)

end Walk

/-! ### Looser limits -/

/-- The second limits differ from the first in larger bounds and more literals that are allowed. -/
structure Limits.Looser (a b : Limits) : Prop where
  maxPositionalParams_eq : b.maxPositionalParams = a.maxPositionalParams
  maxCallArgs_eq : b.maxCallArgs = a.maxCallArgs
  duplicateStatementMinimum_eq : b.duplicateStatementMinimum = a.duplicateStatementMinimum
  securityKeywords_eq : b.securityKeywords = a.securityKeywords
  securityContextLines_eq : b.securityContextLines = a.securityContextLines
  checkTypeAnnotations_eq : b.checkTypeAnnotations = a.checkTypeAnnotations
  maxCyclomaticComplexity_le : a.maxCyclomaticComplexity ≤ b.maxCyclomaticComplexity
  maxNestingDepth_le : a.maxNestingDepth ≤ b.maxNestingDepth
  highNameUsageThreshold_le : a.highNameUsageThreshold ≤ b.highNameUsageThreshold
  godClassMethods_le : a.godClassMethods ≤ b.godClassMethods
  godClassLines_le : a.godClassLines ≤ b.godClassLines
  maxParamNameLength_le : a.maxParamNameLength ≤ b.maxParamNameLength
  minStringLength_le : a.minStringLength ≤ b.minStringLength
  allowsNumber : ∀ x, a.allowsNumber x = true → b.allowsNumber x = true
  allowsString : ∀ s, a.allowsString s = true → b.allowsString s = true

/-- Lists of allowed literals that contain others allow more. -/
theorem Limits.any_beq_of_subset {α : Type} [BEq α] {xs ys : List α} (h : xs ⊆ ys) {x : α}
    (hx : xs.any (· == x) = true) : ys.any (· == x) = true := by
  obtain ⟨y, hy, hyx⟩ := List.any_eq_true.mp hx
  exact List.any_eq_true.mpr ⟨y, h hy, hyx⟩

namespace Finding

/-- The identities of the second findings are among those of the first. -/
def Covers (findings fewer : List Finding) : Prop :=
  fewer.map (·.id) ⊆ findings.map (·.id)

theorem Covers.refl (findings : List Finding) : Covers findings findings := List.Subset.refl _

theorem Covers.append {first first' second second' : List Finding} (h : Covers first first')
    (h' : Covers second second') : Covers (first ++ second) (first' ++ second') := by
  unfold Covers
  rw [List.map_append, List.map_append]
  exact List.append_subset.mpr ⟨List.Subset.trans h (List.subset_append_left _ _),
    List.Subset.trans h' (List.subset_append_right _ _)⟩

theorem Covers.of_subset {findings fewer : List Finding} (h : fewer ⊆ findings) :
    Covers findings fewer :=
  List.map_subset _ h

/-- A bound that is kept anyway is kept if it is looser. -/
theorem Covers.ite {kept kept' : Prop} [Decidable kept] [Decidable kept'] {report report' : Finding}
    (hkept : kept → kept') (hid : report'.id = report.id) :
    Covers (if kept then [] else [report]) (if kept' then [] else [report']) := by
  by_cases h' : kept'
  · rw [if_pos h']
    exact List.nil_subset _
  · rw [if_neg h', if_neg fun h => h' (hkept h), Covers, List.map_singleton, List.map_singleton,
      hid]
    exact List.Subset.refl _

end Finding

namespace Limits.Looser

open Finding

variable {a b : Limits} (h : a.Looser b)
include h

theorem covers_tally (path : String) (t : Tally) : Covers (t.check a path) (t.check b path) :=
  .append (.ite (fun hkept => hkept.trans h.maxCyclomaticComplexity_le) rfl)
    (.ite (fun hkept => hkept.trans h.maxNestingDepth_le) rfl)

theorem covers_classSize (source : Source) (cls : Tree) :
    Covers (ClassSize.check a source cls) (ClassSize.check b source cls) :=
  .ite (fun hkept => ⟨hkept.1.trans h.godClassMethods_le, hkept.2.trans h.godClassLines_le⟩) rfl

theorem covers_signature (path : String) (s : Signature) (inClass : Bool) :
    Covers (Position.checkSignature a path s inClass)
      (Position.checkSignature b path s inClass) := by
  have hcount : Position.checkCount b path s (s.isMethod inClass) (Position.visible s inClass) =
      Position.checkCount a path s (s.isMethod inClass) (Position.visible s inClass) := by
    simp only [Position.checkCount, h.maxPositionalParams_eq]
  have hnames : Position.checkNames b path s ⊆ Position.checkNames a path s := by
    refine List.map_subset _ fun p hp => ?_
    rw [List.mem_filter, decide_eq_true_iff] at hp ⊢
    exact ⟨hp.1, lt_of_le_of_lt h.maxParamNameLength_le hp.2⟩
  simp only [Position.checkSignature, hcount]
  exact .append (.append (.refl _) (.of_subset hnames)) (.refl _)

theorem checkCall_eq (source : Source) (call : Tree) :
    Position.checkCall b source call = Position.checkCall a source call := by
  simp only [Position.checkCall, h.maxCallArgs_eq]

theorem duplicates_eq (path : String) (routines : List Routine) :
    Duplicate.check b path routines = Duplicate.check a path routines := by
  simp only [Duplicate.check, h.duplicateStatementMinimum_eq]

theorem names_subset (path : String) (table : NameTable) :
    NameUsage.check b path table ⊆ NameUsage.check a path table := by
  refine List.map_subset _ fun entry hentry => ?_
  rw [List.mem_filter, Bool.and_eq_true, decide_eq_true_iff] at hentry ⊢
  exact ⟨hentry.1, lt_of_le_of_lt h.highNameUsageThreshold_le hentry.2.1, hentry.2.2⟩

/-! ### Literals -/

theorem magicNumber?_eq {text : SourceText} {f : Focus} {m : Literal.Magic}
    (hm : Literal.magicNumber? b text f = some m) : Literal.magicNumber? a text f = some m := by
  -- The limits only decide whether the number is allowed.
  obtain ⟨number, m', hmagic⟩ : ∃ (number : Option Float) (m' : Literal.Magic), ∀ l : Limits,
      Literal.magicNumber? l text f = if number.any l.allowsNumber then none else some m' :=
    ⟨_, _, fun _ => rfl⟩
  rw [hmagic] at hm ⊢
  cases number with
  | none => exact hm
  | some x =>
    cases hallowed : a.allowsNumber x with
    | false => simp_all
    | true => simp [h.allowsNumber x hallowed] at hm

theorem magicString?_eq {text : SourceText} {f : Focus} {m : Literal.Magic}
    (hm : Literal.magicString? b text f = some m) : Literal.magicString? a text f = some m := by
  unfold Literal.magicString? at hm ⊢
  simp only [Option.bind_eq_bind, Option.bind_eq_some_iff] at hm ⊢
  obtain ⟨_, hbare, cs, hcs, _, hkept, hm⟩ := hm
  refine ⟨(), hbare, cs, hcs, (), ?_, hm⟩
  rw [Option.guard_eq_some'] at hkept ⊢
  simp only [Bool.and_eq_true, Bool.not_eq_true', decide_eq_false_iff_not, not_lt] at hkept ⊢
  obtain ⟨⟨hallowed, hlength⟩, hname⟩ := hkept
  refine ⟨⟨?_, h.minStringLength_le.trans hlength⟩, hname⟩
  rw [Bool.eq_false_iff] at hallowed ⊢
  exact fun hs => hallowed (h.allowsString _ hs)

theorem magic?_eq {text : SourceText} {f : Focus} {m : Literal.Magic}
    (hm : Literal.magic? b text f = some m) : Literal.magic? a text f = some m := by
  unfold Literal.magic? at hm ⊢
  split at hm
  · exact h.magicNumber?_eq hm
  · exact h.magicNumber?_eq hm
  · exact h.magicString?_eq hm
  · simp at hm

theorem surroundings_eq (text : SourceText) (line : Nat) :
    Literal.surroundings b text line = Literal.surroundings a text line := by
  simp only [Literal.surroundings, Literal.mentionsSecurity, Literal.neighbourhood,
    h.securityContextLines_eq, h.securityKeywords_eq]

theorem literal_ok {source : Source} {f : Focus} {new : List Finding}
    (hnew : Literal.check a source f = .ok new) :
    ∃ new', Literal.check b source f = .ok new' ∧ Covers new new' := by
  unfold Literal.check at hnew ⊢
  cases hm : Literal.magic? b source.text f with
  | none => exact ⟨[], rfl, List.nil_subset _⟩
  | some m =>
    rw [h.magic?_eq hm] at hnew
    dsimp only at hnew ⊢
    rw [h.surroundings_eq, hnew]
    exact ⟨new, rfl, .refl new⟩

/-! ### The whole walk -/

theorem compares (source : Source) : Walk.Compares a b source Covers where
  nil := .refl []
  append := .append
  exit f scopes := by
    unfold Focus.exitFindings
    split
    · exact h.covers_tally source.path _
    · exact .refl []
  entry {f inClass new} _ hnew := by
    unfold Focus.entryFindings at hnew ⊢
    split at hnew
    · split at hnew
      · exact ⟨new, hnew, .refl new⟩
      · rw [Except.ok.injEq] at hnew
        rw [← hnew, h.checkTypeAnnotations_eq]
        exact ⟨_, rfl, .append (h.covers_signature source.path _ inClass) (.refl _)⟩
    · rw [Except.ok.injEq] at hnew
      exact ⟨_, rfl, hnew ▸ h.covers_classSize source f.tree⟩
    · exact h.literal_ok hnew
    · exact h.literal_ok hnew
    · exact h.literal_ok hnew
    · rw [h.checkCall_eq]
      exact ⟨new, hnew, .refl new⟩
    · exact ⟨new, hnew, .refl new⟩

theorem emitted {source : Source} {findings : List Finding}
    (hfindings : source.emitted a = .ok findings) :
    ∃ fewer, source.emitted b = .ok fewer ∧ Covers findings fewer := by
  refine (h.compares source).emitted (fun routines => ?_) (fun table => ?_) hfindings
  · rw [h.duplicates_eq]
    exact .refl _
  · exact .of_subset (h.names_subset source.path table)

end Limits.Looser

/-- Under looser limits an analysis still returns, and it reports no identity that it did not report
before. -/
theorem Syntax.Document.looser_adds_nothing {a b : Limits} (h : a.Looser b) (path : String)
    (doc : Document) (findings : List Finding) (hreturns : doc.analyze a path = .ok findings) :
    ∃ fewer, doc.analyze b path = .ok fewer ∧ fewer.map (·.id) ⊆ findings.map (·.id) := by
  unfold analyze at hreturns ⊢
  cases hsource : Source.ofDocument path doc with
  | error v =>
    simp only [hsource] at hreturns
    exact ⟨findings, hreturns, List.Subset.refl _⟩
  | ok source =>
    simp only [hsource, Source.analyze] at hreturns ⊢
    cases hemitted : source.emitted a with
    | error fault => simp [hemitted, Except.map] at hreturns
    | ok emitted =>
      obtain ⟨fewer, hfewer, hcovers⟩ := h.emitted hemitted
      rw [hemitted, Except.map, Except.ok.injEq] at hreturns
      rw [hfewer, ← hreturns]
      refine ⟨distinct fewer, rfl, fun id hid => ?_⟩
      exact mem_map_id_distinct.mpr (hcovers (mem_map_id_distinct.mp hid))

namespace Syntax

/-- The document of a function with a long name and a condition in a condition. -/
def longNamedDocument : Document where
  bytes := Text.encode ("def settle_every_open_account_of_today(a):\n    if a:\n" ++
    "        if a: pass\n")
  tree := some longNamedSource.root

/-- Limits of three decisions and one level of blocks, with one more number and one more text. -/
def wideLimits : Limits :=
  { narrowLimits with
    maxCyclomaticComplexity := 3
    allowedNumbers := 60.0 :: narrowLimits.allowedNumbers
    allowedStrings := "today" :: narrowLimits.allowedStrings }

/-- With three decisions allowed the function is only nested too deeply. That finding was lost
before, but not its identity. -/
theorem looser_adds_nothing_longNamedDocument :
    ∃ findings fewer, longNamedDocument.analyze narrowLimits "mod.py" = .ok findings ∧
      longNamedDocument.analyze wideLimits "mod.py" = .ok fewer ∧
      fewer ≠ [] ∧ fewer.map (·.id) ⊆ findings.map (·.id) := by
  have hsource : Source.ofDocument "mod.py" longNamedDocument = .ok longNamedSource :=
    Source.ofDocument_encode "mod.py" _ rfl
  have hlooser : narrowLimits.Looser wideLimits :=
    ⟨rfl, rfl, rfl, rfl, rfl, rfl, by decide, le_rfl, le_rfl, le_rfl, le_rfl, le_rfl, le_rfl,
      fun _ => Limits.any_beq_of_subset (List.subset_cons_self _ _),
      fun _ => Limits.any_beq_of_subset (List.subset_cons_self _ _)⟩
  have hfits : longNamedSource.Fits narrowLimits := by
    unfold Source.Fits
    decide +kernel
  obtain ⟨w, hw⟩ := Walk.run_ok hfits Walk.start longNamedSource.events
  have hemitted := Walk.emitted_eq_run narrowLimits longNamedSource
  rw [hw, Except.map] at hemitted
  have hreturns : longNamedDocument.analyze narrowLimits "mod.py" =
      .ok (distinct (w.finish narrowLimits longNamedSource.path)) := by
    simp only [Document.analyze, hsource, Source.analyze, hemitted, Except.map]
  obtain ⟨fewer, hfewer, hsubset⟩ :=
    Document.looser_adds_nothing hlooser "mod.py" longNamedDocument _ hreturns
  refine ⟨_, fewer, hreturns, hfewer, ?_, hsubset⟩
  obtain ⟨reported, hreported, _⟩ := hlooser.emitted hemitted
  have hfewer' : fewer = distinct reported := by
    simp only [Document.analyze, hsource, Source.analyze, hreported, Except.map,
      Except.ok.injEq] at hfewer
    exact hfewer.symm
  have hcheck := Walk.check_subset_emitted hreported
    (f := ⟨longNamed, [(longNamedSource.root, 0)]⟩) (.tail _ (.head _)) rfl
  rw [hfewer']
  apply ne_nil_distinct
  rintro rfl
  have hdepth := (Tally.length_checkNesting wideLimits longNamedSource.path
    (Focus.tally longNamedSource ⟨longNamed, [(longNamedSource.root, 0)]⟩)).trans
    (if_pos (by decide))
  rw [List.subset_nil.mp (List.append_subset.mp hcheck).2] at hdepth
  simp at hdepth

end Syntax

end Coupling
