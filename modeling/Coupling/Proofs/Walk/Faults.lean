import Coupling.Proofs.Function.Counts
import Coupling.Proofs.Function.Duplicates
import Coupling.Proofs.Name.Usage
import Coupling.Proofs.Text.Lines
import Coupling.Settings.Validate

/-!
# When an analysis fails

An analysis adds the number of lines to search to the number of a line, and the sum has to fit in 64
bits. Nothing bounds that setting from above, so an analysis can fail. It fails for no other reason:
what else is counted is at most the number of nodes of the tree, and lines are at most one more than
the bytes of the file.
-/

namespace Coupling

open Syntax

/-! ### The sum that may not fit -/

section Overflow

variable (l : Limits) (source : Source)

/-- The node is a literal that needs a name, and the number of the last line to search around it
takes more than 64 bits. -/
def Syntax.Source.Overflows (f : Focus) : Prop :=
  ∃ m, Literal.magic? l source.text f = some m ∧
    2 ^ 64 ≤ (source.text.placeOf m.anchor).line + l.securityContextLines

theorem Literal.surroundings_eq_error_iff (text : SourceText) (offset : Nat) :
    (∃ fault, surroundings l text (text.place offset).line = .error fault) ↔
      2 ^ 64 ≤ (text.place offset).line + l.securityContextLines := by
  obtain ⟨content, hcontent⟩ := text.exists_line_place offset
  simp only [surroundings, hcontent]
  by_cases hsum : (text.place offset).line + l.securityContextLines < Nat.pow 2 64
  · rw [if_pos hsum]
    constructor
    · rintro ⟨fault, hfault⟩
      simp at hfault
    · exact fun h => absurd hsum (Nat.not_lt.mpr h)
  · rw [if_neg hsum]
    exact ⟨fun _ => Nat.not_lt.mp hsum, fun _ => ⟨_, rfl⟩⟩

theorem Literal.check_eq_error_iff (f : Focus) :
    (∃ fault, check l source f = .error fault) ↔ source.Overflows l f := by
  unfold check Source.Overflows
  cases hm : magic? l source.text f with
  | none => simp
  | some m =>
    simp only [Option.some.injEq, exists_eq_left', SourceText.placeOf]
    rw [← surroundings_eq_error_iff]
    cases surroundings l source.text (source.text.place m.anchor.label.start).line with
    | error fault => simp [Except.map]
    | ok s => simp [Except.map]

theorem Syntax.Focus.entryFindings_eq_error_iff (f : Focus) (inClass : Bool) :
    (∃ fault, f.entryFindings l source inClass = .error fault) ↔ source.Overflows l f := by
  have hother (hkind : Literal.magic? l source.text f = none) {new : List Finding} :
      (∃ fault, (Except.ok new : Except Fault (List Finding)) = .error fault) ↔
        source.Overflows l f := by
    simp [Source.Overflows, hkind]
  unfold entryFindings
  split
  · rename_i hkind
    have hnone : Literal.magic? l source.text f = none := by simp [Literal.magic?, hkind]
    split
    · exact hother hnone
    · exact hother hnone
  · rename_i hkind
    exact hother (by simp [Literal.magic?, hkind])
  · exact Literal.check_eq_error_iff l source f
  · exact Literal.check_eq_error_iff l source f
  · exact Literal.check_eq_error_iff l source f
  · rename_i hkind
    exact hother (by simp [Literal.magic?, hkind])
  · refine hother ?_
    unfold Literal.magic?
    split <;> simp_all

theorem Walk.step_eq_error_iff (w : Walk) (e : Event) :
    (∃ fault, w.step l source e = .error fault) ↔ ∃ f, e = .enter f ∧ source.Overflows l f := by
  cases e with
  | leave f => simp [step]
  | enter f =>
    simp only [Event.enter.injEq, exists_eq_left']
    rw [step, enter_eq, ← f.entryFindings_eq_error_iff l source w.survey.inClass]
    cases f.entryFindings l source w.survey.inClass with
    | error fault => simp [Except.map]
    | ok new => simp [Except.map]

/-- A walk fails if and only if a node on its way does. -/
theorem Walk.run_eq_error_iff (w : Walk) (events : List Event) :
    (∃ fault, w.run l source events = .error fault) ↔
      ∃ f, .enter f ∈ events ∧ source.Overflows l f := by
  induction events generalizing w with
  | nil => simp [run]
  | cons e rest ih =>
    have hfirst := step_eq_error_iff l source w e
    rw [run]
    cases hstep : w.step l source e with
    | error fault =>
      obtain ⟨f, rfl, hf⟩ := hfirst.mp ⟨fault, hstep⟩
      exact ⟨fun _ => ⟨f, List.mem_cons_self, hf⟩, fun _ => ⟨fault, rfl⟩⟩
    | ok v =>
      rw [ih]
      constructor
      · rintro ⟨f, hmem, hf⟩
        exact ⟨f, List.mem_cons_of_mem e hmem, hf⟩
      · rintro ⟨f, hmem, hf⟩
        rcases List.mem_cons.mp hmem with heq | hmem
        · obtain ⟨fault, hfault⟩ := hfirst.mpr ⟨f, heq.symm, hf⟩
          simp [hstep] at hfault
        · exact ⟨f, hmem, hf⟩

theorem Syntax.Source.emitted_eq_error_iff :
    (∃ fault, source.emitted l = .error fault) ↔
      ∃ f ∈ source.root.preorder, source.Overflows l f := by
  have hmem (f : Focus) : .enter f ∈ source.events ↔ f ∈ source.root.preorder :=
    Event.mem_ofTree_iff [] source.root (.enter f)
  have hrun := Walk.run_eq_error_iff l source .start source.events
  simp only [hmem] at hrun
  rw [← hrun, Walk.emitted_eq_run]
  cases Walk.start.run l source source.events with
  | error fault => simp [Except.map]
  | ok w => simp [Except.map]

variable {l source}

theorem Literal.check_ok_of_not_overflows {f : Focus} (h : ¬ source.Overflows l f) :
    ∃ new, check l source f = .ok new := by
  cases hcheck : check l source f with
  | error fault => exact absurd ((check_eq_error_iff l source f).mp ⟨fault, hcheck⟩) h
  | ok new => exact ⟨new, rfl⟩

theorem Syntax.Source.emitted_of_not_overflows
    (h : ∀ f ∈ source.root.preorder, ¬ source.Overflows l f) :
    ∃ findings, source.emitted l = .ok findings := by
  cases hemitted : source.emitted l with
  | error fault =>
    obtain ⟨f, hf, hoverflows⟩ := (emitted_eq_error_iff l source).mp ⟨fault, hemitted⟩
    exact absurd hoverflows (h f hf)
  | ok findings => exact ⟨findings, rfl⟩

theorem Syntax.Source.Fits.not_overflows (h : source.Fits l) {f : Focus} :
    ¬ source.Overflows l f := by
  intro hoverflows
  obtain ⟨fault, hfault⟩ := (Literal.check_eq_error_iff l source f).mpr hoverflows
  obtain ⟨new, hnew⟩ := Literal.check_ok h f
  simp [hnew] at hfault

end Overflow

/-! ### Everything else that is counted -/

/-- The size of a group is the number of routines in it. -/
theorem Duplicate.getD_groupSizes (routines : List Routine) (digest : UInt64) :
    (groupSizes routines)[digest]?.getD 0 = routines.countP (·.shape.digest == digest) := by
  -- The fold starts from any sizes, and adds to them.
  suffices hfold : ∀ sizes : Std.HashMap UInt64 Nat,
      (routines.foldl (fun sizes r => sizes.alter r.shape.digest fun n => some (n.getD 0 + 1))
        sizes)[digest]?.getD 0 =
        sizes[digest]?.getD 0 + routines.countP (·.shape.digest == digest) by
    simpa [groupSizes] using hfold ∅
  induction routines with
  | nil => simp
  | cons r rest ih =>
    intro sizes
    rw [List.foldl_cons, ih, Std.HashMap.getElem?_alter, List.countP_cons]
    by_cases hdigest : r.shape.digest = digest
    · subst hdigest
      simp
      omega
    · simp [hdigest]

theorem Syntax.length_preorderFrom :
    (∀ above t, (preorderFrom above t).length = t.size) ∧
    ∀ above parent index ts, (preorderAll above parent index ts).length = Tree.sizeAll ts := by
  refine walk_induction ?_ ?_ ?_
  · intro above label children hchildren
    rw [preorderFrom, List.length_cons, hchildren, Tree.size]
  · intro above parent index
    rw [preorderAll, Tree.sizeAll, List.length_nil]
  · intro above parent index t rest ht hrest
    rw [preorderAll, List.length_append, ht, hrest, Tree.sizeAll]

def Tally.counters (t : Tally) : List Nat := [t.cyclomatic, t.depth, t.maxDepth]

namespace Scope

def counters : Scope → List Nat
  | .function tally => tally.counters
  | .cls _ => []

/-- No counter of an open definition is larger than a number. -/
def Within (n : Nat) (s : Scope) : Prop := ∀ k ∈ s.counters, k ≤ n

theorem within_function {n : Nat} {tally : Tally} :
    Within n (.function tally) ↔ tally.cyclomatic ≤ n ∧ tally.depth ≤ n ∧ tally.maxDepth ≤ n := by
  simp [Within, counters, Tally.counters]

theorem Within.mono {n m : Nat} {s : Scope} (h : s.Within n) (hle : n ≤ m) : s.Within m :=
  fun k hk => (h k hk).trans hle

theorem Within.entering {n : Nat} {s : Scope} (h : s.Within n) (kind : NodeKind) :
    (s.mapTally (Tally.entering kind)).Within (n + 1) := by
  cases s with
  | cls name => simp [Within, mapTally, counters]
  | function tally =>
    have hdecisions := Tally.decisions_le_one kind
    rw [within_function] at h
    rw [mapTally, within_function]
    unfold Tally.entering
    split
    · simp only [Tally.openBlock, Tally.addDecisions]
      omega
    · simp only [Tally.addDecisions]
      omega

theorem Within.leaving {n : Nat} {s : Scope} (h : s.Within n) (kind : NodeKind) :
    (s.mapTally (Tally.leaving kind)).Within n := by
  cases s with
  | cls name => simp [Within, mapTally, counters]
  | function tally =>
    rw [within_function] at h
    rw [mapTally, within_function]
    unfold Tally.leaving
    split
    · simp only [Tally.closeBlock]
      omega
    · exact h

/-- A definition that has just been opened counts as one decision. -/
theorem within_of_frame? {source : Source} {f : Focus} {s : Scope}
    (h : f.frame? source = some s) : (s.mapTally (Tally.entering f.kind)).Within 1 := by
  have hdefines : f.defines = true := by
    have hlength := f.length_frame? source
    by_contra hno
    simp [h, hno] at hlength
  rw [Tally.entering_of_defines hdefines, mapTally_id]
  unfold Focus.frame? at h
  split at h
  · rw [Option.some.injEq] at h
    rw [← h, within_function]
    exact ⟨le_rfl, Nat.zero_le _, Nat.zero_le _⟩
  · rw [Option.some.injEq] at h
    rw [← h]
    simp [Within, counters]
  · simp at h

end Scope

namespace Survey

/-- Everything that a survey has counted: open definitions, functions, decisions and blocks of open
functions, and uses of names. -/
def counters (s : Survey) : List Nat :=
  s.scopes.length :: s.routines.length ::
    (s.scopes.flatMap Scope.counters ++ s.names.toList.map (·.2.count))

/-- There are at most so many open definitions, and none of their counters is larger. -/
structure ScopesWithin (n : Nat) (s : Survey) : Prop where
  length_le : s.scopes.length ≤ n
  within : ∀ scope ∈ s.scopes, scope.Within n

theorem ScopesWithin.entering {n : Nat} {s : Survey} (h : s.ScopesWithin n) (source : Source)
    (f : Focus) : (s.entering source f).ScopesWithin (n + 1) where
  length_le := by
    have hframe := f.length_frame? source
    have hlength := h.length_le
    rw [Survey.entering, List.length_map, List.length_append, hframe]
    split <;> omega
  within scope hscope := by
    obtain ⟨old, hold, rfl⟩ := List.mem_map.mp hscope
    rcases List.mem_append.mp hold with hframe | hold
    · exact (Scope.within_of_frame? (Option.mem_toList.mp hframe)).mono (Nat.le_add_left 1 n)
    · exact (h.within old hold).entering f.kind

theorem ScopesWithin.leaving {n : Nat} {s : Survey} (h : s.ScopesWithin n) (f : Focus) :
    (s.leaving f).ScopesWithin n where
  length_le := by
    rw [Survey.leaving, List.length_drop, List.length_map]
    exact (Nat.sub_le _ _).trans h.length_le
  within scope hscope := by
    obtain ⟨old, hold, rfl⟩ := List.mem_map.mp (List.mem_of_mem_drop hscope)
    exact (h.within old hold).leaving f.kind

end Survey

namespace Walk

variable {l : Limits} {source : Source}

/-- Entering a node adds at most one to every counter, and leaving it adds nothing. -/
theorem scopesWithin_run {events : List Event} {w u : Walk} {n : Nat}
    (hw : w.survey.ScopesWithin n) (hrun : w.run l source events = .ok u) :
    u.survey.ScopesWithin (n + (events.filterMap Event.entered?).length) := by
  induction events generalizing w n with
  | nil =>
    rw [run, Except.ok.injEq] at hrun
    exact hrun ▸ hw
  | cons e rest ih =>
    obtain ⟨v, hstep, hrest⟩ := run_cons_eq_ok.mp hrun
    cases e with
    | enter f =>
      obtain ⟨new, _, rfl⟩ := enter_eq_ok hstep
      have hlater := ih (hw.entering source f) hrest
      rwa [Nat.add_right_comm, Nat.add_assoc] at hlater
    | leave f =>
      rw [step, leave_eq, Except.ok.injEq] at hstep
      subst hstep
      exact ih (hw.leaving f) hrest

/-- At no moment has a walk counted more than the nodes that it has entered. -/
theorem le_of_mem_counters {done : List Event} {w : Walk}
    (hrun : start.run l source done = .ok w) {n : Nat} (hn : n ∈ w.survey.counters) :
    n ≤ (done.filterMap Event.entered?).length := by
  have hscopes : w.survey.ScopesWithin (done.filterMap Event.entered?).length := by
    have hstart : start.survey.ScopesWithin 0 := ⟨le_rfl, by simp [start, Survey.empty]⟩
    simpa using scopesWithin_run hstart hrun
  have hroutines : w.survey.routines.length ≤ (done.filterMap Event.entered?).length := by
    rw [routines_run hrun]
    exact List.length_filterMap_le ..
  rw [Survey.counters, List.mem_cons, List.mem_cons, List.mem_append] at hn
  rcases hn with rfl | rfl | hn | hn
  · exact hscopes.length_le
  · exact hroutines
  · obtain ⟨scope, hscope, hn⟩ := List.mem_flatMap.mp hn
    exact hscopes.within scope hscope n hn
  · obtain ⟨⟨name, usage⟩, hentry, rfl⟩ := List.mem_map.mp hn
    have hcounts := counts_run (counts_start source) hrun name
    rw [Std.TreeMap.mem_toList_iff_getElem?_eq_some.mp hentry, List.nil_append] at hcounts
    rw [(Usage.ofUses?_eq_some.mp hcounts.symm).1]
    exact List.length_filter_le ..

end Walk

/-! ### The whole analysis -/

namespace Syntax

/-- What an analysis of a document works out, the sum around a literal apart, is no larger than the
document: counters are at most the nodes of the tree, and line numbers at most one more than the
bytes. No difference of offsets or lines is taken the wrong way round. -/
structure Document.Counted (l : Limits) (doc : Document) (source : Source) : Prop where
  survey : ∀ done todo w, source.events = done ++ todo →
    Walk.start.run l source done = .ok w → ∀ n ∈ w.survey.counters, n ≤ source.root.size
  groups : ∀ w, Walk.start.run l source source.events = .ok w →
    ∀ eligible (digest : UInt64),
      (Duplicate.groupSizes (w.survey.routines.filter eligible))[digest]?.getD 0 ≤
        source.root.size
  trees : ∀ f ∈ source.root.preorder, ∀ n ∈ f.tree.counts, n ≤ source.root.size
  lines : ∀ offset, 1 ≤ (source.text.place offset).line ∧
    (source.text.place offset).line ≤ doc.bytes.length + 1
  spans : ∀ start stop, start ≤ stop →
    (source.text.place start).line ≤ (source.text.place stop).line
  starts : ∀ start ∈ source.text.starts.tail, 1 ≤ start

theorem Tree.size_le_of_within {t u : Tree} (h : Shape.Within t u) : u.size ≤ t.size := by
  induction h with
  | refl => exact le_rfl
  | tail _ hchild ih => exact (Tree.size_lt_of_mem_children hchild).le.trans ih

theorem Document.counted (l : Limits) {path : String} {doc : Document} {source : Source}
    (h : Source.ofDocument path doc = .ok source) : doc.Counted l source := by
  obtain ⟨_, _, cs, htext, hbytes⟩ := Source.ofDocument_eq_ok h
  have hplace (offset : Nat) : source.text.place offset = Text.placeAt doc.bytes offset := by
    rw [htext, SourceText.place_ofChars, hbytes]
  have hentered {done todo : List Event} (hsplit : source.events = done ++ todo) :
      (done.filterMap Event.entered?).length ≤ source.root.size := by
    have hall := Event.filterMap_entered?_ofTree [] source.root
    rw [← Source.events, hsplit, List.filterMap_append] at hall
    rw [← length_preorderFrom.1 [] source.root, ← hall, List.length_append]
    exact Nat.le_add_right _ _
  exact {
    survey := fun done todo w hsplit hrun n hn =>
      (Walk.le_of_mem_counters hrun hn).trans (hentered hsplit)
    groups := fun w hrun eligible digest => by
      rw [Duplicate.getD_groupSizes]
      calc (w.survey.routines.filter eligible).countP (·.shape.digest == digest)
          ≤ (w.survey.routines.filter eligible).length := List.countP_le_length
        _ ≤ w.survey.routines.length := List.length_filter_le ..
        _ ≤ source.root.size := (Walk.le_of_mem_counters hrun (.tail _ (.head _))).trans
            (hentered (List.append_nil _).symm)
    trees := fun f hf n hn =>
      (Tree.le_size_of_mem_counts hn).trans
        (Tree.size_le_of_within (Shape.within_of_mem_preorder.1 [] source.root f hf))
    lines := fun offset => by
      rw [hplace]
      exact ⟨Text.one_le_line_placeAt _ _, (Text.line_placeAt_le _ _).trans
        (Nat.add_le_add_right List.count_le_length 1)⟩
    spans := fun start stop hle => by
      rw [hplace, hplace]
      exact Text.line_placeAt_mono _ hle
    starts := fun start hstart => by
      rw [source.text.starts_eq, Text.lineStarts, List.tail_cons, Text.startsAfter_eq] at hstart
      exact Text.lt_of_mem_byteStarts hstart }

/-- An analysis fails if and only if a literal that needs a name is in a line whose number takes
more than 64 bits with the number of lines to search added. Everything else that it works out is
bounded by the document. -/
theorem Document.fails_iff_overflows (l : Limits) (path : String) (doc : Document) :
    ((∃ fault, doc.analyze l path = .error fault) ↔
      ∃ source, Source.ofDocument path doc = .ok source ∧
        ∃ f ∈ source.root.preorder, source.Overflows l f) ∧
    ∀ source, Source.ofDocument path doc = .ok source → doc.Counted l source := by
  refine ⟨?_, fun source hsource => doc.counted l hsource⟩
  unfold analyze
  cases hsource : Source.ofDocument path doc with
  | error v => simp
  | ok source =>
    have hemitted := Source.emitted_eq_error_iff l source
    simp only [Except.ok.injEq, exists_eq_left', Source.analyze]
    rw [← hemitted]
    cases source.emitted l with
    | error fault => simp [Except.map]
    | ok findings => simp [Except.map]

/-- The string between two offsets. -/
def Tree.quoted (start stop : Nat) : Tree :=
  .span .string (some .right) start stop
    [.span .stringStart none start (start + 1) [],
     .span (.other "string_content") none (start + 1) (stop - 1) [],
     .span .stringEnd none (stop - 1) stop []]

/-- A statement that binds a name to a string. -/
def Tree.binding (start name quote stop : Nat) : Tree :=
  .span .expressionStatement none start stop
    [.span .assignment none start stop
      [.span .identifier (some (.other "left")) start name [], .quoted quote stop]]

/-- The source `x = 'open sesame'`, and `DOOR = 'tap twice'` in the next line. -/
def doorSource : Source where
  path := "mod.py"
  text := .ofChars "x = 'open sesame'\nDOOR = 'tap twice'\n".toList
  root := .span (.other "module") none 0 37 [.binding 0 1 4 17, .binding 18 22 25 36]

def doorDocument : Document where
  bytes := Text.encode "x = 'open sesame'\nDOOR = 'tap twice'\n"
  tree := some doorSource.root

theorem ofDocument_doorDocument : Source.ofDocument "mod.py" doorDocument = .ok doorSource :=
  Source.ofDocument_encode "mod.py" _ rfl

/-- Settings with the largest number of lines to search. -/
def widestSettings : Settings := { limits := { securityContextLines := 2 ^ 64 - 1 } }

theorem analyze_doorDocument :
    doorDocument.analyze widestSettings.limits "mod.py" = .error .additionOverflow := by
  have hfails : (doorSource.analyze widestSettings.limits).isOk = false := by decide +kernel
  simp only [Document.analyze, ofDocument_doorDocument]
  cases hanalyze : doorSource.analyze widestSettings.limits with
  | ok findings => simp [hanalyze, Except.isOk, Except.toBool] at hfails
  | error fault =>
    cases fault
    rfl

theorem fails_iff_overflows_doorDocument :
    (∃ f ∈ doorSource.root.preorder, doorSource.Overflows widestSettings.limits f) ∧
      doorDocument.Counted widestSettings.limits doorSource := by
  obtain ⟨hfails, hcounted⟩ :=
    Document.fails_iff_overflows widestSettings.limits "mod.py" doorDocument
  obtain ⟨source, hsource, hoverflows⟩ := hfails.mp ⟨_, analyze_doorDocument⟩
  rw [ofDocument_doorDocument, Except.ok.injEq] at hsource
  exact ⟨hsource ▸ hoverflows, hcounted doorSource ofDocument_doorDocument⟩

/-- Settings without an issue under which an analysis fails. -/
theorem valid_settings_fail :
    widestSettings.issues = [] ∧
      doorDocument.analyze widestSettings.limits "mod.py" = .error .additionOverflow :=
  ⟨by decide +kernel, analyze_doorDocument⟩

end Syntax

end Coupling
