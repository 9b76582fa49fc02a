import Coupling.Proofs.Finding.Sites
import Coupling.Proofs.Function.Skeleton

/-!
# What duplicates have in common

Two functions have the same shape if and only if they take the same number of parameters and the
skeletons of their bodies have the same tokens in the order of the text. A reported duplicate is
such a function after another one. The shape does not say where a block ends, so a statement may
stand in a block of one function and after that block in the other; and it says nothing about the
cases of a match statement.
-/

namespace Coupling

open Syntax

namespace Shape

/-! ### Equal shapes -/

/-- The digests of two texts are equal only if the texts are. -/
def Apart (text text' : String) : Prop :=
  Digest.XxHash.digest 0 (Text.encode text) = Digest.XxHash.digest 0 (Text.encode text') →
    text = text'

theorem ofFunction?_eq {f body : Tree} (hf : f.child? .body = some body) (parameters : Nat) :
    Shape.ofFunction? f parameters = some
      ⟨Digest.XxHash.digest 0 (Text.encode (stream parameters (tokens body))),
        (tokens body).length⟩ := by
  rw [Shape.ofFunction?, hf, Option.map_some]

theorem bar_notMem_of_mem_tokens {f body : Tree} (hplain : Plain f)
    (hf : f.child? .body = some body) : ∀ token ∈ tokens body, '|' ∉ token.toList := by
  have hstack : ∀ w ∈ [Work.block body], w.Plain := by
    intro w hw
    rw [List.mem_singleton.mp hw]
    exact hplain.child (Tree.mem_children_of_child? hf)
  exact fun token htoken => bar_notMem_of_mem_drain hstack htoken

variable {f g a b : Tree} {m n : Nat}

theorem tokens_eq_of_digest_eq (hf : f.child? .body = some a) (hg : g.child? .body = some b)
    (hplain : Plain f) (hplain' : Plain g)
    (hapart : Apart (stream m (tokens a)) (stream n (tokens b)))
    (hdigest : Digest.XxHash.digest 0 (Text.encode (stream m (tokens a))) =
      Digest.XxHash.digest 0 (Text.encode (stream n (tokens b)))) :
    m = n ∧ Outline.tokensAll (outlines a) = Outline.tokensAll (outlines b) := by
  have hstream := stream_injective (bar_notMem_of_mem_tokens hplain hf)
    (bar_notMem_of_mem_tokens hplain' hg) (hapart hdigest)
  rwa [tokens_eq, tokens_eq] at hstream

theorem ofFunction?_eq_iff (hf : f.child? .body = some a) (hg : g.child? .body = some b)
    (hplain : Plain f) (hplain' : Plain g)
    (hapart : Apart (stream m (tokens a)) (stream n (tokens b))) :
    Shape.ofFunction? f m = Shape.ofFunction? g n ↔
      m = n ∧ Outline.tokensAll (outlines a) = Outline.tokensAll (outlines b) := by
  rw [ofFunction?_eq hf, ofFunction?_eq hg, Option.some.injEq, Shape.mk.injEq]
  constructor
  · rintro ⟨hdigest, -⟩
    exact tokens_eq_of_digest_eq hf hg hplain hplain' hapart hdigest
  · rintro ⟨rfl, htokens⟩
    rw [← tokens_eq, ← tokens_eq] at htokens
    rw [htokens]
    exact ⟨rfl, rfl⟩

/-! ### Everything below a tree -/

theorem within_of_mem_preorder :
    (∀ above t, ∀ f ∈ preorderFrom above t, Within t f.tree) ∧
    ∀ above parent index ts, ∀ f ∈ preorderAll above parent index ts, ∃ t ∈ ts,
      Within t f.tree := by
  refine walk_induction ?_ ?_ ?_
  · intro above label children hchildren f hf
    rw [preorderFrom, List.mem_cons] at hf
    rcases hf with rfl | hf
    · exact .refl
    · obtain ⟨c, hc, hwithin⟩ := hchildren f hf
      exact .head hc hwithin
  · intro above parent index f hf
    simp [preorderAll] at hf
  · intro above parent index t rest ht hrest f hf
    rw [preorderAll, List.mem_append] at hf
    rcases hf with hf | hf
    · exact ⟨t, List.mem_cons_self, ht f hf⟩
    · obtain ⟨u, hu, hwithin⟩ := hrest f hf
      exact ⟨u, List.mem_cons_of_mem t hu, hwithin⟩

theorem within_iff {t u : Tree} : Within t u ↔ ∃ f ∈ t.preorder, f.tree = u := by
  constructor
  · intro h
    induction h with
    | refl =>
      refine ⟨⟨t, []⟩, ?_, rfl⟩
      cases t
      exact List.mem_cons_self
    | tail _ hchild ih =>
      obtain ⟨f, hf, rfl⟩ := ih
      exact mem_preorder_of_mem_children.1 [] t f hf _ hchild
  · rintro ⟨f, hf, rfl⟩
    exact within_of_mem_preorder.1 [] t f hf

theorem plain_iff {t : Tree} :
    Plain t ↔ ∀ f ∈ t.preorder, f.tree.label.named = true → '|' ∉ f.kind.name.toList := by
  constructor
  · intro h f hf
    exact h f.tree (within_iff.mpr ⟨f, hf, rfl⟩)
  · intro h u hu
    obtain ⟨f, hf, rfl⟩ := within_iff.mp hu
    exact h f hf

instance (t : Tree) : Decidable (Plain t) := decidable_of_iff _ plain_iff.symm

theorem ordinary_iff {t : Tree} :
    Ordinary t ↔ ∀ f ∈ t.preorder, Grammatical f.tree ∧ f.kind ≠ .matchStatement ∧
      f.kind ≠ .caseClause := by
  constructor
  · intro h f hf
    exact h f.tree (within_iff.mpr ⟨f, hf, rfl⟩)
  · intro h u hu
    obtain ⟨f, hf, rfl⟩ := within_iff.mp hu
    exact h f hf

instance (t : Tree) : Decidable (Ordinary t) := decidable_of_iff _ ordinary_iff.symm

theorem Plain.of_mem_preorder {t : Tree} (h : Plain t) {f : Focus} (hf : f ∈ t.preorder) :
    Plain f.tree :=
  fun u hu => h u ((within_iff.mpr ⟨f, hf, rfl⟩).trans hu)

end Shape

/-! ### The functions of a source -/

/-- The functions are kept in the order in which they are entered. -/
theorem Walk.routines_run {l : Limits} {source : Source} {events : List Event} {w u : Walk}
    (hrun : w.run l source events = .ok u) :
    u.survey.routines = w.survey.routines ++
      (events.filterMap Event.entered?).filterMap (Focus.routine? source) := by
  induction events generalizing w with
  | nil =>
    rw [run, Except.ok.injEq] at hrun
    simp [hrun]
  | cons e rest ih =>
    obtain ⟨v, hstep, hrest⟩ := run_cons_eq_ok.mp hrun
    rw [ih hrest]
    cases e with
    | enter f =>
      obtain ⟨new, _, rfl⟩ := enter_eq_ok hstep
      have hentered : (Event.enter f :: rest).filterMap Event.entered? =
          f :: rest.filterMap Event.entered? := rfl
      rw [hentered, List.filterMap_cons, Survey.entering]
      cases f.routine? source <;> simp
    | leave f =>
      rw [step, leave_eq, Except.ok.injEq] at hstep
      subst hstep
      rfl

theorem Walk.routines_at_end {l : Limits} {source : Source} {w : Walk}
    (hrun : start.run l source source.events = .ok w) :
    w.survey.routines = source.root.preorder.filterMap (Focus.routine? source) := by
  rw [routines_run hrun, Source.events, Event.filterMap_entered?_ofTree]
  rfl

namespace Duplicate

/-- The models are functions that were met before, each under its digest. -/
def Models (seen : List Routine) (models : Std.HashMap UInt64 Routine) : Prop :=
  ∀ digest r, models[digest]? = some r → r ∈ seen ∧ r.shape.digest = digest

theorem Models.later {seen : List Routine} {models : Std.HashMap UInt64 Routine}
    (h : Models seen models) (r : Routine) : Models (seen ++ [r]) models := by
  intro digest m hm
  obtain ⟨hseen, hdigest⟩ := h digest m hm
  exact ⟨List.mem_append_left _ hseen, hdigest⟩

theorem Models.insert {seen : List Routine} {models : Std.HashMap UInt64 Routine}
    (h : Models seen models) (r : Routine) :
    Models (seen ++ [r]) (models.insert r.shape.digest r) := by
  intro digest m hm
  rw [Std.HashMap.getElem?_insert] at hm
  split at hm
  · rename_i hdigest
    obtain rfl := Option.some.inj hm
    exact ⟨by simp, by simpa using hdigest⟩
  · exact h.later r digest m hm

theorem exists_model_of_mem_reportFrom {path : String} {sizes : Std.HashMap UInt64 Nat}
    {v : Finding} {seen rest : List Routine} {models : Std.HashMap UInt64 Routine}
    (hmodels : Models seen models) (hv : v ∈ reportFrom path sizes models rest) :
    ∃ model copy group, [model, copy].Sublist (seen ++ rest) ∧
      model.shape.digest = copy.shape.digest ∧ v = finding path copy model group := by
  induction rest generalizing seen models with
  | nil => simp [reportFrom] at hv
  | cons r rest ih =>
    have hassoc : seen ++ r :: rest = seen ++ [r] ++ rest := by simp
    rw [reportFrom] at hv
    split at hv
    · rename_i model hmodel
      rcases List.mem_cons.mp hv with rfl | hv
      · obtain ⟨hseen, hdigest⟩ := hmodels _ _ hmodel
        exact ⟨model, r, _, (List.singleton_sublist.mpr hseen).append
          (List.singleton_sublist.mpr List.mem_cons_self), hdigest, rfl⟩
      · rw [hassoc]
        exact ih (hmodels.later r) hv
    · rw [hassoc]
      exact ih (hmodels.insert r) hv

/-- A duplicate comes after a function with the same digest. -/
theorem exists_model_of_mem_check {l : Limits} {path : String} {routines : List Routine}
    {v : Finding} (hv : v ∈ check l path routines) :
    ∃ model copy group, [model, copy].Sublist routines ∧
      model.shape.digest = copy.shape.digest ∧ v = finding path copy model group := by
  have hnone : Models [] ∅ := by simp [Models]
  obtain ⟨model, copy, group, hsublist, hfinding⟩ := exists_model_of_mem_reportFrom hnone hv
  exact ⟨model, copy, group, hsublist.trans List.filter_sublist, hfinding⟩

/-- The second of two long functions with the same shape is reported. -/
theorem check_pair {l : Limits} (path : String) {r r' : Routine} (hshape : r.shape = r'.shape)
    (hlong : l.duplicateStatementMinimum ≤ r'.shape.statements) :
    ∃ group, check l path [r, r'] = [finding path r' r group] := by
  simp [check, hlong, reportFrom, hshape]

end Duplicate

/-! ### Reported duplicates -/

/-- The finding reports a duplicate. -/
def Finding.IsDuplicate (v : Finding) : Prop :=
  v.kind = .algorithm ∧ ("issue_type", Json.str "code_duplication") ∈ v.context

theorem Tally.not_isDuplicate_of_mem_check {l : Limits} {path : String} {t : Tally} {v : Finding}
    (hv : v ∈ t.check l path) : ¬ v.IsDuplicate := by
  rintro ⟨-, hcontext⟩
  rcases List.mem_append.mp hv with hv | hv
  · unfold checkComplexity at hv
    split at hv
    · simp at hv
    · simp [List.mem_singleton.mp hv, Finding.new] at hcontext
  · unfold checkNesting at hv
    split at hv
    · simp at hv
    · simp [List.mem_singleton.mp hv, Finding.new] at hcontext

namespace Walk

variable {l : Limits} {source : Source}

theorem run_not_isDuplicate {w : Walk} (hrun : start.run l source source.events = .ok w) :
    ∀ v ∈ w.findings, ¬ v.IsDuplicate := by
  refine (sited_walk ?_ ?_ hrun).2
  · intro f hf inClass new hnew v hv hduplicate
    obtain ⟨kind, _, hkind, hreported⟩ := Focus.reported_of_entryFindings hf hnew hv
    exact hkind (hreported.kind_eq.symm.trans hduplicate.1)
  · intro f s _ v hv
    unfold Focus.exitFindings at hv
    split at hv
    · exact Tally.not_isDuplicate_of_mem_check hv
    · simp at hv

/-- Duplicates are reported at the end of a walk only. -/
theorem mem_check_of_isDuplicate {w : Walk} (hrun : start.run l source source.events = .ok w)
    {v : Finding} (hv : v ∈ w.finish l source.path) (hduplicate : v.IsDuplicate) :
    v ∈ Duplicate.check l source.path (source.root.preorder.filterMap (Focus.routine? source)) := by
  rw [← routines_at_end hrun]
  simp only [finish, List.mem_append] at hv
  rcases hv with (hv | hv) | hv
  · exact absurd hduplicate (run_not_isDuplicate hrun v hv)
  · exact hv
  · have hkind := (NameUsage.genuine_of_mem_check hv).kind_eq
    exact absurd (hkind.symm.trans hduplicate.1) (by decide)

end Walk

theorem Syntax.Source.analyze_eq_ok {l : Limits} {source : Source} {findings : List Finding}
    (h : source.analyze l = .ok findings) :
    ∃ w, Walk.start.run l source source.events = .ok w ∧
      findings = distinct (w.finish l source.path) := by
  rw [Source.analyze, Walk.emitted_eq_run] at h
  cases hrun : Walk.start.run l source source.events with
  | error fault => simp [hrun, Except.map] at h
  | ok w =>
    simp only [hrun, Except.map, Except.ok.injEq] at h
    exact ⟨w, rfl, h.symm⟩

/-- The text that is digested for a function. -/
def Syntax.Focus.digested? (source : Source) (f : Focus) : Option String :=
  (Signature.ofFocus? source.text f).bind fun s =>
    (f.tree.child? .body).map fun body =>
      Shape.stream s.parameters.length (Shape.tokens body)

/-- The functions of a source have digests of their own, as far as their texts differ. -/
def Syntax.Source.ShapesApart (source : Source) : Prop :=
  ∀ f ∈ source.root.preorder, ∀ g ∈ source.root.preorder, ∀ text ∈ f.digested? source,
    ∀ text' ∈ g.digested? source, Shape.Apart text text'

theorem Syntax.Focus.routine?_eq_some {source : Source} {f : Focus} {r : Routine}
    (h : f.routine? source = some r) :
    ∃ s body, Signature.ofFocus? source.text f = some s ∧ f.tree.child? .body = some body ∧
      f.digested? source = some (Shape.stream s.parameters.length (Shape.tokens body)) ∧
      r.name = s.name ∧ r.place = s.place ∧ r.shape.digest = Digest.XxHash.digest 0
        (Text.encode (Shape.stream s.parameters.length (Shape.tokens body))) := by
  obtain ⟨s, hs, h⟩ := Option.bind_eq_some_iff.mp h
  obtain ⟨shape, hshape, rfl⟩ := Option.map_eq_some_iff.mp h
  obtain ⟨body, hbody, rfl⟩ := Option.map_eq_some_iff.mp hshape
  exact ⟨s, body, hs, hbody, by simp [digested?, hs, hbody], rfl, rfl, rfl⟩

theorem pair_sublist_filterMap {α β : Type} {f : α → Option β} {xs : List α} {y z : β}
    (h : [y, z].Sublist (xs.filterMap f)) :
    ∃ a b, [a, b].Sublist xs ∧ f a = some y ∧ f b = some z := by
  obtain ⟨part, hpart, hmap⟩ := List.sublist_filterMap_iff.mp h
  obtain ⟨before, a, after, rfl, -, ha, hafter⟩ := List.filterMap_eq_cons_iff.mp hmap.symm
  obtain ⟨between, b, rest, rfl, -, hb, -⟩ := List.filterMap_eq_cons_iff.mp hafter
  have hlast : [b].Sublist (between ++ b :: rest) := List.singleton_sublist.mpr (by simp)
  have hboth : [a, b].Sublist (before ++ a :: (between ++ b :: rest)) :=
    (hlast.cons_cons a).trans (List.sublist_append_right before _)
  exact ⟨a, b, hboth.trans hpart, ha, hb⟩

/-- A finding reports that one function repeats the tokens of another one. -/
def Finding.Repeats (v : Finding) (source : Source) (model copy : Focus) : Prop :=
  ∃ s s' body body', Signature.ofFocus? source.text model = some s ∧
    Signature.ofFocus? source.text copy = some s' ∧ model.tree.child? .body = some body ∧
    copy.tree.child? .body = some body' ∧ v.place = s'.place ∧
    ("function_name", Json.str s'.name) ∈ v.context ∧
    ("similar_function", Json.str s.name) ∈ v.context ∧
    s.parameters.length = s'.parameters.length ∧
    (Shape.Ordinary body → Shape.Ordinary body' →
      Shape.Outline.tokensAll (Shape.skeleton body) =
        Shape.Outline.tokensAll (Shape.skeleton body'))

theorem Duplicate.repeats_of_mem_check {l : Limits} {source : Source} {v : Finding}
    (hplain : Shape.Plain source.root) (hapart : source.ShapesApart)
    (hv : v ∈ check l source.path (source.root.preorder.filterMap (Focus.routine? source))) :
    ∃ model copy, [model, copy].Sublist source.root.preorder ∧ v.Repeats source model copy := by
  obtain ⟨r, r', group, hsublist, hdigest, rfl⟩ := exists_model_of_mem_check hv
  obtain ⟨model, copy, hpair, hmodel, hcopy⟩ := pair_sublist_filterMap hsublist
  obtain ⟨s, body, hs, hbody, htext, hname, -, hr⟩ := Focus.routine?_eq_some hmodel
  obtain ⟨s', body', hs', hbody', htext', hname', hplace', hr'⟩ := Focus.routine?_eq_some hcopy
  have hmem : model ∈ source.root.preorder := hpair.subset (by simp)
  have hmem' : copy ∈ source.root.preorder := hpair.subset (by simp)
  obtain ⟨hparameters, htokens⟩ := Shape.tokens_eq_of_digest_eq hbody hbody'
    (hplain.of_mem_preorder hmem) (hplain.of_mem_preorder hmem')
    (hapart model hmem copy hmem' _ htext _ htext') (hr.symm.trans (hdigest.trans hr'))
  refine ⟨model, copy, hpair, s, s', body, body', hs, hs', hbody, hbody', hplace', ?_, ?_,
    hparameters, fun hordinary hordinary' => ?_⟩
  · simp [finding, Finding.new, hname']
  · simp [finding, Finding.new, hname]
  · rw [Shape.skeleton_eq_outlines hordinary, Shape.skeleton_eq_outlines hordinary', htokens]

/-- As long as digests do not collide, two functions whose bodies follow the grammar and have no
match statements have the same shape if and only if they take the same number of parameters and the
skeletons of their bodies have the same tokens in the order of the text. Then the skeletons are the
same if and only if the tokens stand at the same depths. So every reported duplicate repeats the
tokens of an earlier function. -/
theorem duplicates_repeat_tokens :
    (∀ (f g a b : Tree) (m n : Nat), f.child? .body = some a → g.child? .body = some b →
      Shape.Plain f → Shape.Plain g → Shape.Ordinary a → Shape.Ordinary b →
      Shape.Apart (Shape.stream m (Shape.tokens a)) (Shape.stream n (Shape.tokens b)) →
      (Shape.ofFunction? f m = Shape.ofFunction? g n ↔ m = n ∧
        Shape.Outline.tokensAll (Shape.skeleton a) = Shape.Outline.tokensAll (Shape.skeleton b)) ∧
      (Shape.ofFunction? f m = Shape.ofFunction? g n →
        (Shape.skeleton a = Shape.skeleton b ↔
          Shape.Outline.depths (Shape.skeleton a) = Shape.Outline.depths (Shape.skeleton b)))) ∧
    ∀ (l : Limits) (source : Source) (findings : List Finding),
      source.analyze l = .ok findings → Shape.Plain source.root → source.ShapesApart →
      ∀ v ∈ findings, v.IsDuplicate →
        ∃ model copy, [model, copy].Sublist source.root.preorder ∧
          v.Repeats source model copy := by
  constructor
  · intro f g a b m n hf hg hplain hplain' hordinary hordinary' hapart
    have hiff := Shape.ofFunction?_eq_iff hf hg hplain hplain' hapart
    rw [Shape.skeleton_eq_outlines hordinary, Shape.skeleton_eq_outlines hordinary']
    refine ⟨hiff, fun hshape => ⟨fun h => by rw [h], fun hdepths => ?_⟩⟩
    exact Shape.Outline.eq_of_tokensAll_of_depths (hiff.mp hshape).2 hdepths
  · intro l source findings hanalyze hplain hapart v hv hduplicate
    obtain ⟨w, hrun, rfl⟩ := Source.analyze_eq_ok hanalyze
    exact Duplicate.repeats_of_mem_check hplain hapart
      (Walk.mem_check_of_isDuplicate hrun (mem_of_mem_distinct hv) hduplicate)

/-! ### A statement in a branch and after it -/

namespace Syntax

def passStatement (start : Nat) : Tree :=
  .span (.other "pass_statement") none start (start + 4) []

def branchOfTwoBody : Tree :=
  .span .block (some .body) 14 45
    [.span .ifStatement none 14 45
      [.span .identifier (some (.other "condition")) 17 18 [],
       .span .block (some .consequence) 28 45 [passStatement 28, passStatement 41]]]

/-- A function whose branch holds two statements. -/
def branchOfTwo : Tree :=
  .span .functionDefinition none 0 45
    [.span .identifier (some .name) 4 5 [],
     .span .parameters (some .parameters) 5 8 [.span .identifier none 6 7 []], branchOfTwoBody]

def branchOfOneBody : Tree :=
  .span .block (some .body) 61 88
    [.span .ifStatement none 61 79
      [.span .identifier (some (.other "condition")) 64 65 [],
       .span .block (some .consequence) 75 79 [passStatement 75]],
     passStatement 84]

/-- A function whose branch holds one statement, with another one after the branch. -/
def branchOfOne : Tree :=
  .span .functionDefinition none 47 88
    [.span .identifier (some .name) 51 52 [],
     .span .parameters (some .parameters) 52 55 [.span .identifier none 53 54 []], branchOfOneBody]

def branchSource : Source where
  path := "mod.py"
  text := .ofChars ("def a(x):\n    if x:\n        pass\n        pass\n\n" ++
    "def b(x):\n    if x:\n        pass\n    pass\n").toList
  root := .span (.other "module") none 0 89 [branchOfTwo, branchOfOne]

theorem skeleton_branchOfTwo :
    Shape.skeleton branchOfTwoBody =
      [.node "if_false" [.node "pass_statement" [], .node "pass_statement" []]] := by
  rfl

theorem skeleton_branchOfOne :
    Shape.skeleton branchOfOneBody =
      [.node "if_false" [.node "pass_statement" []], .node "pass_statement" []] := by
  rfl

theorem tokens_branchOfOne :
    Shape.tokens branchOfOneBody = ["if_false", "pass_statement", "pass_statement"] := by
  rw [Shape.tokens_eq, ← Shape.skeleton_eq_outlines (by decide +kernel), skeleton_branchOfOne]
  rfl

theorem tokens_branches : Shape.tokens branchOfTwoBody = Shape.tokens branchOfOneBody := by
  rw [tokens_branchOfOne, Shape.tokens_eq, ← Shape.skeleton_eq_outlines (by decide +kernel),
    skeleton_branchOfTwo]
  rfl

theorem ofFunction?_branches :
    Shape.ofFunction? branchOfTwo 1 = Shape.ofFunction? branchOfOne 1 := by
  have htwo : branchOfTwo.child? .body = some branchOfTwoBody := rfl
  have hone : branchOfOne.child? .body = some branchOfOneBody := rfl
  rw [Shape.ofFunction?_eq htwo, Shape.ofFunction?_eq hone, tokens_branches]

/-- A match statement with one case. -/
def caseStatement (start : Nat) (inner : Tree) : Tree :=
  .span .matchStatement none start (start + 30)
    [.span .identifier (some (.other "subject")) (start + 6) (start + 7) [],
     .span .block (some .body) (start + 8) (start + 30)
       [.span .caseClause (some .alternative) (start + 17) (start + 30)
         [.span (.other "case_pattern") none (start + 22) (start + 23)
           [.span .integer none (start + 22) (start + 23) []],
          .span .block (some .consequence) (start + 25) (start + 30) [inner]]]]

def caseBody (start : Nat) (inner : Tree) : Tree :=
  .span .block (some .body) start (start + 48)
    [caseStatement start inner, passStatement (start + 35), passStatement (start + 44)]

/-- A function whose body starts with a match statement. -/
def caseFunction (start : Nat) (inner : Tree) : Tree :=
  .span .functionDefinition none start (start + 62)
    [.span .identifier (some .name) (start + 4) (start + 5) [],
     .span .parameters (some .parameters) (start + 5) (start + 8)
       [.span .identifier none (start + 6) (start + 7) []], caseBody (start + 14) inner]

/-- The tokens of a match statement do not depend on its cases. -/
theorem tokens_caseBody (start : Nat) (inner : Tree) :
    Shape.tokens (caseBody start inner) =
      ["match_statement", "pass_statement", "pass_statement"] := by
  have hleaf : ∀ t : Tree, Shape.clauses t = [] → Shape.outline t = .node (Shape.token t) [] :=
    fun t ht => by rw [Shape.outline_eq, ht, List.flatMap_nil]
  have houtlines : Shape.outlines (caseBody start inner) =
      [Shape.outline (caseStatement start inner), Shape.outline (passStatement (start + 35)),
        Shape.outline (passStatement (start + 44))] := rfl
  rw [Shape.tokens_eq, houtlines, hleaf _ rfl, hleaf _ rfl, hleaf _ rfl]
  rfl

/-- Two pairs of functions, each with the same digested text and so with the same shape. In the
first pair, one function has a statement in a branch that the other has after the branch. In the
second pair, the cases of the match statements hold different statements. -/
theorem shape_forgets_structure :
    (branchOfTwo.child? .body = some branchOfTwoBody ∧
      branchOfOne.child? .body = some branchOfOneBody ∧
      Shape.stream 1 (Shape.tokens branchOfTwoBody) =
        Shape.stream 1 (Shape.tokens branchOfOneBody) ∧
      Shape.ofFunction? branchOfTwo 1 = Shape.ofFunction? branchOfOne 1 ∧
      (Shape.skeleton branchOfTwoBody).map Shape.Outline.token = ["if_false"] ∧
      (Shape.skeleton branchOfOneBody).map Shape.Outline.token = ["if_false", "pass_statement"]) ∧
    let passes := passStatement 39
    let raises := Tree.span .raiseStatement none 101 106 []
    (caseFunction 0 passes).child? .body = some (caseBody 14 passes) ∧
      (caseFunction 62 raises).child? .body = some (caseBody 76 raises) ∧
      Shape.stream 1 (Shape.tokens (caseBody 14 passes)) =
        Shape.stream 1 (Shape.tokens (caseBody 76 raises)) ∧
      Shape.ofFunction? (caseFunction 0 passes) 1 = Shape.ofFunction? (caseFunction 62 raises) 1 ∧
      Shape.Outline.tokensAll (Shape.skeleton (caseBody 14 passes)) =
        ["match_statement", "case_clause", "pass_statement", "pass_statement", "pass_statement"] ∧
      Shape.Outline.tokensAll (Shape.skeleton (caseBody 76 raises)) =
        ["match_statement", "case_clause", "raise", "pass_statement", "pass_statement"] := by
  refine ⟨⟨rfl, rfl, by rw [tokens_branches], ofFunction?_branches, ?_, ?_⟩, rfl, rfl,
    by rw [tokens_caseBody, tokens_caseBody], ?_, rfl, rfl⟩
  · rw [skeleton_branchOfTwo]
    rfl
  · rw [skeleton_branchOfOne]
    rfl
  · have hbody : ∀ start inner,
        (caseFunction start inner).child? .body = some (caseBody (start + 14) inner) :=
      fun _ _ => rfl
    rw [Shape.ofFunction?_eq (hbody 0 _), Shape.ofFunction?_eq (hbody 62 _), tokens_caseBody,
      tokens_caseBody]

theorem functions_branchSource :
    branchSource.root.preorder.filter (·.kind = .functionDefinition) =
      [⟨branchOfTwo, [(branchSource.root, 0)]⟩, ⟨branchOfOne, [(branchSource.root, 1)]⟩] := by
  rfl

theorem signature_branchOfTwo :
    ∃ s, Signature.ofFocus? branchSource.text ⟨branchOfTwo, [(branchSource.root, 0)]⟩ = some s ∧
      s.parameters.length = 1 :=
  ⟨_, rfl, rfl⟩

theorem signature_branchOfOne :
    ∃ s, Signature.ofFocus? branchSource.text ⟨branchOfOne, [(branchSource.root, 1)]⟩ = some s ∧
      s.parameters.length = 1 :=
  ⟨_, rfl, rfl⟩

/-- Both functions of the source have the same text. -/
theorem shapesApart_branchSource : branchSource.ShapesApart := by
  have htext : ∀ f ∈ branchSource.root.preorder, ∀ text ∈ f.digested? branchSource,
      text = Shape.stream 1 (Shape.tokens branchOfOneBody) := by
    intro f hf text htext
    obtain ⟨s, hs, hmap⟩ := Option.bind_eq_some_iff.mp htext
    have hkind : f.kind = .functionDefinition := by
      by_contra hother
      simp [Signature.ofFocus?, hother] at hs
    have hmem : f ∈ branchSource.root.preorder.filter (·.kind = .functionDefinition) :=
      List.mem_filter.mpr ⟨hf, by simpa using hkind⟩
    rw [functions_branchSource, List.mem_pair] at hmem
    rcases hmem with rfl | rfl
    · obtain ⟨s', hs', hlength⟩ := signature_branchOfTwo
      obtain rfl : s = s' := Option.some.inj (hs.symm.trans hs')
      rw [hlength] at hmap
      rw [← tokens_branches]
      exact (Option.some.inj hmap).symm
    · obtain ⟨s', hs', hlength⟩ := signature_branchOfOne
      obtain rfl : s = s' := Option.some.inj (hs.symm.trans hs')
      rw [hlength] at hmap
      exact (Option.some.inj hmap).symm
  intro f hf g hg text hmem text' hmem' _
  rw [htext f hf text hmem, htext g hg text' hmem']

theorem routines_branchSource :
    ∃ r r', branchSource.root.preorder.filterMap (Focus.routine? branchSource) = [r, r'] ∧
      r.shape = r'.shape ∧ r'.shape.statements = 3 := by
  obtain ⟨s, hs, hlength⟩ := signature_branchOfTwo
  obtain ⟨s', hs', hlength'⟩ := signature_branchOfOne
  have hfunctions : branchSource.root.preorder.filterMap (Focus.routine? branchSource) =
      (branchSource.root.preorder.filter (·.kind = .functionDefinition)).filterMap
        (Focus.routine? branchSource) := by
    rw [List.filterMap_filter]
    congr 1
    funext f
    by_cases hkind : f.kind = .functionDefinition
    · simp [hkind]
    · simp [hkind, Focus.routine?, Signature.ofFocus?]
  obtain ⟨shape, hshape, hstatements⟩ :
      ∃ shape, Shape.ofFunction? branchOfOne 1 = some shape ∧ shape.statements = 3 := by
    have hbody : branchOfOne.child? .body = some branchOfOneBody := rfl
    refine ⟨_, Shape.ofFunction?_eq hbody 1, ?_⟩
    change (Shape.tokens branchOfOneBody).length = 3
    rw [tokens_branchOfOne]
    rfl
  have htwo : Focus.routine? branchSource ⟨branchOfTwo, [(branchSource.root, 0)]⟩ =
      some ⟨s.name, s.place, shape⟩ := by
    rw [Focus.routine?, hs, Option.bind_some, hlength, ofFunction?_branches, hshape,
      Option.map_some]
  have hone : Focus.routine? branchSource ⟨branchOfOne, [(branchSource.root, 1)]⟩ =
      some ⟨s'.name, s'.place, shape⟩ := by
    rw [Focus.routine?, hs', Option.bind_some, hlength', hshape, Option.map_some]
  refine ⟨⟨s.name, s.place, shape⟩, ⟨s'.name, s'.place, shape⟩, ?_, rfl, hstatements⟩
  rw [hfunctions, functions_branchSource, List.filterMap_cons_some htwo,
    List.filterMap_cons_some hone, List.filterMap_nil]

theorem duplicates_repeat_tokens_branches :
    Shape.Outline.tokensAll (Shape.skeleton branchOfTwoBody) =
      Shape.Outline.tokensAll (Shape.skeleton branchOfOneBody) ∧
    ∃ findings v, branchSource.analyze {} = .ok findings ∧ v ∈ findings ∧ v.IsDuplicate ∧
      ∃ model copy, [model, copy].Sublist branchSource.root.preorder ∧
        v.Repeats branchSource model copy := by
  have happart : Shape.Apart (Shape.stream 1 (Shape.tokens branchOfTwoBody))
      (Shape.stream 1 (Shape.tokens branchOfOneBody)) := fun _ => by rw [tokens_branches]
  have hiff := (duplicates_repeat_tokens.1 branchOfTwo branchOfOne branchOfTwoBody branchOfOneBody
    1 1 rfl rfl (by decide +kernel) (by decide +kernel) (by decide +kernel) (by decide +kernel)
    happart).1
  refine ⟨(hiff.mp ofFunction?_branches).2, ?_⟩
  have hfits : branchSource.Fits {} := by
    unfold Source.Fits
    decide +kernel
  obtain ⟨w, hrun⟩ := Walk.run_ok hfits Walk.start branchSource.events
  have hanalyze : branchSource.analyze {} = .ok (distinct (w.finish {} branchSource.path)) := by
    rw [Source.analyze, Walk.emitted_eq_run, hrun]
    rfl
  have hquiet : w.findings = [] := by
    have hnone : (Walk.start.run {} branchSource branchSource.events).toOption.map
        (·.findings.isEmpty) = some true := by decide +kernel
    rw [hrun] at hnone
    simpa [Except.toOption] using hnone
  obtain ⟨r, r', hroutines, hshape, hstatements⟩ := routines_branchSource
  obtain ⟨group, hcheck⟩ := Duplicate.check_pair (l := {}) branchSource.path hshape
    hstatements.ge
  have hkept : Duplicate.finding branchSource.path r' r group ∈
      distinct (w.finish {} branchSource.path) := by
    rw [mem_distinct_iff, Walk.finish, hquiet, Walk.routines_at_end hrun, hroutines, hcheck]
    simp
  have hduplicate : (Duplicate.finding branchSource.path r' r group).IsDuplicate :=
    ⟨rfl, by simp [Duplicate.finding, Finding.new]⟩
  exact ⟨_, _, hanalyze, hkept, hduplicate, duplicates_repeat_tokens.2 {} branchSource _ hanalyze
    (by decide +kernel) shapesApart_branchSource _ hkept hduplicate⟩

end Syntax

end Coupling
