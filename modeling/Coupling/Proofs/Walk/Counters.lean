import Coupling.Proofs.Walk.Steps

/-!
# Branching and nesting of functions

The counters of a function are kept while its body is walked through, together with those of all
functions around it. At its end they say how many decisions are below it and how deep its blocks are
nested, whatever functions, classes and statements its body holds.
-/

namespace Coupling

open Syntax

namespace Syntax.Focus

/-- The nodes below a node. -/
def below (f : Focus) : List Focus := preorderAll f.above f.tree 0 f.tree.children

/-- Nodes below a node that add a decision. -/
def decisionsBelow (f : Focus) : Nat := f.below.countP fun d => Tally.decisions d.kind = 1

/-- Nodes that open a block on the way to a node, with the node itself and without the first `n`
nodes of the way. -/
def nestingAfter (n : Nat) (d : Focus) : Nat :=
  (d.kind :: (d.above.take (d.above.length - n)).map (·.1.kind)).countP Tally.nests

/-- Nodes that open a block on the way from a node, which does not count, to one below it. -/
def nestingTo (f d : Focus) : Nat := d.nestingAfter (f.above.length + 1)

/-- Blocks within blocks below a node. -/
def nestingBelow (f : Focus) : Nat := (f.below.map f.nestingTo).foldr max 0

/-- The counters of a function at its end. -/
def tally (source : Source) (f : Focus) : Tally where
  name := ClassSize.name source.text f.tree
  place := source.text.placeOf f.tree
  cyclomatic := 1 + f.decisionsBelow
  depth := 0
  maxDepth := f.nestingBelow

end Syntax.Focus

/-- The deepest nesting among some nodes, without the first `n` nodes on the way to them. -/
def deepest (n : Nat) (nodes : List Focus) : Nat := (nodes.map (·.nestingAfter n)).foldr max 0

theorem deepest_append (n : Nat) (first second : List Focus) :
    deepest n (first ++ second) = max (deepest n first) (deepest n second) := by
  induction first with
  | nil => simp [deepest]
  | cons d rest ih =>
    simp only [deepest, List.cons_append, List.map_cons, List.foldr_cons] at ih ⊢
    rw [ih, max_assoc]

/-- The way to a node leads through the place from which the walk started. -/
theorem above_of_mem_preorder :
    (∀ above t, ∀ d ∈ preorderFrom above t, ∃ way, d.above = way ++ above) ∧
    ∀ above parent index ts, ∀ d ∈ preorderAll above parent index ts,
      ∃ way child, d.above = way ++ (parent, child) :: above := by
  refine walk_induction ?_ ?_ ?_
  · intro above label children hchildren d hd
    rw [preorderFrom, List.mem_cons] at hd
    rcases hd with rfl | hd
    · exact ⟨[], rfl⟩
    · obtain ⟨way, child, habove⟩ := hchildren d hd
      exact ⟨way ++ [(.node label children, child)], by rw [habove]; simp⟩
  · intro above parent index d hd
    simp [preorderAll] at hd
  · intro above parent index t rest ht hrest d hd
    rw [preorderAll, List.mem_append] at hd
    rcases hd with hd | hd
    · obtain ⟨way, habove⟩ := ht d hd
      exact ⟨way, index, habove⟩
    · exact hrest d hd

/-- One node more on the way adds one block if it opens one. -/
theorem nestingAfter_of_mem_below {above : List (Tree × Nat)} {parent : Tree} {index : Nat}
    {ts : List Tree} {d : Focus} (hd : d ∈ preorderAll above parent index ts) :
    d.nestingAfter above.length =
      (if Tally.nests parent.kind then 1 else 0) + d.nestingAfter (above.length + 1) := by
  obtain ⟨way, child, habove⟩ := above_of_mem_preorder.2 above parent index ts d hd
  have hshort : d.above.take (d.above.length - (above.length + 1)) = way := by
    rw [habove, List.take_left']
    simp
  have hlong : d.above.take (d.above.length - above.length) = way ++ [(parent, child)] := by
    rw [habove, List.append_cons, List.take_left']
    simp only [List.length_append, List.length_cons, List.length_nil]
    omega
  simp only [Focus.nestingAfter, hshort, hlong, List.map_append, List.map_cons, List.map_nil,
    List.countP_cons, List.countP_append, List.countP_nil]
  omega

theorem deepest_node (above : List (Tree × Nat)) (t : Tree) (index : Nat) (ts : List Tree) :
    deepest above.length (⟨t, above⟩ :: preorderAll above t index ts) =
      (if Tally.nests t.kind then 1 else 0) +
        deepest (above.length + 1) (preorderAll above t index ts) := by
  have hbelow : ∀ nodes : List Focus, (∀ d ∈ nodes, d ∈ preorderAll above t index ts) →
      max (if Tally.nests t.kind then 1 else 0) (deepest above.length nodes) =
        (if Tally.nests t.kind then 1 else 0) + deepest (above.length + 1) nodes := by
    intro nodes hnodes
    induction nodes with
    | nil => simp [deepest]
    | cons d rest ih =>
      have hrest := ih fun x hx => hnodes x (List.mem_cons_of_mem d hx)
      have hd := nestingAfter_of_mem_below (hnodes d List.mem_cons_self)
      simp only [deepest, List.map_cons, List.foldr_cons] at hrest ⊢
      omega
  rw [← hbelow _ fun d hd => hd]
  simp [deepest, Focus.nestingAfter, Focus.kind, List.countP_cons]

/-! ### Counters over a whole node -/

namespace Tally

/-- How walking through some nodes changes the counters of a function around them. -/
def passing (n : Nat) (nodes : List Focus) (t : Tally) : Tally :=
  { t with
    cyclomatic := t.cyclomatic + nodes.countP fun d => decisions d.kind = 1
    maxDepth := max t.maxDepth (t.depth + deepest n nodes) }

/-- The blocks that are open have been counted. -/
def Level (t : Tally) : Prop := t.depth ≤ t.maxDepth

theorem Level.entering {t : Tally} (ht : t.Level) (kind : NodeKind) : (t.entering kind).Level := by
  unfold Tally.entering
  split
  · exact Nat.le_max_right t.maxDepth (t.depth + 1)
  · exact ht

theorem Level.leaving {t : Tally} (ht : t.Level) (kind : NodeKind) : (t.leaving kind).Level := by
  unfold Tally.leaving
  split
  · exact (Nat.sub_le t.depth 1).trans ht
  · exact ht

theorem passing_nil (n : Nat) {t : Tally} (ht : t.Level) : t.passing n [] = t := by
  have : max t.maxDepth t.depth = t.maxDepth := max_eq_left ht
  simp [passing, deepest, this]

theorem passing_append (n : Nat) (first second : List Focus) (t : Tally) :
    (t.passing n first).passing n second = t.passing n (first ++ second) := by
  simp only [passing, deepest_append, List.countP_append, Tally.mk.injEq, true_and]
  omega

/-- Walking through what is below a function gives its counters at the end. -/
theorem passing_start (source : Source) (f : Focus) :
    (start (ClassSize.name source.text f.tree) (source.text.placeOf f.tree)).passing
      (f.above.length + 1) f.below = f.tally source := by
  have hdeepest : deepest (f.above.length + 1) f.below = f.nestingBelow := rfl
  simp [passing, start, Focus.tally, Focus.decisionsBelow, hdeepest]

theorem decisions_le_one (kind : NodeKind) : decisions kind ≤ 1 := by
  unfold decisions
  split <;> omega

theorem countP_decisions_cons (d : Focus) (rest : List Focus) :
    (d :: rest).countP (fun d => decisions d.kind = 1) =
      decisions d.kind + rest.countP fun d => decisions d.kind = 1 := by
  have := decisions_le_one d.kind
  by_cases hone : decisions d.kind = 1
  · simp [hone]
    omega
  · simp [hone]
    omega

/-- Entering a node, walking through what is below it and leaving it is walking through all of
it. -/
theorem leaving_passing_entering {t : Tally} (ht : t.Level) (above : List (Tree × Nat))
    (tree : Tree) (index : Nat) (ts : List Tree) :
    leaving tree.kind ((t.entering tree.kind).passing (above.length + 1)
        (preorderAll above tree index ts)) =
      t.passing above.length (⟨tree, above⟩ :: preorderAll above tree index ts) := by
  have hdeep := deepest_node above tree index ts
  have hkind : (⟨tree, above⟩ : Focus).kind = tree.kind := rfl
  unfold Level at ht
  cases hn : nests tree.kind <;>
    simp only [hn, Bool.false_eq_true, if_false, if_true] at hdeep <;>
    simp only [leaving, entering, passing, hn, Bool.false_eq_true, if_false, if_true, closeBlock,
      openBlock, addDecisions, hdeep, countP_decisions_cons, hkind, Tally.mk.injEq,
      true_and] <;>
    omega

theorem length_checkComplexity (l : Limits) (path : String) (t : Tally) :
    (t.checkComplexity l path).length =
      if l.maxCyclomaticComplexity < t.cyclomatic then 1 else 0 := by
  unfold checkComplexity
  by_cases hle : t.cyclomatic ≤ l.maxCyclomaticComplexity
  · rw [if_pos hle, if_neg (not_lt.mpr hle), List.length_nil]
  · rw [if_neg hle, if_pos (not_le.mp hle), List.length_singleton]

theorem length_checkNesting (l : Limits) (path : String) (t : Tally) :
    (t.checkNesting l path).length = if l.maxNestingDepth < t.maxDepth then 1 else 0 := by
  unfold checkNesting
  by_cases hle : t.maxDepth ≤ l.maxNestingDepth
  · rw [if_pos hle, if_neg (not_lt.mpr hle), List.length_nil]
  · rw [if_neg hle, if_pos (not_le.mp hle), List.length_singleton]

end Tally

/-! ### Counters during a walk -/

/-- The counters of every open function are level. -/
def Survey.Level (s : Survey) : Prop := ∀ tally, .function tally ∈ s.scopes → tally.Level

theorem Survey.level_of_map {s : Survey} {scopes : List Scope} {change : Tally → Tally}
    (hscopes : s.scopes = scopes.map (·.mapTally change))
    (hlevel : ∀ tally, .function tally ∈ scopes → (change tally).Level) : s.Level := by
  intro tally htally
  rw [hscopes, List.mem_map] at htally
  obtain ⟨scope, hmem, heq⟩ := htally
  cases scope with
  | function old =>
    simp only [Scope.mapTally, Scope.function.injEq] at heq
    exact heq ▸ hlevel old hmem
  | cls name => simp [Scope.mapTally] at heq

namespace Walk

variable {l : Limits} {source : Source}

theorem level_start : start.survey.Level := by
  intro tally htally
  simp [start, Survey.empty] at htally

theorem step_level {w u : Walk} {e : Event} (hstep : w.step l source e = .ok u)
    (hlevel : w.survey.Level) : u.survey.Level := by
  cases e with
  | enter f =>
    obtain ⟨new, _, rfl⟩ := enter_eq_ok hstep
    refine Survey.level_of_map rfl fun tally htally => ?_
    rw [List.mem_append, Option.mem_toList] at htally
    rcases htally with htally | htally
    · have hstart : tally.Level := by
        unfold Focus.frame? at htally
        split at htally
        · simp only [Option.some.injEq, Scope.function.injEq] at htally
          rw [← htally]
          exact le_rfl
        · simp at htally
        · simp at htally
      exact hstart.entering f.kind
    · exact (hlevel tally htally).entering f.kind
  | leave f =>
    rw [step, leave_eq, Except.ok.injEq] at hstep
    subst hstep
    intro tally htally
    have hmem := List.mem_of_mem_drop htally
    obtain ⟨scope, hscope, heq⟩ := List.mem_map.mp hmem
    cases scope with
    | function old =>
      simp only [Scope.mapTally, Scope.function.injEq] at heq
      exact heq ▸ (hlevel old hscope).leaving f.kind
    | cls name => simp [Scope.mapTally] at heq

theorem run_level {events : List Event} {w u : Walk} (hrun : w.run l source events = .ok u)
    (hlevel : w.survey.Level) : u.survey.Level := by
  induction events generalizing w with
  | nil =>
    rw [run, Except.ok.injEq] at hrun
    exact hrun ▸ hlevel
  | cons e rest ih =>
    obtain ⟨v, hstep, hrest⟩ := run_cons_eq_ok.mp hrun
    exact ih hrest (step_level hstep hlevel)

private theorem map_mapTally_congr {s : Survey} (hlevel : s.Level) {change other : Tally → Tally}
    (hsame : ∀ tally : Tally, tally.Level → change tally = other tally) :
    s.scopes.map (·.mapTally change) = s.scopes.map (·.mapTally other) := by
  apply List.map_congr_left
  intro scope hscope
  cases scope with
  | function tally => rw [Scope.mapTally, Scope.mapTally, hsame tally (hlevel tally hscope)]
  | cls name => rfl

/-- A walk through a node closes the scopes that it opens, and counts for the functions around the
node whatever is in it. -/
theorem scopes_run :
    (∀ above t, ∀ w u : Walk, w.survey.Level → w.run l source (Event.ofTree above t) = .ok u →
      u.survey.scopes = w.survey.scopes.map
        (·.mapTally (Tally.passing above.length (preorderFrom above t)))) ∧
    ∀ above parent index ts, ∀ w u : Walk, w.survey.Level →
      w.run l source (Event.ofChildren above parent index ts) = .ok u →
      u.survey.scopes = w.survey.scopes.map
        (·.mapTally (Tally.passing (above.length + 1) (preorderAll above parent index ts))) := by
  refine walk_induction ?_ ?_ ?_
  · intro above label children hchildren w u hlevel hrun
    rw [Event.ofTree] at hrun
    obtain ⟨v, henter, hrun⟩ := run_cons_eq_ok.mp hrun
    obtain ⟨x, hinner, hleave⟩ := run_append_eq_ok.mp hrun
    rw [run_cons_leave, run, leave_eq, Except.ok.injEq] at hleave
    have hlevelv := step_level henter hlevel
    obtain ⟨new, _, rfl⟩ := enter_eq_ok henter
    have hscopes := hchildren _ x hlevelv hinner
    rw [← hleave]
    simp only [Survey.leaving, hscopes, Survey.entering, List.map_append,
      ← Focus.length_frame? source]
    rw [List.drop_left' (by simp), List.map_map, List.map_map]
    refine Eq.trans (List.map_congr_left fun scope _ => ?_)
      (map_mapTally_congr hlevel fun tally ht =>
        Tally.leaving_passing_entering ht above (.node label children) 0 children)
    simp only [Function.comp_apply, Scope.mapTally_mapTally]
    rfl
  · intro above parent index w u hlevel hrun
    rw [Event.ofChildren, run, Except.ok.injEq] at hrun
    have hnone := map_mapTally_congr hlevel fun tally h => Tally.passing_nil (above.length + 1) h
    rw [← hrun, preorderAll]
    exact (List.map_id' w.survey.scopes).symm.trans
      ((List.map_congr_left fun scope _ => (Scope.mapTally_id scope).symm).trans hnone.symm)
  · intro above parent index t rest ht hrest w u hlevel hrun
    rw [Event.ofChildren] at hrun
    obtain ⟨v, hfirst, hsecond⟩ := run_append_eq_ok.mp hrun
    rw [hrest v u (run_level hfirst hlevel) hsecond, ht w v hlevel hfirst, List.map_map,
      preorderAll]
    apply List.map_congr_left
    intro scope _
    simp only [Function.comp_apply, Scope.mapTally_mapTally, List.length_cons]
    congr 1
    funext tally
    exact Tally.passing_append _ _ _ _

/-- Before a function is left, its counters are on top. -/
theorem scopes_before_leave :
    (∀ above t, ∀ (w u : Walk) (done : List Event) (f : Focus) (todo : List Event),
      w.survey.Level → Event.ofTree above t = done ++ .leave f :: todo →
      f.kind = .functionDefinition → w.run l source done = .ok u →
      ∃ rest, u.survey.scopes = .function (f.tally source) :: rest) ∧
    ∀ above parent index ts, ∀ (w u : Walk) (done : List Event) (f : Focus) (todo : List Event),
      w.survey.Level → Event.ofChildren above parent index ts = done ++ .leave f :: todo →
      f.kind = .functionDefinition → w.run l source done = .ok u →
      ∃ rest, u.survey.scopes = .function (f.tally source) :: rest := by
  refine walk_induction ?_ ?_ ?_
  · intro above label children hchildren w u done f todo hlevel hsplit hkind hrun
    rcases Event.split_ofTree hsplit with ⟨_, hne⟩ | ⟨before, after, rfl, hinner⟩ | ⟨rfl, hleave⟩
    · simp at hne
    · obtain ⟨v, henter, hrun⟩ := run_cons_eq_ok.mp hrun
      exact hchildren v u before f after (step_level henter hlevel) hinner hkind hrun
    · rw [Event.leave.injEq] at hleave
      subst hleave
      obtain ⟨v, henter, hrun⟩ := run_cons_eq_ok.mp hrun
      have hlevelv := step_level henter hlevel
      obtain ⟨new, _, rfl⟩ := enter_eq_ok henter
      have hscopes := scopes_run.2 above _ 0 children _ u hlevelv hrun
      have hdefines : Focus.defines ⟨.node label children, above⟩ = true := by
        simp [Focus.defines, hkind]
      have hframe : Focus.frame? source ⟨.node label children, above⟩ = some (.function (.start
          (ClassSize.name source.text (.node label children))
          (source.text.placeOf (.node label children)))) := by
        simp only [Focus.frame?, hkind]
      rw [hscopes]
      simp only [Survey.entering, hframe, Tally.entering_of_defines hdefines, Option.toList_some,
        List.singleton_append, List.map_cons, Scope.mapTally, id]
      exact ⟨_, congrArg (Scope.function · :: _) (Tally.passing_start source ⟨_, above⟩)⟩
  · intro above parent index w u done f todo hlevel hsplit
    simp [Event.ofChildren] at hsplit
  · intro above parent index t rest ht hrest w u done f todo hlevel hsplit hkind hrun
    rcases Event.split_ofChildren hsplit with ⟨after, hinner⟩ | ⟨before, rfl, hinner⟩
    · exact ht w u done f after hlevel hinner hkind hrun
    · obtain ⟨v, hfirst, hsecond⟩ := run_append_eq_ok.mp hrun
      exact hrest v u before f todo (run_level hfirst hlevel) hinner hkind hsecond

/-- When a function is left, its counters are on top. They hold one decision more than there are
below it and the deepest nesting below it, and are what it is judged by. -/
theorem counters_when_left (l : Limits) (source : Source) (f : Focus)
    (hf : f ∈ source.root.preorder) (hkind : f.kind = .functionDefinition) :
    start.traverse l source (.root source.root) = start.run l source source.events ∧
    (∃ done todo, source.events = done ++ .leave f :: todo) ∧
    ∀ done todo, source.events = done ++ .leave f :: todo →
      (source.Fits l → ∃ w, start.run l source done = .ok w) ∧
      ∀ w, start.run l source done = .ok w →
        ∃ tally survey, w.survey.leave = (some (.function tally), survey) ∧
          tally.cyclomatic = 1 + f.decisionsBelow ∧
          tally.maxDepth = f.nestingBelow ∧
          tally.depth = 0 ∧
          w.leave l source f = ⟨survey, w.findings ++
            (tally.checkComplexity l source.path ++ tally.checkNesting l source.path)⟩ ∧
          (tally.checkComplexity l source.path).length =
            (if l.maxCyclomaticComplexity < 1 + f.decisionsBelow then 1 else 0) ∧
          (tally.checkNesting l source.path).length =
            (if l.maxNestingDepth < f.nestingBelow then 1 else 0) := by
  refine ⟨traverse_root l source, ?_, ?_⟩
  · exact List.append_of_mem ((Event.mem_ofTree_iff [] source.root (.leave f)).mpr hf)
  intro done todo hsplit
  refine ⟨fun hfits => run_ok hfits start done, fun w hrun => ?_⟩
  obtain ⟨rest, hscopes⟩ :=
    scopes_before_leave.1 [] source.root start w done f todo level_start hsplit hkind hrun
  have hdefines : f.defines = true := by simp [Focus.defines, hkind]
  refine ⟨f.tally source, { w.survey with scopes := rest }, ?_, rfl, rfl, rfl, ?_, ?_, ?_⟩
  · rw [Survey.leave, hscopes]
  · have hexit : f.exitFindings l source.path w.survey.scopes =
        (f.tally source).check l source.path := by
      simp only [Focus.exitFindings, hkind, hscopes]
    rw [leave_eq, hexit, Survey.leaving, hscopes, Tally.leaving_of_defines hdefines]
    simp [hdefines, Tally.check]
  · exact Tally.length_checkComplexity l source.path (f.tally source)
  · exact Tally.length_checkNesting l source.path (f.tally source)

theorem counters_when_left_nestedFunction :
    ∃ done todo w tally survey,
      nestedSource.events = done ++ .leave ⟨nestedFunction, [(nestedSource.root, 0)]⟩ :: todo ∧
      start.run {} nestedSource done = .ok w ∧
      w.survey.leave = (some (.function tally), survey) ∧
      tally.cyclomatic = 4 ∧ tally.maxDepth = 2 ∧ tally.depth = 0 := by
  obtain ⟨_, ⟨done, todo, hsplit⟩, hleft⟩ :=
    counters_when_left {} nestedSource ⟨nestedFunction, [(nestedSource.root, 0)]⟩
      (.tail _ (.head _)) rfl
  obtain ⟨hrun, hcounters⟩ := hleft done todo hsplit
  obtain ⟨w, hw⟩ := hrun (by unfold Source.Fits; decide +kernel)
  obtain ⟨tally, survey, hleave, hcyclomatic, hdepth, hclosed, _⟩ := hcounters w hw
  exact ⟨done, todo, w, tally, survey, hsplit, hw, hleave, hcyclomatic, hdepth, hclosed⟩

end Walk

end Coupling
