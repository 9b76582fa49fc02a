import Coupling.Proofs.Walk.Counters
import Mathlib.Algebra.GroupWithZero.Nat
import Mathlib.Data.List.Infix
import Mathlib.Order.Bounds.Basic

/-!
# Surveys under any steps

A survey may be led through its operations in any order, balanced or not. A definition stays open as
long as every later one is left before it, and meanwhile each step counts for it. So the counters of
a function that is left depend only on the steps since it was entered, and the table of names only
on the uses recorded.
-/

namespace Coupling

/-- What is done to a survey. -/
inductive SurveyStep where
  | enterFunction (name : String) (place : Place)
  | enterClass (name : String)
  | leave
  | addDecisions (amount : Nat)
  | openBlock
  | closeBlock
  | recordName (name : String) (place : Place)
deriving DecidableEq, Repr

namespace SurveyStep

/-- The definition that a step opens. -/
def opened? : SurveyStep → Option Scope
  | .enterFunction name place => some (.function (.start name place))
  | .enterClass name => some (.cls name)
  | _ => none

def opens (x : SurveyStep) : Bool := x.opened?.isSome

def closes : SurveyStep → Bool
  | .leave => true
  | _ => false

/-- Decisions that a step adds. -/
def decisions : SurveyStep → Nat
  | .addDecisions amount => amount
  | _ => 0

/-- The number of open blocks after a step; it does not fall below zero. -/
def nesting (depth : Nat) : SurveyStep → Nat
  | .openBlock => depth + 1
  | .closeBlock => depth - 1
  | _ => depth

/-- The place of a use of a name. -/
def useOf? (name : String) : SurveyStep → Option Place
  | .recordName used place => if used = name then some place else none
  | _ => none

/-- What a step changes in the counters of an open function. -/
def count : SurveyStep → Tally → Tally
  | .addDecisions amount => (·.addDecisions amount)
  | .openBlock => Tally.openBlock
  | .closeBlock => Tally.closeBlock
  | _ => id

/-- The open blocks after some steps, from none. -/
def depthAfter (steps : List SurveyStep) : Nat := steps.foldl nesting 0

theorem length_opened? (x : SurveyStep) : x.opened?.toList.length = [x].countP opens := by
  cases x <;> rfl

/-- No step opens one definition and closes another. -/
theorem opens_add_closes_le_one (x : SurveyStep) :
    [x].countP opens + [x].countP closes ≤ 1 := by
  cases x <;> simp [opens, opened?, closes]

/-- Some steps leave no definition that was open before them, and leave `n` of their own open. -/
structure LeaveOpen (n : Nat) (steps : List SurveyStep) : Prop where
  own : ∀ done, done <+: steps → done.countP closes ≤ done.countP opens
  length_eq : steps.countP opens = steps.countP closes + n

instance (n : Nat) (steps : List SurveyStep) : Decidable (LeaveOpen n steps) :=
  decidable_of_iff ((∀ done ∈ steps.inits, done.countP closes ≤ done.countP opens) ∧
    steps.countP opens = steps.countP closes + n)
    ⟨fun h => ⟨fun done hdone => h.1 done ((List.mem_inits ..).mpr hdone), h.2⟩,
      fun h => ⟨fun done hdone => h.own done ((List.mem_inits ..).mp hdone), h.length_eq⟩⟩

theorem leaveOpen_nil : LeaveOpen 0 [] where
  own done hdone := by simp [List.prefix_nil.mp hdone]
  length_eq := rfl

theorem LeaveOpen.concat {m n : Nat} {steps : List SurveyStep} (h : LeaveOpen m steps)
    (x : SurveyStep) (hn : m + [x].countP opens = n + [x].countP closes) :
    LeaveOpen n (steps ++ [x]) where
  own done hdone := by
    rcases List.prefix_concat_iff.mp hdone with rfl | hdone
    · have := h.length_eq
      rw [List.countP_append, List.countP_append]
      omega
    · exact h.own done hdone
  length_eq := by
    have := h.length_eq
    rw [List.countP_append, List.countP_append]
    omega

end SurveyStep

open SurveyStep

namespace Survey

/-- A survey after a step. -/
def step (s : Survey) : SurveyStep → Survey
  | .enterFunction name place => s.enterFunction (.start name place)
  | .enterClass name => s.enterClass name
  | .leave => s.leave.2
  | .addDecisions amount => s.addDecisions amount
  | .openBlock => s.openBlock
  | .closeBlock => s.closeBlock
  | .recordName name place => s.recordName name place

/-- A survey after some steps. -/
def run (s : Survey) (steps : List SurveyStep) : Survey := steps.foldl step s

theorem run_append (s : Survey) (first second : List SurveyStep) :
    s.run (first ++ second) = (s.run first).run second := List.foldl_append

theorem run_concat (s : Survey) (steps : List SurveyStep) (x : SurveyStep) :
    s.run (steps ++ [x]) = (s.run steps).step x := run_append s steps [x]

theorem leave_fst (s : Survey) : s.leave.1 = s.scopes[0]? := by
  unfold leave
  cases s.scopes <;> rfl

/-- A step opens a scope, closes the innermost one, or counts for all of them. -/
theorem scopes_step (s : Survey) (x : SurveyStep) :
    (s.step x).scopes =
      x.opened?.toList ++ (s.scopes.map (·.mapTally x.count)).drop ([x].countP closes) := by
  have hquiet : s.scopes.map (·.mapTally id) = s.scopes := List.map_id'' Scope.mapTally_id s.scopes
  cases x with
  | enterFunction name place => exact congrArg (_ :: ·) hquiet.symm
  | enterClass name => exact congrArg (_ :: ·) hquiet.symm
  | recordName name place => exact hquiet.symm
  | leave =>
    have hleave : s.leave.2.scopes = s.scopes.drop 1 := by
      unfold leave
      cases hscopes : s.scopes <;> simp [hscopes]
    exact hleave.trans (congrArg (List.drop 1) hquiet.symm)
  | addDecisions amount => rfl
  | openBlock => rfl
  | closeBlock => rfl

end Survey

/-! ### Counters of a frame -/

namespace Tally

/-- The counters of an open function after some steps. -/
def through (steps : List SurveyStep) (t : Tally) : Tally := steps.foldl (fun t x => x.count t) t

theorem through_concat (steps : List SurveyStep) (x : SurveyStep) (t : Tally) :
    t.through (steps ++ [x]) = x.count (t.through steps) := List.foldl_append

/-- A step counts its decisions, keeps the blocks open, and notes how many there were at most. -/
theorem count_eq {t : Tally} (ht : t.Level) (x : SurveyStep) :
    x.count t = { t with
      cyclomatic := t.cyclomatic + x.decisions
      depth := x.nesting t.depth
      maxDepth := max (x.nesting t.depth) t.maxDepth } := by
  have hdepth : max t.depth t.maxDepth = t.maxDepth := max_eq_right ht
  have hclosed : max (t.depth - 1) t.maxDepth = t.maxDepth :=
    max_eq_right ((Nat.sub_le t.depth 1).trans ht)
  cases x <;>
    simp only [count, id, addDecisions, openBlock, closeBlock, SurveyStep.decisions, nesting,
      Nat.add_zero, hdepth, hclosed, max_comm t.maxDepth]

theorem depths_concat (steps : List SurveyStep) (x : SurveyStep) :
    {d | ∃ done, done <+: steps ++ [x] ∧ depthAfter done = d} =
      insert (depthAfter (steps ++ [x])) {d | ∃ done, done <+: steps ∧ depthAfter done = d} := by
  ext d
  constructor
  · rintro ⟨done, hdone, rfl⟩
    rcases List.prefix_concat_iff.mp hdone with rfl | hdone
    · exact .inl rfl
    · exact .inr ⟨done, hdone, rfl⟩
  · rintro (rfl | ⟨done, hdone, rfl⟩)
    · exact ⟨_, List.prefix_rfl, rfl⟩
    · exact ⟨done, List.prefix_concat_iff.mpr (.inr hdone), rfl⟩

/-- The counters of a function are those of the steps since it was entered. -/
theorem through_start (name : String) (place : Place) (steps : List SurveyStep) :
    ∃ maxDepth, (start name place).through steps =
      ⟨name, place, 1 + (steps.map SurveyStep.decisions).sum, depthAfter steps, maxDepth⟩ ∧
      IsGreatest {d | ∃ done, done <+: steps ∧ depthAfter done = d} maxDepth := by
  induction steps using List.reverseRecOn with
  | nil => exact ⟨0, rfl, ⟨[], List.nil_prefix, rfl⟩, by simp [upperBounds, depthAfter]⟩
  | append_singleton steps x ih =>
    obtain ⟨maxDepth, hthrough, hgreatest⟩ := ih
    have hlevel : ((start name place).through steps).Level := by
      rw [hthrough]
      exact hgreatest.2 ⟨steps, List.prefix_rfl, rfl⟩
    have hdepth : depthAfter (steps ++ [x]) = x.nesting (depthAfter steps) := List.foldl_append
    refine ⟨max (depthAfter (steps ++ [x])) maxDepth, ?_, ?_⟩
    · rw [through_concat, count_eq hlevel, hthrough, hdepth, List.map_append, List.sum_append]
      simp [Nat.add_assoc]
    · rw [depths_concat]
      exact hgreatest.insert _

end Tally

/-! ### Frames -/

namespace Survey

/-- Steps that leave nothing but what they open, and what was opened after `outer`, count for
`outer` and do not close it. -/
theorem scopes_run {s : Survey} {inner outer : List Scope} (hscopes : s.scopes = inner ++ outer)
    {steps : List SurveyStep}
    (hown : ∀ done, done <+: steps → done.countP closes ≤ inner.length + done.countP opens) :
    ∃ inner', (s.run steps).scopes = inner' ++ outer.map (·.mapTally (Tally.through steps)) ∧
      inner'.length + steps.countP closes = inner.length + steps.countP opens := by
  induction steps generalizing s inner outer with
  | nil =>
    have houter : outer.map (·.mapTally (Tally.through [])) = outer :=
      List.map_id'' Scope.mapTally_id outer
    exact ⟨inner, by rw [houter, ← hscopes]; rfl, rfl⟩
  | cons x rest ih =>
    have hcloses : [x].countP closes ≤ inner.length := by
      have hfirst := hown [x] (by simp)
      have hone := opens_add_closes_le_one x
      omega
    have hnext : (s.step x).scopes =
        (x.opened?.toList ++ (inner.map (·.mapTally x.count)).drop ([x].countP closes)) ++
          outer.map (·.mapTally x.count) := by
      rw [scopes_step, hscopes, List.map_append, List.append_assoc,
        List.drop_append_of_le_length (by rwa [List.length_map])]
    obtain ⟨inner', hrun, hlength⟩ := ih hnext fun done hdone => by
      have hlater := hown (x :: done) (List.cons_prefix_cons.mpr ⟨rfl, hdone⟩)
      rw [← List.singleton_append, List.countP_append, List.countP_append] at hlater
      rw [List.length_append, List.length_drop, List.length_map, length_opened?]
      omega
    refine ⟨inner', ?_, ?_⟩
    · rw [List.map_map] at hrun
      refine hrun.trans (congrArg _ (List.map_congr_left fun scope _ => ?_))
      exact Scope.mapTally_mapTally scope _ _
    · rw [List.length_append, List.length_drop, List.length_map, length_opened?] at hlength
      rw [← List.singleton_append, List.countP_append, List.countP_append]
      omega

/-- Among the open definitions, as many as were opened after it and not left come before a
definition, and its counters are those of the steps since it was opened. -/
theorem scopes_get (before : List SurveyStep) (x : SurveyStep) {scope : Scope} {n : Nat}
    {body : List SurveyStep} (hx : x.opened? = some scope) (hbody : LeaveOpen n body) :
    (empty.run (before ++ x :: body)).scopes[n]? =
      some (scope.mapTally (Tally.through body)) := by
  have hopened : ((empty.run before).step x).scopes =
      [] ++ scope :: (empty.run before).scopes.map (·.mapTally x.count) := by
    have hcloses : [x].countP closes = 0 := by
      have hopens := x.length_opened?
      have hone := opens_add_closes_le_one x
      rw [hx, Option.toList_some, List.length_singleton] at hopens
      omega
    rw [scopes_step, hx, hcloses]
    rfl
  have hown : ∀ done, done <+: body →
      done.countP closes ≤ ([] : List Scope).length + done.countP opens := by
    simpa using hbody.own
  obtain ⟨inner, hrun, hlength⟩ := scopes_run hopened hown
  have hinner : inner.length = n := by
    have := hbody.length_eq
    rw [List.length_nil] at hlength
    omega
  rw [run_append]
  show (((empty.run before).step x).run body).scopes[n]? = _
  rw [hrun, List.getElem?_append_right hinner.le, hinner, Nat.sub_self]
  rfl

/-- Every open definition was opened by a step, and the steps since then have not left it. -/
theorem exists_opened {steps : List SurveyStep} {n : Nat}
    (hn : n < (empty.run steps).scopes.length) :
    ∃ before x body, steps = before ++ x :: body ∧ x.opens = true ∧ LeaveOpen n body := by
  induction steps using List.reverseRecOn generalizing n with
  | nil => simp [run, empty] at hn
  | append_singleton steps x ih =>
    have hlength : (empty.run (steps ++ [x])).scopes.length =
        [x].countP opens + ((empty.run steps).scopes.length - [x].countP closes) := by
      rw [run_concat, scopes_step, List.length_append, List.length_drop, List.length_map,
        length_opened?]
    rw [hlength] at hn
    by_cases hlast : x.opens = true ∧ n = 0
    · obtain ⟨hx, rfl⟩ := hlast
      exact ⟨steps, x, [], rfl, hx, leaveOpen_nil⟩
    · -- One definition more was open before it was left, one less before one was opened.
      have hone := opens_add_closes_le_one x
      have hopens : [x].countP opens ≤ n := by
        cases hx : x.opens with
        | false => simp [hx]
        | true =>
          have hne : n ≠ 0 := fun hn => hlast ⟨hx, hn⟩
          omega
      obtain ⟨before, y, body, rfl, hy, hbody⟩ :=
        ih (n := n + [x].countP closes - [x].countP opens) (by omega)
      exact ⟨before, y, body ++ [x], by simp, hy, hbody.concat x (by omega)⟩

/-! ### Names -/

/-- Only a use of a name changes what is known of it. -/
theorem names_step (s : Survey) (x : SurveyStep) (name : String) :
    (s.step x).names[name]? = (x.useOf? name).elim s.names[name]? fun place =>
      some (s.names[name]?.elim ⟨1, place⟩ fun usage => ⟨usage.count + 1, usage.place⟩) := by
  cases x with
  | recordName used place =>
    show (s.names.alter used _)[name]? = _
    rw [Std.TreeMap.getElem?_alter, useOf?]
    by_cases hname : used = name
    · subst hname
      rewrite [if_pos Std.compare_self, if_pos rfl]
      cases s.names[used]? <;> rfl
    · rw [if_neg (mt Std.compare_eq_iff_eq.mp hname), if_neg hname, Option.elim_none]
  | leave =>
    have hleave : s.leave.2.names = s.names := by
      unfold leave
      cases s.scopes <;> rfl
    exact congrArg (·[name]?) hleave
  | _ => rfl

/-- A table holds the number of uses of a name and the place of the first. -/
theorem names_run (steps : List SurveyStep) (name : String) :
    (empty.run steps).names[name]? = (steps.filterMap (useOf? name)).head?.map fun first =>
      ⟨(steps.filterMap (useOf? name)).length, first⟩ := by
  induction steps using List.reverseRecOn with
  | nil => rfl
  | append_singleton steps x ih =>
    rw [run_concat, names_step, ih, List.filterMap_append]
    cases hx : x.useOf? name with
    | none => simp [hx]
    | some place => cases hold : steps.filterMap (useOf? name) <;> simp [hx]

/-- Whatever the steps, the definition that is left is the last one opened and not left before, and
there is none exactly if all have been left. The counters of a function that is left are those of
the steps since it was entered: one decision more than they add, the blocks opened and not closed,
and the most that were open at a time. A name has an entry if its use was recorded, with the number
of uses and the place of the first. -/
theorem frames_after_any_steps (steps : List SurveyStep) :
    ((empty.run steps).leave.1 = none ↔
      ¬∃ before x body, steps = before ++ x :: body ∧ x.opens = true ∧ LeaveOpen 0 body) ∧
    (∀ before name place body, steps = before ++ .enterFunction name place :: body →
      LeaveOpen 0 body →
      ∃ tally, (empty.run steps).leave.1 = some (.function tally) ∧
        tally.name = name ∧ tally.place = place ∧
        tally.cyclomatic = 1 + (body.map SurveyStep.decisions).sum ∧
        tally.depth = depthAfter body ∧
        IsGreatest {d | ∃ done, done <+: body ∧ depthAfter done = d} tally.maxDepth) ∧
    (∀ before name body, steps = before ++ .enterClass name :: body → LeaveOpen 0 body →
      (empty.run steps).leave.1 = some (.cls name)) ∧
    ∀ name, (empty.run steps).names[name]? =
      (steps.filterMap (useOf? name)).head?.map fun first =>
        ⟨(steps.filterMap (useOf? name)).length, first⟩ := by
  rw [leave_fst]
  refine ⟨?_, ?_, ?_, names_run steps⟩
  · constructor
    · rintro hnone ⟨before, x, body, rfl, hx, hbody⟩
      obtain ⟨scope, hscope⟩ := Option.isSome_iff_exists.mp hx
      simp [scopes_get before x hscope hbody] at hnone
    · intro hall
      by_contra hsome
      rw [List.getElem?_eq_none_iff, not_le] at hsome
      exact hall (exists_opened hsome)
  · rintro before name place body rfl hbody
    obtain ⟨maxDepth, hthrough, hgreatest⟩ := Tally.through_start name place body
    refine ⟨_, scopes_get before (.enterFunction name place) rfl hbody, ?_⟩
    rw [hthrough]
    exact ⟨rfl, rfl, rfl, rfl, hgreatest⟩
  · rintro before name body rfl hbody
    exact scopes_get before (.enterClass name) rfl hbody

/-- Steps in a function: a class with a method, and more blocks closed than opened. -/
def looseBody : List SurveyStep :=
  [.addDecisions 2, .openBlock, .enterClass "Inner", .enterFunction "method" ⟨3, 8⟩, .openBlock,
    .openBlock, .closeBlock, .closeBlock, .closeBlock, .closeBlock, .addDecisions 3, .leave,
    .openBlock, .leave]

theorem isGreatest_looseBody :
    IsGreatest {d | ∃ done, done <+: looseBody ∧ depthAfter done = d} 3 := by
  refine ⟨⟨looseBody.take 6, List.take_prefix 6 looseBody, by decide⟩, ?_⟩
  rintro _ ⟨done, hdone, rfl⟩
  have hall : ∀ done ∈ looseBody.inits, depthAfter done ≤ 3 := by decide
  exact hall done ((List.mem_inits ..).mpr hdone)

theorem frames_after_any_steps_looseBody :
    (empty.run [.leave, .enterFunction "outer" ⟨1, 0⟩]).leave.1 ≠ none ∧
    (∃ tally, (empty.run (.leave :: .enterFunction "outer" ⟨1, 0⟩ :: looseBody)).leave.1 =
        some (.function tally) ∧
      tally.name = "outer" ∧ tally.cyclomatic = 6 ∧ tally.depth = 1 ∧ tally.maxDepth = 3) ∧
    (empty.run (.leave :: .enterFunction "outer" ⟨1, 0⟩ :: looseBody.dropLast)).leave.1 =
      some (.cls "Inner") ∧
    (empty.run [.leave, .recordName "run" ⟨3, 4⟩, .recordName "run" ⟨9, 0⟩]).names["run"]? =
      some ⟨2, ⟨3, 4⟩⟩ := by
  obtain ⟨hnone, _, _, _⟩ := frames_after_any_steps [.leave, .enterFunction "outer" ⟨1, 0⟩]
  obtain ⟨_, hfunction, _, _⟩ :=
    frames_after_any_steps (.leave :: .enterFunction "outer" ⟨1, 0⟩ :: looseBody)
  obtain ⟨_, _, hclass, _⟩ :=
    frames_after_any_steps (.leave :: .enterFunction "outer" ⟨1, 0⟩ :: looseBody.dropLast)
  obtain ⟨_, _, _, hnames⟩ :=
    frames_after_any_steps [.leave, .recordName "run" ⟨3, 4⟩, .recordName "run" ⟨9, 0⟩]
  obtain ⟨tally, hleave, hname, _, hcyclomatic, hdepth, hgreatest⟩ :=
    hfunction [.leave] "outer" ⟨1, 0⟩ looseBody rfl (by decide)
  refine ⟨fun h => hnone.mp h ⟨[.leave], _, [], rfl, rfl, leaveOpen_nil⟩,
    ⟨tally, hleave, hname, hcyclomatic, hdepth, hgreatest.unique isGreatest_looseBody⟩, ?_, ?_⟩
  · exact hclass [.leave, .enterFunction "outer" ⟨1, 0⟩, .addDecisions 2, .openBlock] "Inner"
      (looseBody.dropLast.drop 3) rfl (by decide)
  · exact hnames "run"

end Survey

end Coupling
