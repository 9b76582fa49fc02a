import Coupling.Function.Shape
import Coupling.Proofs.Text.Separated
import Mathlib.Logic.Relation

/-!
# Outlines of function bodies

An outline keeps the tokens of a body with their nesting: a statement holds what stands in its
blocks, and a clause what stands in its own. The shape of a body is made of the tokens alone. They
come in the order of the text, so equal shapes have equal tokens, but where a block ends is told by
the depths of the tokens and not by the tokens.
-/

namespace Coupling.Shape

open Syntax

/-- A statement or a clause, with what is nested in it. -/
inductive Outline where
  | node (token : String) (inner : List Outline)

namespace Outline

def token : Outline → String
  | .node token _ => token

mutual

/-- The tokens of an outline in the order of the text. -/
def tokens : Outline → List String
  | .node token inner => token :: tokensAll inner

def tokensAll : List Outline → List String
  | [] => []
  | o :: rest => tokens o ++ tokensAll rest

end

mutual

/-- The tokens of an outline, each with the depth at which it stands. -/
def levels (depth : Nat) : Outline → List (Nat × String)
  | .node token inner => (depth, token) :: levelsAll (depth + 1) inner

def levelsAll (depth : Nat) : List Outline → List (Nat × String)
  | [] => []
  | o :: rest => levels depth o ++ levelsAll depth rest

end

/-- The depths at which the tokens of outlines stand. -/
def depths (os : List Outline) : List Nat := (levelsAll 0 os).map Prod.fst

theorem tokensAll_eq (os : List Outline) : tokensAll os = os.flatMap tokens := by
  induction os with
  | nil => rw [tokensAll, List.flatMap_nil]
  | cons o rest ih => rw [tokensAll, List.flatMap_cons, ih]

theorem map_snd_levelsAll : ∀ (depth : Nat) (os : List Outline),
    (levelsAll depth os).map Prod.snd = tokensAll os
  | _, [] => by simp [levelsAll, tokensAll]
  | depth, .node token inner :: rest => by
    simp [levelsAll, levels, tokensAll, tokens, map_snd_levelsAll (depth + 1) inner,
      map_snd_levelsAll depth rest]

/-! ### Depths tell where blocks end -/

/-- What starts with a token above a depth, if with any. -/
def Shallow (depth : Nat) (levels : List (Nat × String)) : Prop :=
  ∀ first ∈ levels.head?, first.1 < depth

theorem Shallow.levelsAll_append {depth : Nat} {rest : List (Nat × String)}
    (h : Shallow depth rest) (os : List Outline) :
    Shallow (depth + 1) (levelsAll depth os ++ rest) := by
  intro first hfirst
  cases os with
  | nil => exact Nat.lt_succ_of_lt (h first hfirst)
  | cons o os =>
    cases o
    simp only [levelsAll, levels, List.cons_append, List.head?_cons, Option.mem_some_iff] at hfirst
    rw [← hfirst]
    exact Nat.lt_succ_self depth

theorem Shallow.ne_levelsAll_cons {depth : Nat} {rest more : List (Nat × String)}
    (h : Shallow depth rest) (o : Outline) (os : List Outline) :
    rest ≠ levelsAll depth (o :: os) ++ more := by
  rintro rfl
  cases o
  exact absurd (h _ rfl) (Nat.lt_irrefl depth)

/-- Tokens with their depths determine the outlines, and where they end before what is less
deep. -/
theorem levelsAll_append_inj : ∀ {depth : Nat} {os us : List Outline}
    {rest more : List (Nat × String)}, Shallow depth rest → Shallow depth more →
    levelsAll depth os ++ rest = levelsAll depth us ++ more → os = us ∧ rest = more
  | _, [], [], _, _, _, _, h => ⟨rfl, h⟩
  | _, [], u :: us, _, _, hrest, _, h => absurd h (hrest.ne_levelsAll_cons u us)
  | _, o :: os, [], _, _, _, hmore, h => absurd h.symm (hmore.ne_levelsAll_cons o os)
  | depth, .node a inner :: os, .node b inner' :: us, rest, more, hrest, hmore, h => by
    simp only [levelsAll, levels, List.cons_append, List.append_assoc, List.cons.injEq,
      Prod.mk.injEq, true_and] at h
    obtain ⟨rfl, hinner⟩ := h
    obtain ⟨rfl, hbeside⟩ := levelsAll_append_inj (hrest.levelsAll_append os)
      (hmore.levelsAll_append us) hinner
    obtain ⟨rfl, hend⟩ := levelsAll_append_inj hrest hmore hbeside
    exact ⟨rfl, hend⟩

theorem eq_of_tokensAll_of_depths {os us : List Outline} (htokens : tokensAll os = tokensAll us)
    (hdepths : depths os = depths us) : os = us := by
  have hlevels : levelsAll 0 os = levelsAll 0 us := by
    rw [← List.zip_unzip (levelsAll 0 os), ← List.zip_unzip (levelsAll 0 us), List.unzip_fst,
      List.unzip_snd, List.unzip_fst, List.unzip_snd, map_snd_levelsAll, map_snd_levelsAll,
      htokens]
    rw [depths, depths] at hdepths
    rw [hdepths]
  have hnil : Shallow 0 [] := by simp [Shallow]
  have hends : levelsAll 0 os ++ [] = levelsAll 0 us ++ [] := by rw [hlevels]
  exact (levelsAll_append_inj hnil hnil hends).1

end Outline

/-! ### The outline of a body -/

/-- A block of a statement, after the marker of its clause if it belongs to one. -/
structure Clause where
  marker : Option String
  block : Option Tree

/-- The statements of a block. -/
def statementsOf (block : Tree) : List Tree := block.namedChildren.filter (·.kind != .comment)

theorem mem_children_of_mem_statementsOf {block s : Tree} (h : s ∈ statementsOf block) :
    s ∈ block.children :=
  (List.mem_filter.mp (List.mem_filter.mp h).1).1

namespace Clause

def work (c : Clause) : List Work := c.marker.toList.map .marker ++ c.block.toList.map .block

def statements (c : Clause) : List Tree := c.block.toList.flatMap statementsOf

/-- What stands in a clause; one with a marker holds it. -/
def wrap (c : Clause) (inner : List Outline) : List Outline :=
  match c.marker with
  | none => inner
  | some marker => [.node marker inner]

end Clause

/-- The blocks of a statement: branches, bodies of loops, clauses of a try statement and bodies of
with statements. -/
def clauses (t : Tree) : List Clause :=
  match t.kind with
  | .ifStatement =>
    ⟨none, t.child? .consequence⟩ :: (t.childrenAt .alternative).map fun a =>
      if a.kind = .elifClause then ⟨some "elif", a.child? .consequence⟩
      else ⟨some "else", a.child? .body⟩
  | .forStatement | .whileStatement =>
    ⟨none, t.child? .body⟩ :: (t.child? .alternative).toList.map fun a =>
      ⟨some "else", a.child? .body⟩
  | .tryStatement =>
    ⟨none, t.child? .body⟩ :: t.namedChildren.filterMap fun clause =>
      (clauseMarker? clause).map fun marker =>
        ⟨some marker, clause.namedChildren.find? (·.kind == .block)⟩
  | .withStatement => [⟨none, t.child? .body⟩]
  | _ => []

theorem tryClause_eq (clause : Tree) :
    tryClause clause = ((clauseMarker? clause).map fun marker => (⟨some marker,
      clause.namedChildren.find? (·.kind == .block)⟩ : Clause)).toList.flatMap Clause.work := by
  unfold tryClause
  cases clauseMarker? clause with
  | none => rfl
  | some marker => simp [Clause.work, firstBlock]

theorem nested_eq (t : Tree) : nested t = (clauses t).flatMap Clause.work := by
  have hbody : ∀ f, bodyOf t f = Clause.work ⟨none, t.child? f⟩ := fun _ => rfl
  unfold nested clauses
  generalize t.kind = kind
  split
  · rw [hbody, List.flatMap_cons, List.flatMap_map]
    congr 2
    funext a
    unfold alternative
    split
    · rfl
    · rfl
  · rw [hbody, List.flatMap_cons, List.flatMap_map]
    rfl
  · rw [hbody, List.flatMap_cons, List.flatMap_map]
    rfl
  · rw [hbody, List.flatMap_cons]
    congr 1
    induction t.namedChildren with
    | nil => rfl
    | cons clause rest ih =>
      rw [List.flatMap_cons, tryClause_eq, ih, List.filterMap_cons]
      cases clauseMarker? clause with
      | none => rfl
      | some marker => simp
  · rw [List.flatMap_singleton, hbody]
  · simp [*]

theorem size_lt_of_mem_clauses {t block : Tree} {c : Clause} (hc : c ∈ clauses t)
    (hblock : block ∈ c.block.toList) : block.size < t.size := by
  have hwork : Work.block block ∈ nested t := by
    rw [nested_eq, List.mem_flatMap]
    exact ⟨c, hc, List.mem_append_right _ (List.mem_map_of_mem hblock)⟩
  exact rank_lt_of_mem_nested hwork

theorem size_lt_of_mem_statementsOf {block s : Tree} (hs : s ∈ statementsOf block) :
    s.size < block.size :=
  Tree.size_lt_of_mem_children (mem_children_of_mem_statementsOf hs)

theorem size_lt_of_mem_statements {t s : Tree} {c : Clause} (hc : c ∈ clauses t)
    (hs : s ∈ c.statements) : s.size < t.size := by
  obtain ⟨block, hblock, hs⟩ := List.mem_flatMap.mp hs
  exact Nat.lt_trans (size_lt_of_mem_statementsOf hs) (size_lt_of_mem_clauses hc hblock)

/-- The outline of a statement. -/
def outline (t : Tree) : Outline :=
  .node (token t) ((clauses t).attach.flatMap fun c =>
    c.1.wrap (c.1.statements.attach.map fun s => outline s.1))
  termination_by t.size
  decreasing_by exact size_lt_of_mem_statements c.2 s.2

theorem outline_eq (t : Tree) :
    outline t = .node (token t) ((clauses t).flatMap fun c =>
      c.wrap (c.statements.map outline)) := by
  rw [outline]
  simp

/-- The outlines of the statements of a block. -/
def outlines (block : Tree) : List Outline := (statementsOf block).map outline

/-- The tokens that a piece of work stands for. -/
def Work.tokens : Work → List String
  | .block t => Outline.tokensAll (outlines t)
  | .statement t => (outline t).tokens
  | .marker token => [token]

theorem Clause.tokensAll_wrap (c : Clause) :
    Outline.tokensAll (c.wrap (c.statements.map outline)) = c.work.flatMap Work.tokens := by
  obtain ⟨marker, block⟩ := c
  have hblock : Outline.tokensAll ((Clause.mk marker block).statements.map outline) =
      (block.toList.map Work.block).flatMap Work.tokens := by
    cases block <;> simp [statements, Outline.tokensAll, Work.tokens, outlines]
  rw [work, List.flatMap_append, ← hblock]
  cases marker with
  | none => rfl
  | some marker => simp [wrap, Outline.tokensAll, Outline.tokens, Work.tokens]

/-- A piece of work stands for its own token and for the tokens of the work that takes its
place. -/
theorem Work.tokens_eq (w : Work) : w.tokens = w.emit ++ w.expand.flatMap Work.tokens := by
  cases w with
  | block t =>
    rw [tokens, outlines, Outline.tokensAll_eq, List.flatMap_map, emit, expand, List.flatMap_map]
    rfl
  | statement t =>
    have hclauses : Outline.tokensAll ((clauses t).flatMap fun c =>
        c.wrap (c.statements.map outline)) = (nested t).flatMap Work.tokens := by
      rw [nested_eq, Outline.tokensAll_eq, List.flatMap_assoc, List.flatMap_assoc]
      congr 1
      funext c
      rw [← Outline.tokensAll_eq, c.tokensAll_wrap]
    rw [tokens, outline_eq, Outline.tokens, hclauses]
    rfl
  | marker token => simp [tokens, emit, expand]

theorem drain_eq (stack : List Work) : drain stack = stack.flatMap Work.tokens := by
  induction stack using drain.induct with
  | case1 => rw [drain, List.flatMap_nil]
  | case2 w rest ih =>
    rw [drain, ih, List.flatMap_append, List.flatMap_cons, w.tokens_eq, List.append_assoc]

theorem tokens_eq (body : Tree) : tokens body = Outline.tokensAll (outlines body) := by
  rw [tokens, drain_eq, List.flatMap_singleton]
  rfl

/-! ### The digested text -/

/-- Everything below a tree, itself included. -/
def Within (t u : Tree) : Prop := Relation.ReflTransGen (fun a b => b ∈ a.children) t u

/-- The names of the categories of a tree hold no bar. -/
def Plain (t : Tree) : Prop :=
  ∀ u, Within t u → u.label.named = true → '|' ∉ u.kind.name.toList

theorem Plain.child {t c : Tree} (h : Plain t) (hc : c ∈ t.children) : Plain c :=
  fun u hu => h u (.head hc hu)

theorem bar_notMem_numbered {start : String} (hstart : '|' ∉ start.toList) (n : Nat) :
    '|' ∉ (start ++ toString n).toList := by
  rw [String.toList_append, List.mem_append, not_or]
  exact ⟨hstart, fun hbar => absurd (Text.isDigit_of_mem_toString hbar) (by decide)⟩

theorem bar_notMem_token {t : Tree} (h : '|' ∉ t.kind.name.toList) : '|' ∉ (token t).toList := by
  unfold token
  split
  · split <;> decide
  · split <;> decide
  · decide
  · decide
  · exact bar_notMem_numbered (by decide) _
  · exact bar_notMem_numbered (by decide) _
  · unfold expressionToken
    split
    · decide
    · split
      · exact bar_notMem_numbered (by decide) _
      · decide
      · decide
      · decide
  · decide
  · exact h

/-- A piece of work whose tokens hold no bar. -/
def Work.Plain : Work → Prop
  | .block t => Shape.Plain t
  | .statement t => Shape.Plain t ∧ t.label.named = true
  | .marker token => '|' ∉ token.toList

theorem bar_notMem_of_clauseMarker? {clause : Tree} {marker : String}
    (h : clauseMarker? clause = some marker) : '|' ∉ marker.toList := by
  unfold clauseMarker? at h
  split at h
  · cases h
    decide
  · cases h
    decide
  · cases h
    decide
  · cases h
    decide
  · cases h

/-- A clause with a plain marker and a block below a tree. -/
structure Clause.Below (t : Tree) (c : Clause) : Prop where
  marker : ∀ marker ∈ c.marker, '|' ∉ marker.toList
  block : ∀ block ∈ c.block, Within t block

theorem Clause.below_body (t : Tree) (f : Field) : Clause.Below t ⟨none, t.child? f⟩ where
  marker := by simp
  block _ hblock := .single (Tree.mem_children_of_child? hblock)

theorem Clause.below_child {t a : Tree} (ha : a ∈ t.children) {marker : String}
    (hmarker : '|' ∉ marker.toList) (f : Field) :
    Clause.Below t ⟨some marker, a.child? f⟩ where
  marker := by simpa using hmarker
  block _ hblock := .head ha (.single (Tree.mem_children_of_child? hblock))

theorem below_of_mem_clauses {t : Tree} {c : Clause} (hc : c ∈ clauses t) : c.Below t := by
  have hloop : c ∈ (⟨none, t.child? .body⟩ : Clause) :: (t.child? .alternative).toList.map
      (fun a => ⟨some "else", a.child? .body⟩) → c.Below t := by
    intro hc
    rcases List.mem_cons.mp hc with rfl | hc
    · exact Clause.below_body t .body
    · obtain ⟨a, ha, rfl⟩ := List.mem_map.mp hc
      have hchild := Tree.mem_children_of_child? (Option.mem_toList.mp ha)
      exact Clause.below_child hchild (by decide) .body
  unfold clauses at hc
  split at hc
  · rcases List.mem_cons.mp hc with rfl | hc
    · exact Clause.below_body t .consequence
    · obtain ⟨a, ha, rfl⟩ := List.mem_map.mp hc
      have hchild : a ∈ t.children := (List.mem_filter.mp ha).1
      split
      · exact Clause.below_child hchild (by decide) .consequence
      · exact Clause.below_child hchild (by decide) .body
  · exact hloop hc
  · exact hloop hc
  · rcases List.mem_cons.mp hc with rfl | hc
    · exact Clause.below_body t .body
    · obtain ⟨clause, hclause, hc⟩ := List.mem_filterMap.mp hc
      obtain ⟨marker, hmarker, rfl⟩ := Option.map_eq_some_iff.mp hc
      have hchild : clause ∈ t.children := (List.mem_filter.mp hclause).1
      refine ⟨by simpa using bar_notMem_of_clauseMarker? hmarker, fun block hblock => ?_⟩
      have hnamed : block ∈ clause.namedChildren := List.mem_of_find?_eq_some hblock
      exact .head hchild (.single (List.mem_filter.mp hnamed).1)
  · rw [List.mem_singleton.mp hc]
    exact Clause.below_body t .body
  · simp at hc

theorem Work.Plain.expand {w v : Work} (h : w.Plain) (hv : v ∈ w.expand) : v.Plain := by
  cases w with
  | block t =>
    obtain ⟨s, hs, rfl⟩ := List.mem_map.mp hv
    obtain ⟨hchild, hnamed⟩ := List.mem_filter.mp (List.mem_filter.mp hs).1
    exact ⟨Shape.Plain.child h hchild, hnamed⟩
  | statement t =>
    rw [Work.expand, nested_eq, List.mem_flatMap] at hv
    obtain ⟨c, hc, hv⟩ := hv
    have hbelow := below_of_mem_clauses hc
    rcases List.mem_append.mp hv with hv | hv
    · obtain ⟨marker, hmem, rfl⟩ := List.mem_map.mp hv
      exact hbelow.marker marker (Option.mem_toList.mp hmem)
    · obtain ⟨block, hmem, rfl⟩ := List.mem_map.mp hv
      exact fun u hu => h.1 u ((hbelow.block block (Option.mem_toList.mp hmem)).trans hu)
  | marker token => simp [Work.expand] at hv

theorem bar_notMem_of_mem_drain {stack : List Work} (h : ∀ w ∈ stack, w.Plain) {token : String}
    (htoken : token ∈ drain stack) : '|' ∉ token.toList := by
  induction stack using drain.induct with
  | case1 => simp [drain] at htoken
  | case2 w rest ih =>
    rw [drain, List.mem_append] at htoken
    have hw : w.Plain := h w List.mem_cons_self
    rcases htoken with htoken | htoken
    · cases w with
      | block t => simp [Work.emit] at htoken
      | statement t =>
        obtain rfl : token = Shape.token t := by simpa [Work.emit] using htoken
        exact bar_notMem_token (hw.1 t .refl hw.2)
      | marker marker =>
        obtain rfl : token = marker := by simpa [Work.emit] using htoken
        exact hw
    · refine ih (fun v hv => ?_) htoken
      rcases List.mem_append.mp hv with hv | hv
      · exact hw.expand hv
      · exact h v (List.mem_cons_of_mem w hv)

theorem toList_stream (parameters : Nat) (tokens : List String) :
    (stream parameters tokens).toList ++ ['|'] =
      "params:".toList ++ ((toString parameters).toList ++
        '|' :: tokens.flatMap fun token => token.toList ++ ['|']) := by
  have hstart : s!"params:{parameters}".toList = "params:".toList ++ (toString parameters).toList :=
    String.toList_append
  have htokens : (tokens.map ("|" ++ ·)).flatMap String.toList ++ ['|'] =
      '|' :: tokens.flatMap fun token => token.toList ++ ['|'] := by
    induction tokens with
    | nil => rfl
    | cons token rest ih => simp [ih]
  rw [stream, String.toList_append, String.toList_join, hstart, List.append_assoc,
    List.append_assoc, htokens]

theorem flatMap_bar_injective {ts us : List String} (hts : ∀ t ∈ ts, '|' ∉ t.toList)
    (hus : ∀ u ∈ us, '|' ∉ u.toList)
    (h : ts.flatMap (fun t => t.toList ++ ['|']) = us.flatMap fun u => u.toList ++ ['|']) :
    ts = us := by
  induction ts generalizing us with
  | nil =>
    cases us with
    | nil => rfl
    | cons u us => simp at h
  | cons t ts ih =>
    cases us with
    | nil => simp at h
    | cons u us =>
      rw [List.forall_mem_cons] at hts hus
      simp only [List.flatMap_cons, List.append_assoc, List.singleton_append] at h
      obtain ⟨hfirst, hrest⟩ := Text.append_cons_inj hts.1 hus.1 h
      rw [String.toList_injective hfirst, ih hts.2 hus.2 hrest]

/-- The digested text determines the number of parameters and the tokens. -/
theorem stream_injective {m n : Nat} {ts us : List String} (hts : ∀ t ∈ ts, '|' ∉ t.toList)
    (hus : ∀ u ∈ us, '|' ∉ u.toList) (h : stream m ts = stream n us) : m = n ∧ ts = us := by
  have hdigits : ∀ n : Nat, '|' ∉ (toString n).toList := fun n hbar =>
    absurd (Text.isDigit_of_mem_toString hbar) (by decide)
  have hchars := congrArg (fun text => text.toList ++ ['|']) h
  simp only [toList_stream] at hchars
  obtain ⟨hcount, htokens⟩ :=
    Text.append_cons_inj (hdigits m) (hdigits n) (List.append_cancel_left hchars)
  exact ⟨Text.toString_nat_injective hcount, flatMap_bar_injective hts hus htokens⟩

end Coupling.Shape
