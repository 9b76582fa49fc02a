import Coupling.ClassSize
import Coupling.Proofs.Function.Outline
import Mathlib.Algebra.GroupWithZero.Nat

/-!
# What is counted in a tree

Statements, handlers, targets and methods are nodes, and none of them is counted twice. So no count
in a tree is larger than the number of its nodes. For the statements of a body this is an induction
over the blocks nested in it; a node may be looked at both as a block and as a clause, and then it
counts for both.
-/

namespace Coupling

open Syntax

theorem Syntax.Tree.size_eq (t : Tree) : t.size = Tree.sizeAll t.children + 1 := by
  cases t
  rw [size]
  rfl

theorem Syntax.Tree.length_le_sizeAll (trees : List Tree) : trees.length ≤ sizeAll trees := by
  induction trees with
  | nil => exact Nat.le_refl 0
  | cons t rest ih =>
    have hpos := t.size_pos
    rw [sizeAll, List.length_cons]
    omega

theorem Syntax.Tree.length_children_lt (t : Tree) : t.children.length < t.size := by
  have hchildren := length_le_sizeAll t.children
  rw [t.size_eq]
  omega

namespace Shape

/-! ### Statements -/

/-- Tokens that come of some work. -/
def count (work : List Work) : Nat := (drain work).length

theorem count_nil : count [] = 0 := by rw [count, drain, List.length_nil]

theorem count_append (first second : List Work) :
    count (first ++ second) = count first + count second := by
  rw [count, count, count, drain_eq, drain_eq, drain_eq, List.flatMap_append, List.length_append]

theorem count_flatMap {α : Type} (f : α → List Work) (xs : List α) :
    count (xs.flatMap f) = (xs.map fun x => count (f x)).sum := by
  simp only [count, drain_eq]
  rw [List.flatMap_assoc, List.length_flatMap]

theorem count_map {α : Type} (f : α → Work) (xs : List α) :
    count (xs.map f) = (xs.map fun x => count [f x]).sum := by
  rw [List.map_eq_flatMap, count_flatMap]

theorem count_singleton (w : Work) : count [w] = w.emit.length + count w.expand := by
  rw [count, count, drain, List.append_nil, List.length_append]

theorem count_statement (t : Tree) : count [.statement t] = 1 + count (nested t) :=
  count_singleton _

theorem count_marker_cons (token : String) (work : List Work) :
    count (.marker token :: work) = 1 + count work := by
  rw [← List.singleton_append, count_append, count_singleton, Work.expand, count_nil]
  rfl

/-- If every tree pays for what it is taken for, all of them pay for everything. -/
theorem sum_find?_add_sum_filter_le {p q : Tree → Bool} {F G : Tree → Nat} (trees : List Tree)
    (hF : ∀ c ∈ trees, p c = true → F c ≤ c.size) (hG : ∀ c ∈ trees, q c = true → G c ≤ c.size)
    (hboth : ∀ c ∈ trees, p c = true → q c = true → F c + G c ≤ c.size) :
    ((trees.find? p).toList.map F).sum + ((trees.filter q).map G).sum ≤ Tree.sizeAll trees := by
  induction trees with
  | nil => exact Nat.zero_le _
  | cons c rest ih =>
    rw [List.forall_mem_cons] at hF hG hboth
    have hrest := ih hF.2 hG.2 hboth.2
    rw [Tree.sizeAll]
    by_cases hp : p c = true
    · by_cases hq : q c = true
      · have hc := hboth.1 hp hq
        rw [List.find?_cons_of_pos hp, List.filter_cons_of_pos hq, List.map_cons, List.sum_cons]
        simp only [Option.toList_some, List.map_singleton, List.sum_singleton]
        omega
      · have hc := hF.1 hp
        rw [List.find?_cons_of_pos hp, List.filter_cons_of_neg hq]
        simp only [Option.toList_some, List.map_singleton, List.sum_singleton]
        omega
    · rw [List.find?_cons_of_neg hp]
      by_cases hq : q c = true
      · have hc := hG.1 hq
        rw [List.filter_cons_of_pos hq, List.map_cons, List.sum_cons]
        omega
      · rw [List.filter_cons_of_neg hq]
        omega

/-- The node is a statement when it stands in a block. -/
def stands (c : Tree) : Bool := c.kind != .comment && c.label.named

theorem count_block (t : Tree) :
    count [.block t] = ((t.children.filter stands).map fun c => count [.statement c]).sum := by
  rw [count_singleton, Work.expand, Tree.namedChildren, List.filter_filter, count_map, Work.emit,
    List.length_nil, Nat.zero_add]
  rfl

/-- The first child of some kind as a block, if there is one. -/
def blockAt (p : Tree → Bool) (t : Tree) : List Work := (t.children.find? p).toList.map .block

theorem firstBlock_eq (t : Tree) :
    firstBlock t = blockAt (fun c => c.label.named && c.kind == .block) t := by
  rw [firstBlock, Tree.namedChildren, List.find?_filter, blockAt]
  simp only [Bool.decide_and, Bool.decide_eq_true]

/-- No tree that is smaller than this one stands for more tokens than it has nodes. -/
def ModestBelow (n : Nat) : Prop := ∀ t : Tree, t.size < n → count [.statement t] ≤ t.size

variable {t : Tree}

theorem ModestBelow.child (h : ModestBelow t.size) {c : Tree} (hc : c ∈ t.children) :
    ModestBelow c.size :=
  fun u hu => h u (Nat.lt_trans hu (Tree.size_lt_of_mem_children hc))

theorem ModestBelow.count_child (h : ModestBelow t.size) {c : Tree} (hc : c ∈ t.children) :
    count [.statement c] ≤ c.size :=
  h c (Tree.size_lt_of_mem_children hc)

theorem ModestBelow.count_block_lt (h : ModestBelow t.size) : count [.block t] < t.size := by
  have hsum := sum_find?_add_sum_filter_le t.children (p := fun _ => false)
    (F := fun _ => 0) (q := stands) (G := fun c => count [.statement c])
    (fun _ _ _ => Nat.zero_le _) (fun c hc _ => h.count_child hc)
    (fun _ _ hp => by contradiction)
  rw [count_block, t.size_eq]
  omega

/-- A block next to other work of the children: a child that is taken for both has to pay for
both. -/
theorem ModestBelow.count_blockAt_add_lt (h : ModestBelow t.size) {p q : Tree → Bool}
    {G : Tree → Nat} (hG : ∀ c ∈ t.children, q c = true → G c ≤ c.size)
    (hboth : ∀ c ∈ t.children, p c = true → q c = true → count [.block c] + G c ≤ c.size) :
    count (blockAt p t) + ((t.children.filter q).map G).sum < t.size := by
  have hsum := sum_find?_add_sum_filter_le t.children (F := fun c => count [.block c])
    (fun c hc _ => Nat.le_of_lt (h.child hc).count_block_lt) hG hboth
  rw [blockAt, count_map, t.size_eq]
  omega

theorem ModestBelow.count_blockAt_lt (h : ModestBelow t.size) (p : Tree → Bool) :
    count (blockAt p t) < t.size := by
  have hsum := h.count_blockAt_add_lt (p := p) (q := fun _ => false) (G := fun _ => 0)
    (fun _ _ _ => Nat.zero_le _) (fun _ _ _ hq => by contradiction)
  omega

/-- A block and the first block in it: the inner one is a statement of the outer one, and as such it
is a single token. -/
theorem ModestBelow.count_block_add_firstBlock_lt (h : ModestBelow t.size) :
    count [.block t] + count (firstBlock t) < t.size := by
  have hsum := h.count_blockAt_add_lt (p := fun c => c.label.named && c.kind == .block)
    (q := stands) (G := fun c => count [.statement c]) (fun c hc _ => h.count_child hc)
    (fun c hc hp _ => by
      have hblock := (h.child hc).count_block_lt
      have hkind : c.kind = .block := beq_iff_eq.mp (Bool.and_eq_true_iff.mp hp).2
      have hone : count [.statement c] = 1 := by
        rw [count_statement, nested, hkind, count_nil]
      omega)
  rw [firstBlock_eq, count_block]
  omega

theorem ModestBelow.count_marker_blockAt_le (h : ModestBelow t.size) (token : String)
    (p : Tree → Bool) : count (.marker token :: blockAt p t) ≤ t.size := by
  have hblock := h.count_blockAt_lt p
  rw [count_marker_cons]
  omega

theorem ModestBelow.count_alternative_le (h : ModestBelow t.size) :
    count (alternative t) ≤ t.size := by
  unfold alternative
  split
  · exact h.count_marker_blockAt_le _ _
  · exact h.count_marker_blockAt_le _ _

theorem ModestBelow.count_block_add_tryClause_le (h : ModestBelow t.size) :
    count [.block t] + count (tryClause t) ≤ t.size := by
  unfold tryClause
  split
  · have hblocks := h.count_block_add_firstBlock_lt
    rw [count_marker_cons]
    omega
  · have hblock := h.count_block_lt
    rw [count_nil]
    omega

/-- Of the alternatives of a loop only the first one is looked at. -/
theorem ModestBelow.count_loop_lt (h : ModestBelow t.size) :
    count (bodyOf t .body ++
      (t.child? .alternative).toList.flatMap fun a => .marker "else" :: bodyOf a .body) <
      t.size := by
  let G (a : Tree) : Nat := count (.marker "else" :: bodyOf a .body)
  have hchild : t.child? .alternative = (t.childrenAt .alternative).head? :=
    (List.head?_filter ..).symm
  have hfirst : ((t.child? .alternative).toList.map G).sum ≤
      ((t.childrenAt .alternative).map G).sum := by
    rw [hchild]
    cases t.childrenAt .alternative <;> simp
  have hall : count (bodyOf t .body) + ((t.childrenAt .alternative).map G).sum < t.size := by
    refine h.count_blockAt_add_lt (p := (·.field == some .body))
      (fun c hc _ => (h.child hc).count_marker_blockAt_le _ _) fun c _ hp hq => ?_
    rw [beq_iff_eq] at hp hq
    simp [hp] at hq
  rw [count_append, count_flatMap]
  exact Nat.lt_of_le_of_lt (Nat.add_le_add_left hfirst _) hall

/-- The blocks of a statement hold fewer tokens than the statement has nodes. -/
theorem ModestBelow.count_nested_lt (h : ModestBelow t.size) : count (nested t) < t.size := by
  unfold nested
  split
  · rw [count_append, count_flatMap]
    refine h.count_blockAt_add_lt (p := (·.field == some .consequence))
      (fun c hc _ => (h.child hc).count_alternative_le) fun c _ hp hq => ?_
    rw [beq_iff_eq] at hp hq
    simp [hp] at hq
  · exact h.count_loop_lt
  · exact h.count_loop_lt
  · rw [count_append, count_flatMap]
    refine h.count_blockAt_add_lt (p := (·.field == some .body)) (fun c hc _ => ?_)
      fun c hc _ _ => (h.child hc).count_block_add_tryClause_le
    exact Nat.le_trans (Nat.le_add_left _ _) (h.child hc).count_block_add_tryClause_le
  · exact h.count_blockAt_lt _
  · rw [count_nil]
    exact t.size_pos

theorem count_statement_le (t : Tree) : count [.statement t] ≤ t.size := by
  have hbelow : ModestBelow t.size := fun u _ => count_statement_le u
  have hnested := hbelow.count_nested_lt
  rw [count_statement]
  omega
  termination_by t.size

/-- A body has fewer statements than nodes. -/
theorem length_tokens_lt (body : Tree) : (tokens body).length < body.size :=
  ModestBelow.count_block_lt fun t _ => count_statement_le t

/-! ### Other counts -/

theorem assignmentTargets_le (t : Tree) : assignmentTargets t ≤ t.size := by
  fun_induction assignmentTargets t with
  | case1 t right hright _ ih =>
    have hsize := Tree.size_lt_of_mem_children (Tree.mem_children_of_child? hright)
    omega
  | case2 t => exact t.size_pos
  | case3 t => exact t.size_pos

theorem countP_namedChildren_le (p : Tree → Bool) (t : Tree) :
    t.namedChildren.countP p ≤ t.size :=
  calc t.namedChildren.countP p ≤ t.namedChildren.length := List.countP_le_length
    _ ≤ t.children.length := List.length_filter_le ..
    _ ≤ t.size := Nat.le_of_lt t.length_children_lt

theorem withItems_le (t : Tree) : withItems t ≤ t.size := by
  unfold withItems
  split
  · rename_i clause hclause
    have hchild : clause ∈ t.children := (List.mem_filter.mp (List.mem_of_find?_eq_some hclause)).1
    exact Nat.le_trans (countP_namedChildren_le _ clause)
      (Nat.le_of_lt (Tree.size_lt_of_mem_children hchild))
  · exact Nat.zero_le _

end Shape

theorem ClassSize.methods_le (t : Tree) : methods t ≤ t.size := by
  unfold methods
  split
  · rename_i body hbody
    exact Nat.le_trans (Shape.countP_namedChildren_le _ body)
      (Nat.le_of_lt (Tree.size_lt_of_mem_children (Tree.mem_children_of_child? hbody)))
  · exact Nat.zero_le _

/-- The numbers that an analysis counts up at a node. -/
def Syntax.Tree.counts (t : Tree) : List Nat :=
  [Shape.assignmentTargets t, Shape.handlers t, Shape.withItems t, (Shape.tokens t).length,
    ClassSize.methods t]

theorem Syntax.Tree.le_size_of_mem_counts {t : Tree} {n : Nat} (h : n ∈ t.counts) :
    n ≤ t.size := by
  simp only [counts, List.mem_cons, List.not_mem_nil, or_false] at h
  rcases h with rfl | rfl | rfl | rfl | rfl
  · exact Shape.assignmentTargets_le t
  · exact Shape.countP_namedChildren_le _ t
  · exact Shape.withItems_le t
  · exact Nat.le_of_lt (Shape.length_tokens_lt t)
  · exact ClassSize.methods_le t

end Coupling
