import Coupling.Syntax.Tree

/-!
# The search for faults

A focus moves to the first child of its node, to the next sibling or to the parent. The search for
the first fault of a tree goes through it in preorder and passes over subtrees that are not faulty.
`Focus.ahead` counts the nodes that are still to come, so it falls with every move.
-/

namespace Coupling.Syntax

namespace Focus

/-- The node itself is an error or missing. -/
def isFault (f : Focus) : Bool := f.tree.label.error || f.tree.label.missing

/-! ### Moves -/

def firstChild? (f : Focus) : Option Focus :=
  f.tree.children.head?.map fun c => ⟨c, (f.tree, 0) :: f.above⟩

def nextSibling? (f : Focus) : Option Focus :=
  match f.above with
  | [] => none
  | (parent, index) :: above =>
    parent.children[index + 1]?.map fun c => ⟨c, (parent, index + 1) :: above⟩

/-- The parent with the way to it. -/
def enclosing? (f : Focus) : Option Focus :=
  match f.above with
  | [] => none
  | (parent, _) :: above => some ⟨parent, above⟩

theorem children_of_firstChild? {f g : Focus} (h : f.firstChild? = some g) :
    g.above = (f.tree, 0) :: f.above ∧ ∃ rest, f.tree.children = g.tree :: rest := by
  obtain ⟨c, hc, rfl⟩ := Option.map_eq_some_iff.mp h
  exact ⟨rfl, List.head?_eq_some_iff.mp hc⟩

theorem children_of_firstChild?_none {f : Focus} (h : f.firstChild? = none) :
    f.tree.children = [] := by
  simpa [firstChild?] using h

theorem above_of_nextSibling? {f g : Focus} (h : f.nextSibling? = some g) :
    ∃ parent index above, f.above = (parent, index) :: above ∧
      g.above = (parent, index + 1) :: above ∧
      parent.children.drop (index + 1) = g.tree :: parent.children.drop (index + 1 + 1) := by
  unfold nextSibling? at h
  split at h
  · simp at h
  · rename_i parent index above habove
    obtain ⟨c, hc, rfl⟩ := Option.map_eq_some_iff.mp h
    obtain ⟨hlt, rfl⟩ := List.getElem?_eq_some_iff.mp hc
    exact ⟨parent, index, above, habove, rfl, List.drop_eq_getElem_cons hlt⟩

theorem above_of_enclosing? {f g : Focus} (h : f.enclosing? = some g) :
    ∃ index, f.above = (g.tree, index) :: g.above := by
  unfold enclosing? at h
  split at h
  · simp at h
  · rename_i parent index above habove
    obtain rfl := Option.some.inj h
    exact ⟨index, habove⟩

theorem above_of_enclosing?_none {f : Focus} (h : f.enclosing? = none) : f.above = [] := by
  unfold enclosing? at h
  split at h
  · assumption
  · simp at h

/-- Nothing comes after the last child of a node. -/
theorem above_of_last {f g : Focus} (h : f.nextSibling? = none) (hparent : f.enclosing? = some g) :
    ∃ index, f.above = (g.tree, index) :: g.above ∧ g.tree.children.drop (index + 1) = [] := by
  obtain ⟨index, habove⟩ := above_of_enclosing? hparent
  have hlast : g.tree.children.length ≤ index + 1 := by simpa [nextSibling?, habove] using h
  exact ⟨index, habove, List.drop_eq_nil_of_le hlast⟩

/-- The next sibling of a node, or of the nearest node around it that has one. -/
def onward? (f : Focus) : Option Focus :=
  match f.nextSibling? with
  | some g => some g
  | none =>
    match h : f.enclosing? with
    | some g => g.onward?
    | none => none
  termination_by f.above.length
  decreasing_by
    obtain ⟨index, habove⟩ := above_of_enclosing? h
    rw [habove]
    exact Nat.lt_succ_self _

theorem onward?_eq_bind {f : Focus} (h : f.nextSibling? = none) :
    f.onward? = f.enclosing?.bind onward? := by
  fun_cases onward? f with
  | case1 sibling hsibling => simp [h] at hsibling
  | case2 _ parent hparent => rw [hparent, Option.bind_some]
  | case3 _ hparent => rw [hparent, Option.bind_none]

/-- The node at which the search looks next: it goes into a faulty node, if it can, and passes over
any other. -/
def next? (f : Focus) : Option Focus :=
  match if f.tree.label.faulty then f.firstChild? else none with
  | some g => some g
  | none => f.onward?

/-! ### Nodes to come -/

/-- Nodes after those of a subtree, given the way to it. -/
def later : List (Tree × Nat) → Nat
  | [] => 0
  | (parent, index) :: above => Tree.sizeAll (parent.children.drop (index + 1)) + later above

/-- The nodes of a subtree and those after it. -/
def ahead (f : Focus) : Nat := f.tree.size + later f.above

theorem ahead_firstChild? {f g : Focus} (h : f.firstChild? = some g) : g.ahead < f.ahead := by
  obtain ⟨⟨label, children⟩, above⟩ := f
  obtain ⟨c, hc, rfl⟩ := Option.map_eq_some_iff.mp h
  cases children with
  | nil => simp [Tree.children] at hc
  | cons first rest =>
    obtain rfl : first = c := Option.some.inj hc
    simp only [ahead, later, Tree.children, List.drop_succ_cons, List.drop_zero, Tree.size,
      Tree.sizeAll]
    omega

theorem ahead_nextSibling? {f g : Focus} (h : f.nextSibling? = some g) :
    g.ahead = later f.above := by
  obtain ⟨parent, index, above, habove, habove', hdrop⟩ := above_of_nextSibling? h
  rw [ahead, habove, habove', later, later, hdrop, Tree.sizeAll]
  omega

theorem ahead_onward? {f g : Focus} (h : f.onward? = some g) : g.ahead ≤ later f.above := by
  fun_induction onward? f with
  | case1 f sibling hsibling =>
    obtain rfl := Option.some.inj h
    exact Nat.le_of_eq (ahead_nextSibling? hsibling)
  | case2 f _ parent hparent ih =>
    obtain ⟨index, habove⟩ := above_of_enclosing? hparent
    rw [habove, later]
    exact Nat.le_add_left_of_le (ih h)
  | case3 => simp at h

theorem ahead_next? {f g : Focus} (h : f.next? = some g) : g.ahead < f.ahead := by
  unfold next? at h
  split at h
  · rename_i child hchild
    obtain rfl := Option.some.inj h
    split at hchild
    · exact ahead_firstChild? hchild
    · simp at hchild
  · exact Nat.lt_of_le_of_lt (ahead_onward? h) (Nat.lt_add_of_pos_left f.tree.size_pos)

/-! ### The search -/

/-- The first node from here on that is an error or missing. -/
def firstFault? (f : Focus) : Option Focus :=
  if f.isFault then some f
  else
    match h : f.next? with
    | some g => g.firstFault?
    | none => none
  termination_by f.ahead
  decreasing_by exact ahead_next? h

end Focus

end Coupling.Syntax
