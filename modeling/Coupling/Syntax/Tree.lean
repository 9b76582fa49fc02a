import Coupling.Syntax.NodeKind

/-!
# Syntax trees

A tree of labelled nodes in source order. A focus is a node together with the way to it from the
root, so that a node can be judged by what encloses it.
-/

namespace Coupling.Syntax

/-- The part that a node plays in its parent. -/
inductive Field where
  | name
  | parameters
  | body
  | returnType
  | definition
  | operator
  | argument
  | arguments
  | function
  | attribute
  | value
  | consequence
  | alternative
  | right
  | other (name : String)
deriving DecidableEq, Repr

/-- The field of that name in the grammar; a node without a field has the empty name. -/
def Field.ofName? (s : String) : Option Field :=
  match s with
  | "" => none
  | "name" => some .name
  | "parameters" => some .parameters
  | "body" => some .body
  | "return_type" => some .returnType
  | "definition" => some .definition
  | "operator" => some .operator
  | "argument" => some .argument
  | "arguments" => some .arguments
  | "function" => some .function
  | "attribute" => some .attribute
  | "value" => some .value
  | "consequence" => some .consequence
  | "alternative" => some .alternative
  | "right" => some .right
  | s => some (.other s)

structure Label where
  kind : NodeKind
  field : Option Field
  /-- A node of the grammar, as opposed to a mere token. -/
  named : Bool
  /-- Stands for text that fits no rule. -/
  error : Bool
  /-- Stands for a token that the text lacks. -/
  missing : Bool
  /-- The node or one below it is an error or missing. -/
  faulty : Bool
  /-- Offsets of the first byte and of the byte after the last. -/
  start : Nat
  stop : Nat
deriving DecidableEq, Repr

inductive Tree where
  | node (label : Label) (children : List Tree)
deriving Repr

namespace Tree

def label : Tree → Label
  | .node label _ => label

def children : Tree → List Tree
  | .node _ children => children

def kind (t : Tree) : NodeKind := t.label.kind

def field (t : Tree) : Option Field := t.label.field

/-- The first child in a field. -/
def child? (t : Tree) (f : Field) : Option Tree := t.children.find? (·.field == some f)

/-- All children in a field. -/
def childrenAt (t : Tree) (f : Field) : List Tree := t.children.filter (·.field == some f)

def namedChildren (t : Tree) : List Tree := t.children.filter (·.label.named)

mutual

/-- Number of nodes. -/
def size : Tree → Nat
  | .node _ children => sizeAll children + 1

def sizeAll : List Tree → Nat
  | [] => 0
  | t :: rest => size t + sizeAll rest

end

theorem size_pos (t : Tree) : 0 < t.size := by
  cases t
  rw [size]
  omega

theorem size_le_sizeAll {t : Tree} {trees : List Tree} (h : t ∈ trees) :
    t.size ≤ sizeAll trees := by
  induction trees with
  | nil => simp at h
  | cons u rest ih =>
    rw [sizeAll]
    rcases List.mem_cons.mp h with rfl | h
    · omega
    · have := ih h
      omega

theorem size_lt_of_mem_children {t c : Tree} (h : c ∈ t.children) : c.size < t.size := by
  cases t with
  | node label children =>
    have : c.size ≤ sizeAll children := size_le_sizeAll h
    rw [size]
    omega

theorem mem_children_of_child? {t c : Tree} {f : Field} (h : t.child? f = some c) :
    c ∈ t.children :=
  List.mem_of_find?_eq_some h

/-- Rebuilds a tree from its labels in preorder, each with the number of its children. -/
def ofPreorder? (rows : List (Label × Nat)) : Option Tree :=
  let push (row : Label × Nat) (stack : Option (List Tree)) : Option (List Tree) :=
    stack.bind fun trees =>
      if row.2 ≤ trees.length then some (.node row.1 (trees.take row.2) :: trees.drop row.2)
      else none
  match rows.foldr push (some []) with
  | some [t] => some t
  | _ => none

end Tree

/-- A node and the nodes around it, the nearest first, each with the index of the child on the way.
-/
structure Focus where
  tree : Tree
  above : List (Tree × Nat)

namespace Focus

def root (t : Tree) : Focus := ⟨t, []⟩

def kind (f : Focus) : NodeKind := f.tree.kind

def parent? (f : Focus) : Option Tree := f.above.head?.map (·.1)

def grandparent? (f : Focus) : Option Tree := (f.above.drop 1).head?.map (·.1)

/-- The node is the first child of its parent in a field. -/
def isField (f : Focus) (field : Field) : Bool :=
  match f.above with
  | [] => false
  | (parent, index) :: _ => parent.children.findIdx? (·.field == some field) == some index

end Focus

mutual

/-- All nodes of a tree in preorder. -/
def preorderFrom (above : List (Tree × Nat)) : Tree → List Focus
  | t@(.node _ children) => ⟨t, above⟩ :: preorderAll above t 0 children

/-- All nodes of the trees that are the children of a node from an index on. -/
def preorderAll (above : List (Tree × Nat)) (parent : Tree) (index : Nat) : List Tree → List Focus
  | [] => []
  | t :: rest =>
    preorderFrom ((parent, index) :: above) t ++ preorderAll above parent (index + 1) rest

end

def Tree.preorder (t : Tree) : List Focus := preorderFrom [] t

end Coupling.Syntax
