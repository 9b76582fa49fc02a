import Coupling.Survey.Walk
import Mathlib.Data.List.Infix

/-!
# A walk as a sequence of events

A walk enters a node, walks through its children and leaves the node. Written out as a list of
events, a moment of the walk is a prefix of that list, and the state at that moment is what the
prefix leads to. `traverse_eq_run` says that the loop from node to node runs through the list;
everything else about the order of events is stated here on the list alone.
-/

namespace Coupling

open Syntax

/-- What a walk does at a node. -/
inductive Event where
  | enter (f : Focus)
  | leave (f : Focus)

namespace Event

/-- The node at which an event happens. -/
def focus : Event → Focus
  | .enter f => f
  | .leave f => f

mutual

/-- The events of a walk through a node and everything below it. -/
def ofTree (above : List (Tree × Nat)) : Tree → List Event
  | t@(.node _ children) =>
    .enter ⟨t, above⟩ :: (ofChildren above t 0 children ++ [.leave ⟨t, above⟩])

/-- The events of a walk through the children of a node from an index on. -/
def ofChildren (above : List (Tree × Nat)) (parent : Tree) (index : Nat) :
    List Tree → List Event
  | [] => []
  | t :: rest =>
    ofTree ((parent, index) :: above) t ++ ofChildren above parent (index + 1) rest

end

end Event

/-- The events of the walk through a source. -/
def Syntax.Source.events (source : Source) : List Event := Event.ofTree [] source.root

namespace Walk

/-- The walk after one event. -/
def step (l : Limits) (source : Source) (w : Walk) : Event → Except Fault Walk
  | .enter f => w.enter l source f
  | .leave f => .ok (w.leave l source f)

/-- The walk after some events. -/
def run (l : Limits) (source : Source) (w : Walk) : List Event → Except Fault Walk
  | [] => .ok w
  | e :: rest =>
    match w.step l source e with
    | .error fault => .error fault
    | .ok w => w.run l source rest

variable (l : Limits) (source : Source)

theorem run_append (w : Walk) (first second : List Event) :
    w.run l source (first ++ second) =
      match w.run l source first with
      | .error fault => .error fault
      | .ok u => u.run l source second := by
  induction first generalizing w with
  | nil => rfl
  | cons e rest ih =>
    simp only [List.cons_append, run]
    cases w.step l source e with
    | error fault => rfl
    | ok u => exact ih u

variable {l source}

theorem run_cons_eq_ok {w v : Walk} {e : Event} {rest : List Event} :
    w.run l source (e :: rest) = .ok v ↔
      ∃ u, w.step l source e = .ok u ∧ u.run l source rest = .ok v := by
  rw [run]
  cases w.step l source e with
  | error fault => simp
  | ok u => simp

theorem run_append_eq_ok {w v : Walk} {first second : List Event} :
    w.run l source (first ++ second) = .ok v ↔
      ∃ u, w.run l source first = .ok u ∧ u.run l source second = .ok v := by
  rw [run_append]
  cases w.run l source first with
  | error fault => simp
  | ok u => simp

theorem run_cons_leave (w : Walk) (f : Focus) (rest : List Event) :
    w.run l source (.leave f :: rest) = (w.leave l source f).run l source rest := rfl

end Walk

/-! ### Induction along a walk

Nodes and lists of children are taken together, each with the way to it from the root. -/

mutual

private theorem walk_induction_tree {P : List (Tree × Nat) → Tree → Prop}
    {Q : List (Tree × Nat) → Tree → Nat → List Tree → Prop}
    (node : ∀ above label children, Q above (.node label children) 0 children →
      P above (.node label children))
    (nil : ∀ above parent index, Q above parent index [])
    (cons : ∀ above parent index t rest, P ((parent, index) :: above) t →
      Q above parent (index + 1) rest → Q above parent index (t :: rest))
    (above : List (Tree × Nat)) : ∀ t, P above t
  | .node label children =>
    node above label children (walk_induction_children node nil cons above _ 0 children)

private theorem walk_induction_children {P : List (Tree × Nat) → Tree → Prop}
    {Q : List (Tree × Nat) → Tree → Nat → List Tree → Prop}
    (node : ∀ above label children, Q above (.node label children) 0 children →
      P above (.node label children))
    (nil : ∀ above parent index, Q above parent index [])
    (cons : ∀ above parent index t rest, P ((parent, index) :: above) t →
      Q above parent (index + 1) rest → Q above parent index (t :: rest))
    (above : List (Tree × Nat)) (parent : Tree) (index : Nat) : ∀ ts, Q above parent index ts
  | [] => nil above parent index
  | t :: rest =>
    cons above parent index t rest
      (walk_induction_tree node nil cons ((parent, index) :: above) t)
      (walk_induction_children node nil cons above parent (index + 1) rest)

end

/-- What holds of a node when it holds of its children, and of a list of children when it holds of
the first and of the others, holds everywhere. -/
theorem walk_induction {P : List (Tree × Nat) → Tree → Prop}
    {Q : List (Tree × Nat) → Tree → Nat → List Tree → Prop}
    (node : ∀ above label children, Q above (.node label children) 0 children →
      P above (.node label children))
    (nil : ∀ above parent index, Q above parent index [])
    (cons : ∀ above parent index t rest, P ((parent, index) :: above) t →
      Q above parent (index + 1) rest → Q above parent index (t :: rest)) :
    (∀ above t, P above t) ∧ ∀ above parent index ts, Q above parent index ts :=
  ⟨walk_induction_tree node nil cons, walk_induction_children node nil cons⟩

/-! ### The loop

The loop is at a node that is next to be entered. Each of its moves takes events off the front of
those that are ahead of it. -/

namespace Event

/-- The events after those of a subtree, given the way to it. -/
def later : List (Tree × Nat) → List Event
  | [] => []
  | (parent, index) :: above =>
    ofChildren above parent (index + 1) (parent.children.drop (index + 1)) ++
      .leave ⟨parent, above⟩ :: later above

/-- The events of a subtree and those after it. -/
def ahead (f : Focus) : List Event := ofTree f.above f.tree ++ later f.above

theorem ahead_eq (f : Focus) :
    ahead f = .enter f :: (ofChildren f.above f.tree 0 f.tree.children ++
      .leave f :: later f.above) := by
  obtain ⟨⟨label, children⟩, above⟩ := f
  simp [ahead, ofTree, Tree.children]

theorem ahead_firstChild? {f g : Focus} (h : f.firstChild? = some g) :
    ahead f = .enter f :: ahead g := by
  obtain ⟨habove, rest, hchildren⟩ := Focus.children_of_firstChild? h
  rw [ahead_eq, ahead, habove, later, hchildren, ofChildren, List.drop_succ_cons, List.drop_zero,
    List.append_assoc]

theorem ahead_of_leaf {f : Focus} (h : f.firstChild? = none) :
    ahead f = .enter f :: .leave f :: later f.above := by
  rw [ahead_eq, Focus.children_of_firstChild?_none h, ofChildren, List.nil_append]

theorem later_nextSibling? {f g : Focus} (h : f.nextSibling? = some g) :
    later f.above = ahead g := by
  obtain ⟨parent, index, above, habove, habove', hdrop⟩ := Focus.above_of_nextSibling? h
  rw [ahead, habove, habove', later, later, hdrop, ofChildren, List.append_assoc]

theorem later_enclosing? {f g : Focus} (h : f.nextSibling? = none)
    (hparent : f.enclosing? = some g) : later f.above = .leave g :: later g.above := by
  obtain ⟨index, habove, hdrop⟩ := Focus.above_of_last h hparent
  rw [habove, later, hdrop, ofChildren, List.nil_append]

end Event

namespace Walk

/-- Going up runs through the events that leave nodes, up to the next node to be entered. -/
theorem run_ascend (l : Limits) (source : Source) (w : Walk) (f : Focus) :
    w.run l source (.leave f :: Event.later f.above) =
      (w.ascend l source f).1.run l source ((w.ascend l source f).2.elim [] Event.ahead) := by
  fun_induction ascend l source w f with
  | case1 w f g hsibling => rw [run_cons_leave, Event.later_nextSibling? hsibling, Option.elim_some]
  | case2 w f hsibling g hparent ih =>
    rw [run_cons_leave, Event.later_enclosing? hsibling hparent, ih]
  | case3 w f _ hparent =>
    rw [run_cons_leave, Focus.above_of_enclosing?_none hparent, Event.later, Option.elim_none]

/-- The loop runs through the events that are ahead of it. -/
theorem traverse_eq_run (l : Limits) (source : Source) (w : Walk) (f : Focus) :
    w.traverse l source f = w.run l source (Event.ahead f) := by
  fun_induction traverse l source w f with
  | case1 w f fault henter => rw [Event.ahead_eq, run, step, henter]
  | case2 w f u henter g hchild ih => rw [Event.ahead_firstChild? hchild, run, step, henter, ih]
  | case3 w f u henter hchild v g hnext ih =>
    rw [Event.ahead_of_leaf hchild, run, step, henter, ih]
    dsimp only
    rw [run_ascend, hnext, Option.elim_some]
  | case4 w f u henter hchild v hnext =>
    rw [Event.ahead_of_leaf hchild, run, step, henter]
    dsimp only
    rw [run_ascend, hnext, Option.elim_none, run]

theorem traverse_root (l : Limits) (source : Source) :
    start.traverse l source (.root source.root) = start.run l source source.events := by
  have hall : Event.ahead (.root source.root) = source.events := List.append_nil _
  rw [traverse_eq_run, hall]

/-- The findings about a source are those that the run through its events ends with. -/
theorem emitted_eq_run (l : Limits) (source : Source) :
    source.emitted l = (start.run l source source.events).map (·.finish l source.path) := by
  rw [Source.emitted, traverse_root]

end Walk

/-! ### Moments of a walk

A moment is a prefix of the events. The nodes that are open at a moment are those on the way from
the root to the node of the next event. -/

namespace Event

/-- What precedes an event within a node: nothing, the node and some events of its children, or the
node and all of them. -/
theorem split_ofTree {above : List (Tree × Nat)} {label : Label} {children : List Tree}
    {done todo : List Event} {e : Event}
    (hsplit : ofTree above (.node label children) = done ++ e :: todo) :
    (done = [] ∧ e = .enter ⟨.node label children, above⟩) ∨
    (∃ before after, done = .enter ⟨.node label children, above⟩ :: before ∧
      ofChildren above (.node label children) 0 children = before ++ e :: after) ∨
    (done = .enter ⟨.node label children, above⟩ ::
        ofChildren above (.node label children) 0 children ∧
      e = .leave ⟨.node label children, above⟩) := by
  rw [ofTree] at hsplit
  cases done with
  | nil =>
    rw [List.nil_append, List.cons.injEq] at hsplit
    exact .inl ⟨rfl, hsplit.1.symm⟩
  | cons first before =>
    rw [List.cons_append, List.cons.injEq] at hsplit
    obtain ⟨hfirst, hrest⟩ := hsplit
    rw [← hfirst]
    rcases List.append_eq_append_iff.mp hrest with ⟨extra, hbefore, hlast⟩ | ⟨extra, hall, hlast⟩
    · cases extra with
      | nil =>
        rw [List.nil_append, List.cons.injEq] at hlast
        rw [List.append_nil] at hbefore
        exact .inr (.inr ⟨by rw [hbefore], hlast.1.symm⟩)
      | cons x extra => simp at hlast
    · cases extra with
      | nil =>
        rw [List.nil_append, List.cons.injEq] at hlast
        rw [List.append_nil] at hall
        exact .inr (.inr ⟨by rw [hall], hlast.1⟩)
      | cons x extra =>
        rw [List.cons_append, List.cons.injEq] at hlast
        exact .inr (.inl ⟨before, extra, rfl, by rw [hall, hlast.1]⟩)

/-- What precedes an event within some children: it falls into the first of them, or the first of
them is complete. -/
theorem split_ofChildren {above : List (Tree × Nat)} {parent t : Tree} {index : Nat}
    {rest : List Tree} {done todo : List Event} {e : Event}
    (hsplit : ofChildren above parent index (t :: rest) = done ++ e :: todo) :
    (∃ after, ofTree ((parent, index) :: above) t = done ++ e :: after) ∨
    (∃ before, done = ofTree ((parent, index) :: above) t ++ before ∧
      ofChildren above parent (index + 1) rest = before ++ e :: todo) := by
  rw [ofChildren] at hsplit
  rcases List.append_eq_append_iff.mp hsplit with ⟨before, hdone, hrest⟩ | ⟨extra, hall, hlast⟩
  · exact .inr ⟨before, hdone, hrest⟩
  · cases extra with
    | nil =>
      rw [List.append_nil] at hall
      rw [List.nil_append] at hlast
      exact .inr ⟨[], by rw [hall, List.append_nil], by rw [List.nil_append, hlast]⟩
    | cons x extra =>
      rw [List.cons_append, List.cons.injEq] at hlast
      exact .inl ⟨extra, by rw [hall, hlast.1]⟩

end Event

namespace Syntax

/-- The nodes around a place in a tree, the nearest first. -/
def enclosing : List (Tree × Nat) → List Focus
  | [] => []
  | (t, _) :: above => ⟨t, above⟩ :: enclosing above

/-- The indices of the children on the way to a node, the last first. No two nodes of a tree have
the same. -/
def Focus.address (f : Focus) : List Nat := f.above.map (·.2)

end Syntax

namespace Event

/-- The node that an event enters. -/
def entered? : Event → Option Focus
  | .enter f => some f
  | .leave _ => none

/-- The event leaves the node with an address. -/
def leaves (address : List Nat) : Event → Bool
  | .enter _ => false
  | .leave f => f.address == address

/-- The nodes around the place of an event, the nearest first: on leaving a node, that node is one
of them. -/
def around : Event → List Focus
  | .enter f => enclosing f.above
  | .leave f => f :: enclosing f.above

theorem mem_ofTree_iff (above : List (Tree × Nat)) (t : Tree) (e : Event) :
    e ∈ ofTree above t ↔ e.focus ∈ preorderFrom above t := by
  refine (walk_induction
    (P := fun above t => ∀ e, e ∈ ofTree above t ↔ e.focus ∈ preorderFrom above t)
    (Q := fun above parent index ts => ∀ e, e ∈ ofChildren above parent index ts ↔
      e.focus ∈ preorderAll above parent index ts) ?_ ?_ ?_).1 above t e
  · intro above label children hchildren e
    rw [ofTree, preorderFrom, List.mem_cons, List.mem_append, List.mem_cons, hchildren]
    cases e with
    | enter f => simp [focus]
    | leave f => simp [focus, or_comm]
  · intro above parent index e
    simp [ofChildren, preorderAll]
  · intro above parent index t rest ht hrest e
    rw [ofChildren, preorderAll, List.mem_append, List.mem_append, ht, hrest]

/-- The nodes are entered in preorder. -/
theorem filterMap_entered?_ofTree (above : List (Tree × Nat)) (t : Tree) :
    (ofTree above t).filterMap entered? = preorderFrom above t := by
  refine (walk_induction
    (P := fun above t => (ofTree above t).filterMap entered? = preorderFrom above t)
    (Q := fun above parent index ts => (ofChildren above parent index ts).filterMap entered? =
      preorderAll above parent index ts) ?_ ?_ ?_).1 above t
  · intro above label children hchildren
    simp [ofTree, preorderFrom, entered?, hchildren]
  · intro above parent index
    rfl
  · intro above parent index t rest ht hrest
    rw [ofChildren, preorderAll, List.filterMap_append, ht, hrest]

end Event

/-! ### A small source

A method in a class in a loop in a function, with the nodes of the grammar and without its
tokens. -/

namespace Syntax

/-- A node that stands for some bytes of a text without faults. -/
def Tree.span (kind : NodeKind) (field : Option Field) (start stop : Nat) (children : List Tree) :
    Tree :=
  .node ⟨kind, field, true, false, false, false, start, stop⟩ children

def nestedMethod : Tree :=
  .span .functionDefinition none 45 90
    [.span .identifier (some .name) 49 50 [],
     .span .parameters (some .parameters) 50 68
       [.span .identifier none 51 55 [], .span .identifier none 57 58 [],
        .span .identifier none 60 61 [], .span .identifier none 63 64 [],
        .span .identifier none 66 67 []],
     .span .block (some .body) 74 90
       [.span .ifStatement none 74 90
         [.span .booleanOperator none 77 84
           [.span .identifier none 77 78 [], .span .identifier none 83 84 []],
          .span .block (some .consequence) 86 90 []]]]

def nestedClass : Tree :=
  .span .classDefinition none 33 90
    [.span .identifier (some .name) 39 40 [], .span .block (some .body) 45 90 [nestedMethod]]

def nestedFunction : Tree :=
  .span .functionDefinition none 0 90
    [.span .identifier (some .name) 4 5 [],
     .span .parameters (some .parameters) 5 11 [.span .identifier none 6 10 []],
     .span .block (some .body) 14 90
       [.span .forStatement none 14 90
         [.span .identifier none 18 21 [], .span .identifier none 25 29 [],
          .span .block (some .body) 33 90 [nestedClass]]]]

def nestedSource : Source where
  path := "nested.py"
  text := .ofChars ("def f(rows):\n for row in rows:\n  class C:\n" ++
    "   def m(self, a, b, c, d):\n    if a and b: pass\n").toList
  root := .span (.other "module") none 0 91 [nestedFunction]

end Syntax

end Coupling
