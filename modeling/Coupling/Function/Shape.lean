import Coupling.Digest.XxHash
import Coupling.Syntax.Tree
import Coupling.Text.Utf8

/-!
# Shapes of function bodies

A body is reduced to the tokens of its statements, nested blocks included, and the tokens to a
digest. The reduction works off a stack of pending work; `Work.cost` counts the steps that a piece
of work takes, so the stack's total cost falls by one with every step.
-/

namespace Coupling.Shape

open Syntax

inductive Work where
  | block (t : Tree)
  | statement (t : Tree)
  | marker (token : String)

/-- The block of a node in a field. -/
def bodyOf (t : Tree) (f : Field) : List Work := (t.child? f).toList.map .block

/-- The first block among the named children of a clause. -/
def firstBlock (clause : Tree) : List Work :=
  (clause.namedChildren.find? (·.kind == .block)).toList.map .block

/-- An alternative of an if statement. -/
def alternative (t : Tree) : List Work :=
  if t.kind = .elifClause then .marker "elif" :: bodyOf t .consequence
  else .marker "else" :: bodyOf t .body

/-- The marker of a clause of a try statement. -/
def clauseMarker? (clause : Tree) : Option String :=
  match clause.kind with
  | .exceptClause | .exceptGroupClause => some "except"
  | .elseClause => some "else"
  | .finallyClause => some "finally"
  | _ => none

/-- A clause of a try statement. -/
def tryClause (clause : Tree) : List Work :=
  match clauseMarker? clause with
  | some token => .marker token :: firstBlock clause
  | none => []

/-- The blocks nested in a statement, in order, each clause after its marker. -/
def nested (t : Tree) : List Work :=
  match t.kind with
  | .ifStatement => bodyOf t .consequence ++ (t.childrenAt .alternative).flatMap alternative
  | .forStatement | .whileStatement =>
    bodyOf t .body ++
      (t.child? .alternative).toList.flatMap fun a => .marker "else" :: bodyOf a .body
  | .tryStatement => bodyOf t .body ++ t.namedChildren.flatMap tryClause
  | .withStatement => bodyOf t .body
  | _ => []

/-- Assignments on the way down the right-hand sides of a chain. -/
def assignmentTargets (t : Tree) : Nat :=
  match h : t.child? .right with
  | some right => if right.kind = .assignment then assignmentTargets right + 1 else 1
  | none => 1
  termination_by t.size
  decreasing_by exact Tree.size_lt_of_mem_children (Tree.mem_children_of_child? h)

/-- Context managers of a with statement. -/
def withItems (t : Tree) : Nat :=
  match t.namedChildren.find? (·.kind == .withClause) with
  | some clause => clause.namedChildren.countP (·.kind == .withItem)
  | none => 0

/-- Handlers of a try statement. -/
def handlers (t : Tree) : Nat := t.namedChildren.countP fun c => clauseMarker? c == some "except"

def expressionToken (t : Tree) : String :=
  match t.namedChildren.head? with
  | none => "expr"
  | some e =>
    match e.kind with
    | .assignment => s!"assign_{assignmentTargets e}"
    | .augmentedAssignment => "augassign"
    | .call => "call"
    | _ => "expr"

/-- The token of a statement: its kind and what tells its structure apart. -/
def token (t : Tree) : String :=
  match t.kind with
  | .returnStatement => if t.namedChildren.isEmpty then "return" else "return_value"
  | .ifStatement => if (t.childrenAt .alternative).isEmpty then "if_false" else "if_true"
  | .forStatement => "for"
  | .whileStatement => "while"
  | .tryStatement => s!"try_{handlers t}"
  | .withStatement => s!"with_{withItems t}"
  | .expressionStatement => expressionToken t
  | .raiseStatement => "raise"
  | kind => kind.name

namespace Work

/-- The token that a piece of work contributes itself. -/
def emit : Work → List String
  | .block _ => []
  | .statement t => [token t]
  | .marker token => [token]

/-- The work that takes its place. -/
def expand : Work → List Work
  | .block t => (t.namedChildren.filter (·.kind != .comment)).map .statement
  | .statement t => nested t
  | .marker _ => []

/-- Size of the tree that the work is about. -/
def rank : Work → Nat
  | .block t | .statement t => t.size
  | .marker _ => 0

end Work

/-! ### Work shrinks -/

theorem rank_lt_of_mem_bodyOf {t : Tree} {f : Field} {w : Work} (h : w ∈ bodyOf t f) :
    w.rank < t.size := by
  simp only [bodyOf, List.mem_map, Option.mem_toList] at h
  obtain ⟨c, hc, rfl⟩ := h
  exact Tree.size_lt_of_mem_children (Tree.mem_children_of_child? hc)

theorem rank_lt_of_mem_firstBlock {t : Tree} {w : Work} (h : w ∈ firstBlock t) :
    w.rank < t.size := by
  simp only [firstBlock, List.mem_map, Option.mem_toList] at h
  obtain ⟨c, hc, rfl⟩ := h
  have hnamed : c ∈ t.namedChildren := List.mem_of_find?_eq_some hc
  exact Tree.size_lt_of_mem_children (List.mem_filter.mp hnamed).1

theorem rank_lt_of_mem_clause {c t : Tree} {marker : String} {blocks : List Work} {w : Work}
    (hc : c ∈ t.children) (hblocks : ∀ b ∈ blocks, b.rank < c.size)
    (h : w ∈ Work.marker marker :: blocks) : w.rank < t.size := by
  have hsize := Tree.size_lt_of_mem_children hc
  rcases List.mem_cons.mp h with rfl | h
  · exact t.size_pos
  · exact Nat.lt_trans (hblocks w h) hsize

theorem rank_lt_of_mem_nested {t : Tree} {w : Work} (h : w ∈ nested t) : w.rank < t.size := by
  unfold nested at h
  split at h
  · rcases List.mem_append.mp h with h | h
    · exact rank_lt_of_mem_bodyOf h
    · obtain ⟨c, hc, hw⟩ := List.mem_flatMap.mp h
      have hmem : c ∈ t.children := (List.mem_filter.mp hc).1
      unfold alternative at hw
      split at hw <;> exact rank_lt_of_mem_clause hmem (fun _ => rank_lt_of_mem_bodyOf) hw
  all_goals try rcases List.mem_append.mp h with h | h
  all_goals try exact rank_lt_of_mem_bodyOf h
  · obtain ⟨c, hc, hw⟩ := List.mem_flatMap.mp h
    have hmem := Tree.mem_children_of_child? (Option.mem_toList.mp hc)
    exact rank_lt_of_mem_clause hmem (fun _ => rank_lt_of_mem_bodyOf) hw
  · obtain ⟨c, hc, hw⟩ := List.mem_flatMap.mp h
    have hmem := Tree.mem_children_of_child? (Option.mem_toList.mp hc)
    exact rank_lt_of_mem_clause hmem (fun _ => rank_lt_of_mem_bodyOf) hw
  · obtain ⟨c, hc, hw⟩ := List.mem_flatMap.mp h
    have hmem : c ∈ t.children := (List.mem_filter.mp hc).1
    unfold tryClause at hw
    split at hw
    · exact rank_lt_of_mem_clause hmem (fun _ => rank_lt_of_mem_firstBlock) hw
    · simp at hw
  · simp at h

theorem Work.rank_lt_of_mem_expand {v w : Work} (h : v ∈ w.expand) : v.rank < w.rank := by
  cases w with
  | block t =>
    obtain ⟨c, hc, rfl⟩ := List.mem_map.mp h
    exact Tree.size_lt_of_mem_children (List.mem_filter.mp (List.mem_filter.mp hc).1).1
  | statement t => exact rank_lt_of_mem_nested h
  | marker token => simp [Work.expand] at h

/-- Steps that a piece of work takes, those of the work it expands to included. -/
def Work.cost (w : Work) : Nat :=
  (w.expand.attach.foldr (fun ⟨v, _⟩ n => cost v + n) 0) + 1
  termination_by w.rank
  decreasing_by exact Work.rank_lt_of_mem_expand (by assumption)

/-- Steps that a stack of work takes. -/
def costOf (stack : List Work) : Nat := stack.foldr (fun w n => w.cost + n) 0

theorem costOf_append (u v : List Work) : costOf (u ++ v) = costOf u + costOf v := by
  induction u with
  | nil => simp [costOf]
  | cons w u ih => simp only [costOf, List.cons_append, List.foldr_cons] at ih ⊢; omega

theorem Work.cost_eq (w : Work) : w.cost = costOf w.expand + 1 := by
  rw [cost, costOf]
  simp

/-! ### The digest -/

/-- Works off a stack and returns the tokens in the order in which they come up. -/
def drain (stack : List Work) : List String :=
  match stack with
  | [] => []
  | w :: rest => w.emit ++ drain (w.expand ++ rest)
  termination_by costOf stack
  decreasing_by
    have := Work.cost_eq w
    rw [costOf_append, costOf.eq_1 (w :: rest), List.foldr_cons]
    simp only [costOf] at *
    omega

/-- The tokens of a block. -/
def tokens (body : Tree) : List String := drain [.block body]

/-- The text that is digested: the number of parameters, then each token after a bar. -/
def stream (parameters : Nat) (tokens : List String) : String :=
  s!"params:{parameters}" ++ String.join (tokens.map ("|" ++ ·))

end Shape

/-- What two functions with the same structure have in common. -/
structure Shape where
  digest : UInt64
  statements : Nat
deriving DecidableEq, Repr

/-- The shape of a function definition; one without a body has none. -/
def Shape.ofFunction? (function : Syntax.Tree) (parameters : Nat) : Option Shape :=
  (function.child? .body).map fun body =>
    let tokens := Shape.tokens body
    ⟨Digest.XxHash.digest 0 (Text.encode (Shape.stream parameters tokens)), tokens.length⟩

end Coupling
