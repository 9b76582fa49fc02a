import Coupling.Proofs.Function.Duplicates
import Mathlib.Data.List.Flatten
import Mathlib.Logic.Function.Iterate

/-!
# Bodies laid flat

The tokens of a body can be told by recursion over its blocks. The shape is made by a loop instead,
which takes work from the end of a stack and puts back what the work expands to, the last part
first. The loop ends, and the text it has digested is made of the recursive tokens in their order.
A comment in a block has no token, so comments come and go without a change of the shape.
-/

namespace Coupling

open Syntax

namespace Shape

/-! ### Tokens by recursion -/

/-- The tokens of a block: for each statement its own, then those of the blocks nested in it, each
clause after its marker. -/
def flat (block : Tree) : List String :=
  (statementsOf block).attach.flatMap fun s =>
    token s.1 :: (clauses s.1).attach.flatMap fun c =>
      c.1.marker.toList ++ c.1.block.toList.attach.flatMap fun inner => flat inner.1
  termination_by block.size
  decreasing_by
    exact Nat.lt_trans (size_lt_of_mem_clauses c.2 inner.2) (size_lt_of_mem_statementsOf s.2)

theorem flat_eq (block : Tree) :
    flat block = (statementsOf block).flatMap fun s =>
      token s :: (clauses s).flatMap fun c => c.marker.toList ++ c.block.toList.flatMap flat := by
  rw [flat]
  simp only [List.flatMap_subtype, List.unattach_attach]

theorem Work.tokens_statement (s : Tree) :
    (Work.statement s).tokens = token s :: (clauses s).flatMap fun c =>
      c.marker.toList ++ c.block.toList.flatMap fun inner => (Work.block inner).tokens := by
  have hclause (c : Clause) : c.work.flatMap Work.tokens =
      c.marker.toList ++ c.block.toList.flatMap fun inner => (Work.block inner).tokens := by
    rw [Clause.work, List.flatMap_append, List.flatMap_map, List.flatMap_map]
    congr 1
    exact List.flatMap_singleton' _
  rw [Work.tokens_eq, Work.emit, Work.expand, nested_eq, List.flatMap_assoc]
  simp only [hclause, List.singleton_append]

theorem Work.tokens_block (block : Tree) : (Work.block block).tokens = flat block := by
  rw [Work.tokens_eq, Work.emit, Work.expand, List.nil_append, List.flatMap_map, flat_eq]
  refine List.flatMap_congr fun s hs => ?_
  rw [Work.tokens_statement]
  congr 1
  refine List.flatMap_congr fun c hc => ?_
  congr 1
  refine List.flatMap_congr fun inner hinner => ?_
  have := Nat.lt_trans (size_lt_of_mem_clauses hc hinner) (size_lt_of_mem_statementsOf hs)
  exact Work.tokens_block inner
  termination_by block.size

theorem tokens_eq_flat (body : Tree) : tokens body = flat body := by
  rw [tokens, drain_eq, List.flatMap_singleton, Work.tokens_block]

/-! ### Blocks in the order of the text -/

/-- No clause of a statement stands before the statement's own block. -/
def OwnBlockFirst (t : Tree) : Prop :=
  t.children.Pairwise fun c later =>
    later.field = some .consequence ∨ later.field = some .body →
      c.field ≠ some .alternative ∧ clauseMarker? c = none

instance (t : Tree) : Decidable (OwnBlockFirst t) := inferInstanceAs (Decidable (List.Pairwise ..))

/-- Some children, each before its own children. -/
def twoLevels (children : List Tree) : List Tree := children.flatMap fun c => c :: c.children

/-- The block of a statement comes before the blocks of children after it. -/
theorem own_append_sublist {t : Tree} {field : Field} {inner : Tree → Option Tree}
    (hfirst : ∀ before own after, t.children = before ++ own :: after → own.field = some field →
      ∀ c ∈ before, inner c = none)
    (hinner : ∀ c block, inner c = some block → block ∈ c.children) :
    ((t.child? field).toList ++ t.children.filterMap inner).Sublist (twoLevels t.children) := by
  have hblocks (children : List Tree) : (children.filterMap inner).Sublist
      (children.flatMap Tree.children) := by
    rw [List.filterMap_eq_flatMap_toList]
    refine List.Sublist.flatMap_right _ fun c _ => ?_
    cases hblock : inner c with
    | none => exact List.nil_sublist _
    | some block => exact List.singleton_sublist.mpr (hinner c block hblock)
  have hlevels (children : List Tree) : (children.flatMap Tree.children).Sublist
      (twoLevels children) :=
    List.Sublist.flatMap_right _ fun c _ => List.sublist_cons_self c c.children
  cases hown : t.child? field with
  | none => exact (hblocks t.children).trans (hlevels t.children)
  | some own =>
    obtain ⟨hfield, before, after, hchildren, -⟩ := List.find?_eq_some_iff_append.mp hown
    have hbefore : before.filterMap inner = [] :=
      List.filterMap_eq_nil_iff.mpr (hfirst before own after hchildren (by simpa using hfield))
    rw [hchildren, List.filterMap_append, hbefore, List.nil_append, twoLevels, List.flatMap_append,
      List.flatMap_cons]
    refine List.Sublist.trans ?_ (List.sublist_append_right _ _)
    refine ((hblocks (own :: after)).cons_cons own).trans ?_
    rw [List.flatMap_cons]
    exact ((List.Sublist.refl own.children).append (hlevels after)).cons_cons own

theorem OwnBlockFirst.of_append {t : Tree} (h : OwnBlockFirst t) {before after : List Tree}
    {own : Tree} (hchildren : t.children = before ++ own :: after)
    (hown : own.field = some .consequence ∨ own.field = some .body) :
    ∀ c ∈ before, c.field ≠ some .alternative ∧ clauseMarker? c = none := by
  rw [OwnBlockFirst, hchildren, List.pairwise_append] at h
  exact fun c hc => h.2.2 c hc own List.mem_cons_self hown

theorem OwnBlockFirst.own_append_alternatives {t : Tree} (h : OwnBlockFirst t) {field : Field}
    (hfield : field = .consequence ∨ field = .body) {inner : Tree → Option Tree}
    (hinner : ∀ c block, inner c = some block → block ∈ c.children) :
    ((t.child? field).toList ++ (t.childrenAt .alternative).filterMap inner).Sublist
      (twoLevels t.children) := by
  rw [Tree.childrenAt, List.filterMap_filter]
  refine own_append_sublist (fun before own after hchildren hown c hc => ?_)
    fun c block hblock => ?_
  · have hnone := (h.of_append hchildren (by simpa [hown] using hfield) c hc).1
    simp [hnone]
  · split at hblock
    · exact hinner c block hblock
    · simp at hblock

theorem filterMap_block_cons (block : Option Tree) (rest : List Clause) :
    (⟨none, block⟩ :: rest).filterMap Clause.block =
      block.toList ++ rest.filterMap Clause.block := by
  cases block <;> rfl

/-- The blocks nested in a statement come in the order of the text. -/
theorem OwnBlockFirst.blocks_sublist {t : Tree} (h : OwnBlockFirst t) :
    ((clauses t).filterMap Clause.block).Sublist (twoLevels t.children) := by
  have hloop : ((t.child? .body).toList ++ ((t.child? .alternative).toList.map fun a =>
      (⟨some "else", a.child? .body⟩ : Clause)).filterMap Clause.block).Sublist
      (twoLevels t.children) := by
    have hfirst : (t.child? .alternative).toList.Sublist (t.childrenAt .alternative) := by
      cases halternative : t.child? .alternative with
      | none => exact List.nil_sublist _
      | some a =>
        have hfield : (a.field == some .alternative) = true := by
          simpa using List.find?_some halternative
        exact List.singleton_sublist.mpr
          (List.mem_filter.mpr ⟨Tree.mem_children_of_child? halternative, hfield⟩)
    rw [List.filterMap_map]
    exact ((List.Sublist.refl _).append (hfirst.filterMap _)).trans
      (h.own_append_alternatives (.inr rfl) fun _ _ hblock => Tree.mem_children_of_child? hblock)
  unfold clauses
  split
  · rw [filterMap_block_cons, List.filterMap_map]
    refine h.own_append_alternatives (.inl rfl) fun c block hblock => ?_
    rw [Function.comp_apply] at hblock
    split at hblock
    · exact Tree.mem_children_of_child? hblock
    · exact Tree.mem_children_of_child? hblock
  · rw [filterMap_block_cons]
    exact hloop
  · rw [filterMap_block_cons]
    exact hloop
  · rw [filterMap_block_cons, Tree.namedChildren, List.filterMap_filter, List.filterMap_filterMap]
    refine own_append_sublist (fun before own after hchildren hown c hc => ?_)
      fun c block hblock => ?_
    · simp [(h.of_append hchildren (.inr hown) c hc).2]
    · obtain ⟨clause, hclause, hfound⟩ := Option.bind_eq_some_iff.mp hblock
      split at hclause
      · obtain ⟨marker, _, rfl⟩ := Option.map_eq_some_iff.mp hclause
        have hnamed : block ∈ c.namedChildren := List.mem_of_find?_eq_some hfound
        exact (List.mem_filter.mp hnamed).1
      · simp at hclause
  · have hown : ((t.child? .body).toList ++ t.children.filterMap fun _ => none).Sublist
        (twoLevels t.children) := own_append_sublist (by simp) (by simp)
    rw [filterMap_block_cons]
    simpa using hown
  · exact List.nil_sublist _

/-! ### The loop -/

/-- The loop over a stack of work, with its top at the end: what is pending, the text that was
digested and the number of tokens in it. -/
structure Loop where
  stack : List Work
  text : String
  count : Nat

namespace Loop

def start (parameters : Nat) (body : Tree) : Loop :=
  ⟨[.block body], s!"params:{parameters}", 0⟩

/-- Takes the work on top of the stack, if there is any. -/
def step (l : Loop) : Loop :=
  match l.stack.getLast? with
  | none => l
  | some w =>
    ⟨l.stack.dropLast ++ w.expand.reverse, l.text ++ String.join (w.emit.map ("|" ++ ·)),
      l.count + w.emit.length⟩

theorem step_cons (w : Work) (rest : List Work) (text : String) (count : Nat) :
    step ⟨(w :: rest).reverse, text, count⟩ =
      ⟨(w.expand ++ rest).reverse, text ++ String.join (w.emit.map ("|" ++ ·)),
        count + w.emit.length⟩ := by
  simp [step]

/-- The loop works off its stack, and what it digests is what the stack stands for. -/
theorem iterate_step (stack : List Work) (text : String) (count : Nat) :
    step^[costOf stack] ⟨stack.reverse, text, count⟩ =
      ⟨[], text ++ String.join ((drain stack).map ("|" ++ ·)), count + (drain stack).length⟩ := by
  induction stack using drain.induct generalizing text count with
  | case1 => simp [costOf, drain]
  | case2 w rest ih =>
    have hcost : costOf (w :: rest) = costOf (w.expand ++ rest) + 1 := by
      rw [costOf_append, costOf, List.foldr_cons, w.cost_eq, ← costOf]
      omega
    rw [hcost, Function.iterate_succ_apply, step_cons, ih, drain]
    simp [String.append_assoc, Nat.add_assoc]

end Loop

end Shape

/-! ### Comments -/

namespace Syntax.Tree

/-- A comment; it plays no part in its parent. -/
def isComment (t : Tree) : Bool := t.kind == .comment && t.field.isNone

mutual

/-- A tree without positions and without the comments in its blocks. -/
def bare : Tree → Tree
  | .node label children =>
    .node { label with start := 0, stop := 0 } (bareAll (label.kind == .block) children)

def bareAll (inBlock : Bool) : List Tree → List Tree
  | [] => []
  | t :: rest =>
    if inBlock && t.isComment then bareAll inBlock rest else bare t :: bareAll inBlock rest

end

theorem bareAll_eq (inBlock : Bool) (trees : List Tree) :
    bareAll inBlock trees = (trees.filter fun t => !(inBlock && t.isComment)).map bare := by
  induction trees with
  | nil => rfl
  | cons t rest ih =>
    rw [bareAll, List.filter_cons, ih]
    cases inBlock && t.isComment <;> rfl

/-- A comment is put into a block, or a node moves to another position, somewhere in a tree. -/
inductive Commented : Tree → Tree → Prop where
  | insert {label : Label} {comment : Tree} (before after : List Tree)
      (hlabel : label.kind = .block) (hcomment : comment.isComment = true) :
      Commented (.node label (before ++ after)) (.node label (before ++ comment :: after))
  | move (label : Label) (start stop : Nat) (children : List Tree) :
      Commented (.node label children) (.node { label with start := start, stop := stop } children)
  | inside {t t' : Tree} (label : Label) (before after : List Tree) (h : Commented t t') :
      Commented (.node label (before ++ t :: after)) (.node label (before ++ t' :: after))

variable {t u : Tree}

@[simp] theorem kind_bare (t : Tree) : t.bare.kind = t.kind := by
  cases t
  rfl

@[simp] theorem field_bare (t : Tree) : t.bare.field = t.field := by
  cases t
  rfl

@[simp] theorem named_bare (t : Tree) : t.bare.label.named = t.label.named := by
  cases t
  rfl

theorem children_bare (t : Tree) :
    t.bare.children =
      (t.children.filter fun c => !(t.kind == .block && c.isComment)).map bare := by
  cases t
  exact bareAll_eq ..

theorem Commented.bare_eq (h : Commented t u) : t.bare = u.bare := by
  induction h with
  | insert before after hlabel hcomment => simp [bare, bareAll_eq, hlabel, hcomment]
  | move label start stop children => rfl
  | inside label before after h ih =>
    rename_i t t'
    have hcomment : t.isComment = t'.isComment := by
      rw [isComment, isComment, ← kind_bare, ← field_bare, ih, kind_bare, field_bare]
    simp only [bare, bareAll_eq, List.filter_append, List.filter_cons, hcomment]
    cases (!(label.kind == .block && t'.isComment)) <;> simp [ih]

/-! What is said of children by their fields is said of them without comments too. -/

theorem child?_bare (t : Tree) (f : Field) : t.bare.child? f = (t.child? f).map bare := by
  rw [child?, children_bare, List.find?_map, List.find?_filter, child?]
  congr 2
  funext c
  by_cases hfield : c.field = some f <;> simp [isComment, hfield]

theorem childrenAt_bare (t : Tree) (f : Field) :
    t.bare.childrenAt f = (t.childrenAt f).map bare := by
  rw [childrenAt, children_bare, List.filter_map, List.filter_filter, childrenAt]
  congr 2
  funext c
  by_cases hfield : c.field = some f <;> simp [isComment, hfield]

theorem namedChildren_bare (ht : t.kind ≠ .block) :
    t.bare.namedChildren = t.namedChildren.map bare := by
  rw [namedChildren, children_bare, List.filter_map, List.filter_filter, namedChildren]
  congr 2
  funext c
  simp [ht]

end Syntax.Tree

namespace Shape

theorem statementsOf_bare (t : Tree) : statementsOf t.bare = (statementsOf t).map Tree.bare := by
  rw [statementsOf, Tree.namedChildren, Tree.children_bare, List.filter_map, List.filter_map,
    List.filter_filter, List.filter_filter, statementsOf, Tree.namedChildren, List.filter_filter]
  congr 2
  funext c
  by_cases hkind : c.kind = .comment <;> simp [Tree.isComment, hkind]

theorem clauseMarker?_bare (t : Tree) : clauseMarker? t.bare = clauseMarker? t := by
  rw [clauseMarker?, clauseMarker?, Tree.kind_bare]

theorem assignmentTargets_bare (t : Tree) : assignmentTargets t.bare = assignmentTargets t := by
  rw [assignmentTargets, assignmentTargets, Tree.child?_bare]
  cases hright : t.child? .right with
  | none => rfl
  | some right =>
    have := Tree.size_lt_of_mem_children (Tree.mem_children_of_child? hright)
    simp only [Option.map_some, Tree.kind_bare, assignmentTargets_bare right]
  termination_by t.size

theorem handlers_bare {t : Tree} (ht : t.kind ≠ .block) : handlers t.bare = handlers t := by
  rw [handlers, Tree.namedChildren_bare ht, List.countP_map, handlers]
  congr 1
  funext c
  simp only [Function.comp_apply, clauseMarker?_bare]

theorem withItems_bare {t : Tree} (ht : t.kind ≠ .block) : withItems t.bare = withItems t := by
  have hkind (kind : NodeKind) : (fun c : Tree => c.kind == kind) ∘ Tree.bare =
      fun c => c.kind == kind := by
    funext c
    simp only [Function.comp_apply, Tree.kind_bare]
  rw [withItems, withItems, Tree.namedChildren_bare ht, List.find?_map, hkind]
  cases hclause : t.namedChildren.find? (·.kind == .withClause) with
  | none => rfl
  | some clause =>
    have hwith : clause.kind = .withClause := by simpa using List.find?_some hclause
    simp only [Option.map_some]
    rw [Tree.namedChildren_bare (by simp [hwith]), List.countP_map, hkind]

theorem expressionToken_bare {t : Tree} (ht : t.kind ≠ .block) :
    expressionToken t.bare = expressionToken t := by
  rw [expressionToken, expressionToken, Tree.namedChildren_bare ht, List.head?_map]
  cases t.namedChildren.head? with
  | none => rfl
  | some e => simp only [Option.map_some, Tree.kind_bare, assignmentTargets_bare]

theorem token_bare (t : Tree) : token t.bare = token t := by
  unfold token
  rw [Tree.kind_bare]
  split
  · rename_i hkind
    rw [Tree.namedChildren_bare (by simp [hkind]), List.isEmpty_map]
  · rw [Tree.childrenAt_bare, List.isEmpty_map]
  · rfl
  · rfl
  · rename_i hkind
    rw [handlers_bare (by simp [hkind])]
  · rename_i hkind
    rw [withItems_bare (by simp [hkind])]
  · rename_i hkind
    exact expressionToken_bare (by simp [hkind])
  · rfl
  · rfl

def Clause.bare (c : Clause) : Clause := ⟨c.marker, c.block.map Tree.bare⟩

theorem firstBlock_bare {clause : Tree} (hclause : clause.kind ≠ .block) :
    clause.bare.namedChildren.find? (·.kind == .block) =
      (clause.namedChildren.find? (·.kind == .block)).map Tree.bare := by
  rw [Tree.namedChildren_bare hclause, List.find?_map]
  congr 2
  funext c
  simp only [Function.comp_apply, Tree.kind_bare]

theorem kind_ne_block_of_clauseMarker? {clause : Tree} {marker : String}
    (h : clauseMarker? clause = some marker) : clause.kind ≠ .block := by
  intro hkind
  simp [clauseMarker?, hkind] at h

theorem clauses_bare (t : Tree) : clauses t.bare = (clauses t).map Clause.bare := by
  have hbody (f : Field) : (⟨none, t.bare.child? f⟩ : Clause) = Clause.bare ⟨none, t.child? f⟩ := by
    rw [Tree.child?_bare]
    rfl
  have hloop : ((t.bare.child? .alternative).toList.map fun a =>
      (⟨some "else", a.child? .body⟩ : Clause)) =
      ((t.child? .alternative).toList.map fun a => ⟨some "else", a.child? .body⟩).map
        Clause.bare := by
    rw [Tree.child?_bare, Option.toList_map, List.map_map, List.map_map]
    congr 1
    funext a
    simp only [Function.comp_apply, Tree.child?_bare, Clause.bare]
  unfold clauses
  rw [Tree.kind_bare]
  split
  · rw [List.map_cons, ← hbody, Tree.childrenAt_bare, List.map_map, List.map_map]
    congr 2
    funext a
    by_cases hkind : a.kind = .elifClause <;>
      simp [hkind, Tree.child?_bare, Clause.bare]
  · rw [List.map_cons, ← hbody, hloop]
  · rw [List.map_cons, ← hbody, hloop]
  · rename_i hkind
    rw [List.map_cons, ← hbody, Tree.namedChildren_bare (by simp [hkind]), List.filterMap_map,
      List.map_filterMap]
    congr 2
    funext clause
    rw [Function.comp_apply, clauseMarker?_bare]
    cases hmarker : clauseMarker? clause with
    | none => rfl
    | some marker =>
      simp only [Option.map_some, Clause.bare,
        firstBlock_bare (kind_ne_block_of_clauseMarker? hmarker)]
  · rw [List.map_singleton, hbody]
  · rfl

theorem flat_bare (block : Tree) : flat block.bare = flat block := by
  rw [flat_eq, flat_eq block, statementsOf_bare, List.flatMap_map]
  refine List.flatMap_congr fun s hs => ?_
  rw [token_bare, clauses_bare, List.flatMap_map]
  congr 1
  refine List.flatMap_congr fun c hc => ?_
  rw [Clause.bare, Option.toList_map, List.flatMap_map]
  congr 1
  refine List.flatMap_congr fun inner hinner => ?_
  have := Nat.lt_trans (size_lt_of_mem_clauses hc hinner) (size_lt_of_mem_statementsOf hs)
  exact flat_bare inner
  termination_by block.size

/-! ### Shapes -/

theorem ofFunction?_eq_flat {f body : Tree} (hf : f.child? .body = some body) (parameters : Nat) :
    Shape.ofFunction? f parameters = some
      ⟨Digest.XxHash.digest 0 (Text.encode (stream parameters (flat body))),
        (flat body).length⟩ := by
  rw [ofFunction?_eq hf, tokens_eq_flat]

theorem ofFunction?_bare (f : Tree) (parameters : Nat) :
    Shape.ofFunction? f.bare parameters = Shape.ofFunction? f parameters := by
  cases hf : f.child? .body with
  | none =>
    rw [Shape.ofFunction?, Shape.ofFunction?, Tree.child?_bare, hf]
    rfl
  | some body =>
    have hbare : f.bare.child? .body = some body.bare := by
      rw [Tree.child?_bare, hf, Option.map_some]
    rw [ofFunction?_eq_flat hf, ofFunction?_eq_flat hbare, flat_bare]

theorem bare_eq_of_eqvGen {f g : Tree} (h : Relation.EqvGen Tree.Commented f g) :
    f.bare = g.bare := by
  induction h with
  | rel _ _ h => exact h.bare_eq
  | refl => rfl
  | symm _ _ _ ih => exact ih.symm
  | trans _ _ _ _ _ ih ih' => exact ih.trans ih'

/-- The loop over the body of a function ends. By then it has digested the number of parameters and,
each after a bar, the tokens that recursion over the blocks gives, and it has counted these tokens;
the shape is made of that. The blocks nested in a statement come in the order of the text. So
functions with as many parameters and the same tokens have the same shape, and comments that are put
into blocks or taken out of them do not change it. -/
theorem shape_of_flat_body :
    (∀ (f body : Tree) (parameters : Nat), f.child? .body = some body →
      (∃ steps, Loop.step^[steps] (Loop.start parameters body) =
        ⟨[], stream parameters (flat body), (flat body).length⟩) ∧
      Shape.ofFunction? f parameters = some
        ⟨Digest.XxHash.digest 0 (Text.encode (stream parameters (flat body))),
          (flat body).length⟩) ∧
    (∀ t, OwnBlockFirst t →
      ((clauses t).filterMap Clause.block).Sublist (twoLevels t.children)) ∧
    (∀ (f g a b : Tree) (parameters : Nat), f.child? .body = some a → g.child? .body = some b →
      flat a = flat b → Shape.ofFunction? f parameters = Shape.ofFunction? g parameters) ∧
    ∀ (f g : Tree) (parameters : Nat), Relation.EqvGen Tree.Commented f g →
      Shape.ofFunction? f parameters = Shape.ofFunction? g parameters := by
  refine ⟨fun f body parameters hf => ⟨?_, ofFunction?_eq_flat hf parameters⟩,
    fun t ht => ht.blocks_sublist, fun f g a b parameters hf hg hflat => ?_,
    fun f g parameters h => ?_⟩
  · have hloop := Loop.iterate_step [.block body] s!"params:{parameters}" 0
    refine ⟨_, hloop.trans ?_⟩
    rw [← tokens_eq_flat, stream, Nat.zero_add]
    rfl
  · rw [ofFunction?_eq_flat hf, ofFunction?_eq_flat hg, hflat]
  · rw [← ofFunction?_bare f, ← ofFunction?_bare g, bare_eq_of_eqvGen h]

end Shape

/-! ### A function with clauses -/

namespace Syntax

def againComment : Tree := .span .comment none 42 49 []

def askStatement (start : Nat) : Tree :=
  .span .expressionStatement none start (start + 6) [.span .call none start (start + 6) []]

def guardedStatement (comments : List Tree) : Tree :=
  .span .tryStatement none 14 227
    [.span .block (some .body) 27 64 (askStatement 27 :: (comments ++ [askStatement 58])),
     .span .exceptClause none 69 146
       [.span .identifier none 76 77 [],
        .span .block none 87 146
          [.span .ifStatement none 87 146
            [.span .identifier (some (.other "condition")) 90 91 [],
             .span .block (some .consequence) 105 109 [passStatement 105],
             .span .elifClause (some .alternative) 118 146
               [.span .identifier (some (.other "condition")) 123 124 [],
                .span .block (some .consequence) 138 146
                  [.span .returnStatement none 138 146 [.span .identifier none 145 146 []]]]]]],
     .span .finallyClause none 151 227
       [.span .block none 168 227
         [.span .forStatement none 168 227
           [.span .identifier (some (.other "left")) 172 173 [],
            .span .identifier (some .right) 177 178 [],
            .span .block (some .body) 192 196 [passStatement 192],
            .span .elseClause (some .alternative) 205 227
              [.span .block (some .body) 223 227 [passStatement 223]]]]]]

def guardedBody (comments : List Tree) : Tree :=
  .span .block (some .body) 14 227 [guardedStatement comments]

/-- A function with a try statement, with some comments between its first two statements. -/
def guardedFunction (comments : List Tree) : Tree :=
  .span .functionDefinition none 0 227
    [.span .identifier (some .name) 4 5 [],
     .span .parameters (some .parameters) 5 8 [.span .identifier none 6 7 []],
     guardedBody comments]

theorem flat_guardedBody :
    Shape.flat (guardedBody [againComment]) =
      ["try_1", "call", "call", "except", "if_true", "pass_statement", "elif", "return_value",
        "finally", "for", "pass_statement", "else", "pass_statement"] := by
  decide +kernel

theorem commented_guardedFunction :
    Tree.Commented (guardedFunction []) (guardedFunction [againComment]) :=
  .inside _ [_, _] [] (.inside _ [] [] (.inside _ [] [_, _] (.insert [_] [_] rfl rfl)))

theorem shape_of_flat_body_guardedFunction :
    (guardedFunction [againComment]).child? .body = some (guardedBody [againComment]) ∧
    (∃ steps, Shape.Loop.step^[steps] (Shape.Loop.start 1 (guardedBody [againComment])) =
      ⟨[], "params:1|try_1|call|call|except|if_true|pass_statement|elif|return_value|" ++
        "finally|for|pass_statement|else|pass_statement", 13⟩) ∧
    Shape.OwnBlockFirst (guardedStatement []) ∧
    ((Shape.clauses (guardedStatement [])).filterMap Shape.Clause.block).Sublist
      (Shape.twoLevels (guardedStatement []).children) ∧
    Shape.flat (guardedBody [againComment]) = Shape.flat (guardedBody []) ∧
    Shape.ofFunction? (guardedFunction [againComment]) 1 =
      Shape.ofFunction? (.span .functionDefinition none 0 227 [guardedBody []]) 1 ∧
    Shape.ofFunction? (guardedFunction [againComment]) 1 =
      Shape.ofFunction? (guardedFunction []) 1 := by
  have hordered : Shape.OwnBlockFirst (guardedStatement []) := by decide +kernel
  have hflat : Shape.flat (guardedBody [againComment]) = Shape.flat (guardedBody []) := by
    decide +kernel
  obtain ⟨hshape, hblocks, hsame, hcommented⟩ := Shape.shape_of_flat_body
  refine ⟨rfl, ?_, hordered, hblocks _ hordered, hflat, hsame _ _ _ _ 1 rfl rfl hflat,
    (hcommented _ _ 1 (.rel _ _ commented_guardedFunction)).symm⟩
  obtain ⟨steps, hsteps⟩ := (hshape (guardedFunction [againComment]) _ 1 rfl).1
  rw [flat_guardedBody] at hsteps
  exact ⟨steps, hsteps⟩

end Syntax

end Coupling
