import Coupling.Proofs.Syntax.Places
import Coupling.Proofs.Walk.Counters
import Mathlib.Data.List.Chain

/-!
# The search finds the first fault

The nodes that a search has ahead of it are the end of the preorder that starts at its node. A move
takes the node off that list, together with the nodes below it where it is not faulty. Faulty nodes
are marked from the root down to every fault, so what a move passes over holds none, and the search
ends at the first fault of the tree.
-/

namespace Coupling.Syntax

namespace Focus

/-- A node and the nodes below it. -/
def within (f : Focus) : List Focus := preorderFrom f.above f.tree

theorem within_eq (f : Focus) : f.within = f :: f.below := by
  obtain ⟨⟨label, children⟩, above⟩ := f
  rw [within, preorderFrom, below, Tree.children]

/-! ### The nodes ahead -/

/-- The nodes after those of a subtree, given the way to it. -/
def laterNodes : List (Tree × Nat) → List Focus
  | [] => []
  | (parent, index) :: above =>
    preorderAll above parent (index + 1) (parent.children.drop (index + 1)) ++ laterNodes above

def nodesAhead (f : Focus) : List Focus := f.within ++ laterNodes f.above

theorem nodesAhead_root (t : Tree) : (root t).nodesAhead = t.preorder := List.append_nil _

theorem nodesAhead_firstChild? {f g : Focus} (h : f.firstChild? = some g) :
    g.nodesAhead = f.below ++ laterNodes f.above := by
  obtain ⟨habove, rest, hchildren⟩ := children_of_firstChild? h
  rw [nodesAhead, within, habove, laterNodes, below, hchildren, preorderAll, List.drop_succ_cons,
    List.drop_zero, List.append_assoc]

theorem below_of_firstChild?_none {f : Focus} (h : f.firstChild? = none) : f.below = [] := by
  rw [below, children_of_firstChild?_none h, preorderAll]

theorem nodesAhead_nextSibling? {f g : Focus} (h : f.nextSibling? = some g) :
    g.nodesAhead = laterNodes f.above := by
  obtain ⟨parent, index, above, habove, habove', hdrop⟩ := above_of_nextSibling? h
  rw [nodesAhead, within, habove, habove', laterNodes, laterNodes, hdrop, preorderAll,
    List.append_assoc]

theorem laterNodes_of_nextSibling?_none {f g : Focus} (h : f.nextSibling? = none)
    (hparent : f.enclosing? = some g) : laterNodes f.above = laterNodes g.above := by
  obtain ⟨index, habove, hdrop⟩ := above_of_last h hparent
  rw [habove, laterNodes, hdrop, preorderAll, List.nil_append]

theorem laterNodes_eq_onward? (f : Focus) :
    laterNodes f.above = f.onward?.elim [] nodesAhead := by
  fun_induction onward? f with
  | case1 f sibling hsibling => exact (nodesAhead_nextSibling? hsibling).symm
  | case2 f hsibling parent hparent ih =>
    rw [laterNodes_of_nextSibling?_none hsibling hparent, ih]
  | case3 f _ hparent => rw [above_of_enclosing?_none hparent, laterNodes, Option.elim_none]

/-- The nodes below a node that the search passes over. -/
def passed (f : Focus) : List Focus := if f.tree.label.faulty then [] else f.below

/-- A move takes the node off the list, and what is passed over. -/
theorem nodesAhead_eq (f : Focus) :
    f.nodesAhead = f :: (f.passed ++ f.next?.elim [] nodesAhead) := by
  rw [nodesAhead, within_eq, List.cons_append, passed, next?]
  by_cases hfaulty : f.tree.label.faulty = true
  · rw [if_pos hfaulty, if_pos hfaulty, List.nil_append]
    cases hchild : f.firstChild? with
    | some g => rw [← nodesAhead_firstChild? hchild, Option.elim_some]
    | none => rw [below_of_firstChild?_none hchild, laterNodes_eq_onward?, List.nil_append]
  · rw [if_neg hfaulty, if_neg hfaulty, laterNodes_eq_onward?]

/-! ### The search -/

theorem mem_nodesAhead_of_firstFault? {f g : Focus} (h : f.firstFault? = some g) :
    g ∈ f.nodesAhead := by
  fun_induction firstFault? f with
  | case1 f _ =>
    obtain rfl := Option.some.inj h
    rw [nodesAhead_eq]
    exact List.mem_cons_self
  | case2 f _ next hnext ih =>
    rw [nodesAhead_eq, hnext]
    exact List.mem_cons_of_mem _ (List.mem_append_right _ (ih h))
  | case3 => simp at h

/-- A node that is not itself a fault is faulty if one is below it. -/
def Marked (f : Focus) : Prop := f.isFault = false → ∀ g ∈ f.below, g.isFault → f.tree.label.faulty

theorem Marked.not_isFault_of_mem_passed {f g : Focus} (h : f.Marked) (hf : f.isFault = false)
    (hg : g ∈ f.passed) : ¬ g.isFault := by
  intro hfault
  unfold passed at hg
  split at hg
  · simp at hg
  · rename_i hfaulty
    exact hfaulty (h hf g hg hfault)

theorem firstFault?_eq_find? {f : Focus} (h : ∀ g ∈ f.nodesAhead, g.Marked) :
    f.firstFault? = f.nodesAhead.find? isFault := by
  have hpassed : ∀ f : Focus, f.Marked → ¬ f.isFault → f.passed.find? isFault = none :=
    fun f hmarked hf => List.find?_eq_none.mpr fun g hg =>
      hmarked.not_isFault_of_mem_passed (Bool.eq_false_iff.mpr hf) hg
  fun_induction firstFault? f with
  | case1 f hf => rw [nodesAhead_eq, List.find?_cons_of_pos hf]
  | case2 f hf next hnext ih =>
    rw [nodesAhead_eq, hnext, Option.elim_some] at h ⊢
    rw [List.find?_cons_of_neg hf, List.find?_append, hpassed f (h f List.mem_cons_self) hf,
      Option.none_or]
    exact ih fun g hg => h g (List.mem_cons_of_mem _ (List.mem_append_right _ hg))
  | case3 f hf hnext =>
    rw [nodesAhead_eq, hnext, Option.elim_none, List.append_nil] at h ⊢
    rw [List.find?_cons_of_neg hf, hpassed f (h f List.mem_cons_self) hf]

/-- The nodes at which a search looks, from its first to the one where it ends. -/
structure IsTrail (f : Focus) (trail : List Focus) : Prop where
  first : trail.head? = some f
  moves : trail.IsChain fun g h => g.isFault = false ∧ g.next? = some h
  ends : ∀ g, trail.getLast? = some g → g.isFault ∨ g.next? = none

/-- A search looks at some of the nodes ahead, in their order. -/
theorem exists_isTrail (f : Focus) : ∃ trail, f.IsTrail trail ∧ trail.Sublist f.nodesAhead := by
  fun_induction firstFault? f with
  | case1 f hf =>
    refine ⟨[f], ⟨rfl, .singleton f, ?_⟩, ?_⟩
    · rintro g ⟨⟩
      exact .inl hf
    · rw [nodesAhead_eq]
      exact .cons_cons f (List.nil_sublist _)
  | case2 f hf next hnext ih =>
    obtain ⟨trail, htrail, hsublist⟩ := ih
    obtain ⟨rest, rfl⟩ := List.head?_eq_some_iff.mp htrail.first
    refine ⟨f :: next :: rest, ⟨rfl, .cons_cons ⟨Bool.eq_false_iff.mpr hf, hnext⟩ htrail.moves, ?_⟩,
      ?_⟩
    · intro g hg
      exact htrail.ends g (by simpa using hg)
    · rw [nodesAhead_eq, hnext]
      exact .cons_cons f (hsublist.trans (List.sublist_append_right _ _))
  | case3 f hf hnext =>
    refine ⟨[f], ⟨rfl, .singleton f, ?_⟩, ?_⟩
    · rintro g ⟨⟩
      exact .inr hnext
    · rw [nodesAhead_eq]
      exact .cons_cons f (List.nil_sublist _)

/-- A search looks at no node twice, as fewer nodes are ahead after each move. -/
theorem IsTrail.nodup {f : Focus} {trail : List Focus} (h : f.IsTrail trail) : trail.Nodup := by
  have hfewer : trail.IsChain fun g h => h.ahead < g.ahead :=
    h.moves.imp fun _ _ hmove => ahead_next? hmove.2
  have : IsTrans Focus fun g h => h.ahead < g.ahead := ⟨fun _ _ _ hlt hlt' => Nat.lt_trans hlt' hlt⟩
  exact (List.isChain_iff_pairwise.mp hfewer).imp fun hlt => by
    rintro rfl
    exact Nat.lt_irrefl _ hlt

end Focus

/-! ### Documents with faults -/

/-- Wherever a fault is at a node or below it, the node is faulty; of a node below the root that is
itself a fault nothing is asked. -/
def Tree.FaultsMarked (t : Tree) : Prop :=
  ∀ f ∈ t.preorder, (∃ g ∈ f.within, g.isFault) → f.tree.label.faulty ∨ f.isFault ∧ f.above ≠ []

theorem Tree.FaultsMarked.marked {t : Tree} (h : t.FaultsMarked) {f : Focus}
    (hf : f ∈ t.preorder) : f.Marked := by
  intro hclean g hg hfault
  have hwithin : g ∈ f.within := by
    rw [Focus.within_eq]
    exact List.mem_cons_of_mem _ hg
  rcases h f hf ⟨g, hwithin, hfault⟩ with hfaulty | ⟨hself, _⟩
  · exact hfaulty
  · simp [hclean] at hself

/-- A tree whose root is not faulty has no fault, and need not be searched. -/
theorem Tree.FaultsMarked.search_eq_find? {t : Tree} (h : t.FaultsMarked) :
    (if t.label.faulty then (Focus.root t).firstFault? else none) =
      t.preorder.find? Focus.isFault := by
  split
  · rw [Focus.firstFault?_eq_find?, Focus.nodesAhead_root]
    intro f hf
    exact h.marked (Focus.nodesAhead_root t ▸ hf)
  · rename_i hfaulty
    have hroot : Focus.root t ∈ t.preorder := by
      cases t
      rw [Tree.preorder, preorderFrom]
      exact List.mem_cons_self
    refine (List.find?_eq_none.mpr fun f hf hfault => ?_).symm
    rcases h _ hroot ⟨f, hf, hfault⟩ with hmarked | ⟨_, hbelow⟩
    · exact hfaulty hmarked
    · exact hbelow rfl

/-- A text with a tree has a source unless there is a fault; then the finding is at the first. -/
theorem Source.ofDocument_of_faultsMarked {t : Tree} (h : t.FaultsMarked) (path : String)
    (cs : List Char) :
    Source.ofDocument path ⟨cs.flatMap String.utf8EncodeChar, some t⟩ =
      match t.preorder.find? Focus.isFault with
      | some f => .error (syntaxFinding path ((SourceText.ofChars cs).placeOf f.tree)
          (faultText (.ofChars cs) f.tree))
      | none => .ok ⟨path, .ofChars cs, t⟩ := by
  have hdecoded : Text.decodePrefix (cs.flatMap String.utf8EncodeChar) = (cs, []) := by
    have hall := Text.decodePrefix_append cs []
    rw [List.append_nil] at hall
    rw [hall]
    simp [Text.decodePrefix, Text.decodeFrom]
  cases hfound : t.preorder.find? Focus.isFault with
  | some f => simp only [Source.ofDocument, hdecoded, h.search_eq_find?, hfound]
  | none => simp only [Source.ofDocument, hdecoded, h.search_eq_find?, hfound]

/-- The search looks at nodes in preorder and at none twice, and ends at the first fault of the
tree. So a text has a source exactly if its tree has no fault; otherwise its analysis is one
finding, at the place where the first fault starts. -/
theorem first_fault_found (t : Tree) (hmarked : t.FaultsMarked) :
    (∃ trail, (Focus.root t).IsTrail trail ∧ trail.Sublist t.preorder ∧ trail.Nodup) ∧
    (Focus.root t).firstFault? = t.preorder.find? Focus.isFault ∧
    ∀ path bytes, Text.IsText bytes →
      ((∃ source, Source.ofDocument path ⟨bytes, some t⟩ = .ok source) ↔
        ∀ f ∈ t.preorder, ¬ f.isFault) ∧
      ∀ f, t.preorder.find? Focus.isFault = some f →
        ∃ v, Source.ofDocument path ⟨bytes, some t⟩ = .error v ∧
          (∀ l, Document.analyze l path ⟨bytes, some t⟩ = .ok [v]) ∧
          v.kind = .parseError ∧ v.path = path ∧
          v.place = Text.placeAt bytes f.tree.label.start := by
  refine ⟨?_, ?_, fun path bytes htext => ?_⟩
  · obtain ⟨trail, htrail, hsublist⟩ := (Focus.root t).exists_isTrail
    exact ⟨trail, htrail, Focus.nodesAhead_root t ▸ hsublist, htrail.nodup⟩
  · rw [Focus.firstFault?_eq_find?, Focus.nodesAhead_root]
    intro f hf
    exact hmarked.marked (Focus.nodesAhead_root t ▸ hf)
  · obtain ⟨cs, rfl⟩ := Text.isText_iff.mp htext
    have hdocument := Source.ofDocument_of_faultsMarked hmarked path cs
    constructor
    · rw [hdocument, ← List.find?_eq_none]
      cases t.preorder.find? Focus.isFault with
      | none => simp
      | some f => simp
    · intro f hf
      rw [hf] at hdocument
      refine ⟨_, hdocument, fun l => ?_, rfl, rfl, SourceText.place_ofChars cs f.tree.label.start⟩
      rw [Document.analyze, hdocument]

/-- A node with marks for a fault below it. -/
private def faultyNode (kind : NodeKind) (field : Option Field) (start stop : Nat)
    (children : List Tree) : Tree :=
  .node ⟨kind, field, true, false, false, true, start, stop⟩ children

private def clearToken (text : String) (start stop : Nat) : Tree :=
  .node ⟨.other text, none, false, false, false, false, start, stop⟩ []

/-- A statement, then a function whose parameters are not closed. -/
def unclosedParameters : Tree :=
  faultyNode (.other "module") none 0 28
    [.span .expressionStatement none 0 5
       [.span .assignment none 0 5
         [.span .identifier none 0 1 [], clearToken "=" 2 3, .span .integer none 4 5 []]],
     faultyNode .functionDefinition none 6 27
       [clearToken "def" 6 9, .span .identifier (some .name) 10 16 [],
        faultyNode .parameters (some .parameters) 16 17
          [clearToken "(" 16 17,
           .node ⟨.other ")", none, false, false, true, true, 17, 17⟩ []],
        clearToken ":" 17 18,
        .span .block (some .body) 23 27
          [.span (.other "pass_statement") none 23 27 [clearToken "pass" 23 27]]]]

theorem first_fault_found_unclosedParameters :
    unclosedParameters.FaultsMarked ∧ ∃ v,
      Source.ofDocument "mod.py"
        ⟨Text.encode "x = 1\ndef broken(:\n    pass\n", some unclosedParameters⟩ = .error v ∧
      v.kind = .parseError ∧ v.place = ⟨2, 11⟩ := by
  have hmarked : unclosedParameters.FaultsMarked := by
    unfold Tree.FaultsMarked
    decide +kernel
  have hstart : (unclosedParameters.preorder.find? Focus.isFault).map (·.tree.label.start) =
      some 17 := by
    decide +kernel
  obtain ⟨f, hf, hstart⟩ := Option.map_eq_some_iff.mp hstart
  obtain ⟨_, _, hdocument⟩ := first_fault_found unclosedParameters hmarked
  obtain ⟨v, hv, _, hkind, _, hplace⟩ := (hdocument "mod.py" _ ⟨_, rfl⟩).2 f hf
  refine ⟨hmarked, v, hv, hkind, hplace.trans ?_⟩
  rw [hstart]
  decide +kernel

end Coupling.Syntax
