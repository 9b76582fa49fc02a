import Coupling.Proofs.Function.Outline

/-!
# Skeletons of function bodies

What is nested in a statement is told by the kinds of the nodes below it: there are blocks, by
themselves or in clauses, and statements in the blocks. The skeleton of a body is made by this rule
alone. In a body that follows the grammar, the blocks that go into the shape are the blocks of the
skeleton, unless there is a match statement: its cases belong to the skeleton and not to the shape.
-/

namespace Coupling.Shape

open Syntax

/-! ### Skeletons -/

/-- The word by which a clause is known. -/
def marker? : NodeKind → Option String
  | .elifClause => some "elif"
  | .elseClause => some "else"
  | .exceptClause | .exceptGroupClause => some "except"
  | .finallyClause => some "finally"
  | _ => none

/-- Branches, loops, try statements, with statements, and match statements with their cases. A
definition in a body has a body of its own. -/
def isCompound : NodeKind → Bool
  | .ifStatement | .forStatement | .whileStatement | .tryStatement | .withStatement
  | .matchStatement | .caseClause => true
  | _ => false

mutual

/-- A statement with all that is nested in it. -/
def sketch : Tree → Outline
  | .node label children =>
    .node (token (.node label children)) (if isCompound label.kind then inside children else [])

/-- What is nested in some nodes. -/
def inside : List Tree → List Outline
  | [] => []
  | t :: rest => insideOf t ++ inside rest

def insideOf : Tree → List Outline
  | .node label children =>
    if label.kind = .block then sketches children
    else
      match marker? label.kind with
      | some marker => [.node marker (inside children)]
      | none => inside children

/-- The statements among the children of a block. -/
def sketches : List Tree → List Outline
  | [] => []
  | t :: rest =>
    if t.label.named && t.kind != .comment then sketch t :: sketches rest else sketches rest

end

/-- The statements of a body with all that is nested in them. -/
def skeleton (body : Tree) : List Outline := sketches body.children

theorem sketch_eq (t : Tree) :
    sketch t = .node (token t) (if isCompound t.kind then inside t.children else []) := by
  cases t
  rw [sketch]
  rfl

theorem inside_eq (ts : List Tree) : inside ts = ts.flatMap insideOf := by
  induction ts with
  | nil => rw [inside, List.flatMap_nil]
  | cons t rest ih => rw [inside, ih, List.flatMap_cons]

theorem skeleton_eq (block : Tree) : skeleton block = (statementsOf block).map sketch := by
  rw [skeleton, statementsOf, Tree.namedChildren]
  induction block.children with
  | nil => rw [sketches]; rfl
  | cons t rest ih =>
    rw [sketches, ih]
    by_cases hnamed : t.label.named = true <;> by_cases hcomment : t.kind = .comment <;>
      simp [hnamed, hcomment]

theorem insideOf_block {t : Tree} (h : t.kind = .block) : insideOf t = skeleton t := by
  obtain ⟨label, children⟩ := t
  have hkind : label.kind = .block := h
  rw [insideOf, if_pos hkind]
  rfl

theorem insideOf_clause {t : Tree} {marker : String} (h : marker? t.kind = some marker) :
    insideOf t = [.node marker (inside t.children)] := by
  obtain ⟨label, children⟩ := t
  have hkind : label.kind ≠ .block := by
    intro hblock
    simp [Tree.kind, Tree.label, hblock, marker?] at h
  have hmarker : marker? label.kind = some marker := h
  rw [insideOf, if_neg hkind, hmarker]
  rfl

/-! ### The grammar of statements -/

/-- The node has a block in a certain place, and nothing else is nested in it. -/
structure OneBlock (own : Tree → Bool) (t : Tree) : Prop where
  one : (t.children.filter own).length = 1
  block : ∀ c ∈ t.children, own c = true → c.kind = .block
  bare : ∀ c ∈ t.children, own c = false → insideOf c = []

/-- The statement has a block in a field, and after the block come clauses of a certain form. -/
structure Compound (own : Field) (clause : Tree → Bool) (t : Tree) : Prop where
  one : (t.childrenAt own).length = 1
  block : ∀ c ∈ t.children, c.field = some own → c.kind = .block ∧ clause c = false
  bare : ∀ c ∈ t.children, c.field ≠ some own → clause c = false → insideOf c = []
  first : t.children.Pairwise fun c later => later.field = some own → insideOf c = []

def inField (f : Field) (t : Tree) : Bool := t.field == some f

/-- A clause of a try statement. -/
def isHandling (t : Tree) : Bool :=
  t.label.named && t.kind != .elifClause && (marker? t.kind).isSome

def isNamedBlock (t : Tree) : Bool := t.label.named && decide (t.kind = .block)

/-- A statement has its blocks and clauses in the fields that the grammar has for them. -/
structure Grammatical (t : Tree) : Prop where
  branches : t.kind = .ifStatement → Compound .consequence (inField .alternative) t ∧
    ∀ c ∈ t.childrenAt .alternative,
      c.kind = .elifClause ∧ OneBlock (inField .consequence) c ∨
        c.kind = .elseClause ∧ OneBlock (inField .body) c
  loop : t.kind = .forStatement ∨ t.kind = .whileStatement →
    Compound .body (inField .alternative) t ∧ (t.childrenAt .alternative).length ≤ 1 ∧
      ∀ c ∈ t.childrenAt .alternative, c.kind = .elseClause ∧ OneBlock (inField .body) c
  handlers : t.kind = .tryStatement → Compound .body isHandling t ∧
    ∀ c ∈ t.children, isHandling c = true → OneBlock isNamedBlock c
  managers : t.kind = .withStatement → Compound .body (fun _ => false) t

/-- Code that follows the grammar and has no match statement. -/
def Ordinary (t : Tree) : Prop :=
  ∀ u, Within t u → Grammatical u ∧ u.kind ≠ .matchStatement ∧ u.kind ≠ .caseClause

section Decidable

variable (own : Tree → Bool) (field : Field) (clause : Tree → Bool) (t : Tree)

instance : Decidable (OneBlock own t) :=
  decidable_of_iff (_ ∧ _ ∧ _) ⟨fun ⟨h, h', h''⟩ => ⟨h, h', h''⟩, fun ⟨h, h', h''⟩ => ⟨h, h', h''⟩⟩

instance : Decidable (Compound field clause t) :=
  decidable_of_iff (_ ∧ _ ∧ _ ∧ _)
    ⟨fun ⟨h₁, h₂, h₃, h₄⟩ => ⟨h₁, h₂, h₃, h₄⟩, fun ⟨h₁, h₂, h₃, h₄⟩ => ⟨h₁, h₂, h₃, h₄⟩⟩

instance : Decidable (Grammatical t) :=
  decidable_of_iff (_ ∧ _ ∧ _ ∧ _)
    ⟨fun ⟨h₁, h₂, h₃, h₄⟩ => ⟨h₁, h₂, h₃, h₄⟩, fun ⟨h₁, h₂, h₃, h₄⟩ => ⟨h₁, h₂, h₃, h₄⟩⟩

end Decidable

/-! ### Blocks of a statement -/

theorem flatMap_insideOf_filter {ts : List Tree} {p : Tree → Bool}
    (h : ∀ t ∈ ts, p t = false → insideOf t = []) :
    ts.flatMap insideOf = (ts.filter p).flatMap insideOf := by
  induction ts with
  | nil => rfl
  | cons t rest ih =>
    rw [List.forall_mem_cons] at h
    rw [List.flatMap_cons, ih h.2, List.filter_cons]
    cases hp : p t with
    | true => rfl
    | false => rw [h.1 hp]; rfl

theorem OneBlock.exists_block {own : Tree → Bool} {t : Tree} (h : OneBlock own t) :
    ∃ block, t.children.find? own = some block ∧
      inside t.children = (statementsOf block).map sketch := by
  obtain ⟨block, hblock⟩ := List.length_eq_one_iff.mp h.one
  have hmem : block ∈ t.children.filter own := hblock ▸ List.mem_singleton_self block
  rw [List.mem_filter] at hmem
  refine ⟨block, ?_, ?_⟩
  · rw [← List.head?_filter, hblock, List.head?_cons]
  · rw [inside_eq, flatMap_insideOf_filter h.bare, hblock, List.flatMap_singleton,
      insideOf_block (h.block block hmem.1 hmem.2), skeleton_eq]

theorem Compound.exists_block {own : Field} {clause : Tree → Bool} {t : Tree}
    (h : Compound own clause t) :
    ∃ block, t.child? own = some block ∧ inside t.children =
      (statementsOf block).map sketch ++ (t.children.filter clause).flatMap insideOf := by
  obtain ⟨block, hone⟩ := List.length_eq_one_iff.mp h.one
  have hfound : t.child? own = some block := by
    rw [Tree.child?, ← List.head?_filter]
    exact congrArg List.head? hone
  obtain ⟨hown, before, after, hchildren, -⟩ := List.find?_eq_some_iff_append.mp hfound
  have hfield : block.field = some own := by simpa using hown
  obtain ⟨hkind, hclause⟩ := h.block block (Tree.mem_children_of_child? hfound) hfield
  have hbefore : ∀ c ∈ before, insideOf c = [] := by
    have hfirst := h.first
    rw [hchildren, List.pairwise_append] at hfirst
    exact fun c hc => hfirst.2.2 c hc block List.mem_cons_self hfield
  have hafter : ∀ c ∈ after, clause c = false → insideOf c = [] := by
    intro c hc
    refine h.bare c (by simp [hchildren, hc]) fun hc' => ?_
    have hlength := h.one
    rw [Tree.childrenAt, hchildren, List.filter_append, List.filter_cons, if_pos hown,
      List.length_append, List.length_cons] at hlength
    have hnone : after.filter (·.field == some own) = [] := by
      rw [← List.length_eq_zero_iff]
      omega
    exact List.filter_eq_nil_iff.mp hnone c hc (by simpa using hc')
  refine ⟨block, hfound, ?_⟩
  rw [inside_eq, hchildren, List.filter_append, List.filter_cons_of_neg (by simp [hclause]),
    List.flatMap_append, List.flatMap_append, List.flatMap_cons, insideOf_block hkind, skeleton_eq,
    List.flatMap_eq_nil_iff.mpr hbefore, flatMap_insideOf_filter hafter,
    List.flatMap_eq_nil_iff.mpr fun c hc => hbefore c (List.mem_filter.mp hc).1]
  rfl

/-- What the clauses of a statement hold, in the blocks that go into the shape. -/
def clauseOutlines (t : Tree) : List Outline :=
  (clauses t).flatMap fun c => c.wrap (c.statements.map sketch)

theorem OneBlock.insideOf_eq {own : Tree → Bool} {t : Tree} (h : OneBlock own t) {marker : String}
    (hmarker : marker? t.kind = some marker) :
    insideOf t = (⟨some marker, t.children.find? own⟩ : Clause).wrap
      ((⟨some marker, t.children.find? own⟩ : Clause).statements.map sketch) := by
  obtain ⟨block, hblock, hinside⟩ := h.exists_block
  rw [insideOf_clause hmarker, hinside, hblock]
  simp [Clause.wrap, Clause.statements]

theorem wrap_own (block : Tree) :
    (⟨none, some block⟩ : Clause).wrap ((⟨none, some block⟩ : Clause).statements.map sketch) =
      (statementsOf block).map sketch := by
  simp [Clause.wrap, Clause.statements]

theorem clauseMarker?_eq (c : Tree) :
    clauseMarker? c = if c.kind = .elifClause then none else marker? c.kind := by
  unfold clauseMarker? marker?
  cases c.kind <;> rfl

theorem isHandling_iff {c : Tree} :
    isHandling c = true ↔ c.label.named = true ∧ ∃ marker, clauseMarker? c = some marker := by
  rw [clauseMarker?_eq, isHandling]
  by_cases helif : c.kind = .elifClause <;> simp [helif, Option.isSome_iff_exists]

/-- The clauses of a try statement, by their kinds and by their markers. -/
theorem flatMap_isHandling {cs : List Tree}
    (h : ∀ c ∈ cs, isHandling c = true → OneBlock isNamedBlock c) :
    (cs.filter isHandling).flatMap insideOf =
      ((cs.filter (·.label.named)).filterMap fun c => (clauseMarker? c).map fun marker =>
        (⟨some marker, c.namedChildren.find? (·.kind == .block)⟩ : Clause)).flatMap fun c =>
          c.wrap (c.statements.map sketch) := by
  rw [List.filterMap_filter]
  induction cs with
  | nil => rfl
  | cons c rest ih =>
    rw [List.forall_mem_cons] at h
    rw [List.filter_cons, List.filterMap_cons]
    by_cases hhandles : isHandling c = true
    · obtain ⟨hnamed, marker, hmarker⟩ := isHandling_iff.mp hhandles
      have hkind : marker? c.kind = some marker := by
        rw [clauseMarker?_eq] at hmarker
        split at hmarker
        · simp at hmarker
        · exact hmarker
      have hblock : c.namedChildren.find? (·.kind == .block) = c.children.find? isNamedBlock := by
        rw [Tree.namedChildren, List.find?_filter]
        refine congrArg (List.find? · c.children) (funext fun x => ?_)
        simp [isNamedBlock]
      rw [if_pos hhandles, if_pos hnamed, hmarker, Option.map_some, List.flatMap_cons,
        List.flatMap_cons, ih h.2, (h.1 hhandles).insideOf_eq hkind, hblock]
    · have hnone : (if c.label.named = true then (clauseMarker? c).map fun marker =>
          (⟨some marker, c.namedChildren.find? (·.kind == .block)⟩ : Clause) else none) = none := by
        rw [isHandling_iff, not_and, not_exists] at hhandles
        split
        · rename_i hnamed
          rw [Option.eq_none_iff_forall_ne_some.mpr (hhandles hnamed), Option.map_none]
        · rfl
      rw [if_neg hhandles, hnone, ih h.2]

/-! ### Skeletons and shapes -/

namespace Grammatical

variable {t : Tree}

theorem inside_of_branches (h : Grammatical t) (hkind : t.kind = .ifStatement) :
    inside t.children = clauseOutlines t := by
  obtain ⟨hcompound, hclauses⟩ := h.branches hkind
  obtain ⟨block, hblock, hinside⟩ := hcompound.exists_block
  rw [hinside, clauseOutlines, clauses, hkind]
  dsimp only
  rw [List.flatMap_cons, hblock, wrap_own, List.flatMap_map]
  congr 1
  refine List.flatMap_congr fun c hc => ?_
  rcases hclauses c hc with ⟨helif, hone⟩ | ⟨helse, hone⟩
  · rw [if_pos helif]
    exact hone.insideOf_eq (by rw [helif]; rfl)
  · rw [if_neg (by simp [helse])]
    exact hone.insideOf_eq (by rw [helse]; rfl)

theorem inside_of_loop (h : Grammatical t)
    (hkind : t.kind = .forStatement ∨ t.kind = .whileStatement) :
    inside t.children = clauseOutlines t := by
  obtain ⟨hcompound, hfew, hclauses⟩ := h.loop hkind
  obtain ⟨block, hblock, hinside⟩ := hcompound.exists_block
  have halternative : (t.child? .alternative).toList = t.childrenAt .alternative := by
    rw [Tree.child?, ← List.head?_filter]
    change (t.childrenAt .alternative).head?.toList = _
    cases hat : t.childrenAt .alternative with
    | nil => rfl
    | cons c rest =>
      rw [hat, List.length_cons] at hfew
      obtain rfl : rest = [] := List.length_eq_zero_iff.mp (by omega)
      rfl
  have hloop : clauseOutlines t = ((⟨none, t.child? .body⟩ : Clause) ::
      (t.child? .alternative).toList.map fun a => ⟨some "else", a.child? .body⟩).flatMap
        fun c => c.wrap (c.statements.map sketch) := by
    rw [clauseOutlines, clauses]
    rcases hkind with hkind | hkind <;> rw [hkind]
  rw [hinside, hloop, List.flatMap_cons, hblock, wrap_own, List.flatMap_map, halternative]
  congr 1
  refine List.flatMap_congr fun c hc => ?_
  obtain ⟨helse, hone⟩ := hclauses c hc
  exact hone.insideOf_eq (by rw [helse]; rfl)

theorem inside_of_handlers (h : Grammatical t) (hkind : t.kind = .tryStatement) :
    inside t.children = clauseOutlines t := by
  obtain ⟨hcompound, hclauses⟩ := h.handlers hkind
  obtain ⟨block, hblock, hinside⟩ := hcompound.exists_block
  rw [hinside, clauseOutlines, clauses, hkind]
  dsimp only
  rw [List.flatMap_cons, hblock, wrap_own, flatMap_isHandling hclauses]
  rfl

theorem inside_of_managers (h : Grammatical t) (hkind : t.kind = .withStatement) :
    inside t.children = clauseOutlines t := by
  obtain ⟨block, hblock, hinside⟩ := (h.managers hkind).exists_block
  rw [hinside, clauseOutlines, clauses, hkind]
  dsimp only
  rw [List.flatMap_singleton, hblock, wrap_own]
  simp

/-- The blocks of the skeleton are those that go into the shape. -/
theorem inside_eq_clauseOutlines (h : Grammatical t) (hmatch : t.kind ≠ .matchStatement)
    (hcase : t.kind ≠ .caseClause) :
    (if isCompound t.kind then inside t.children else []) = clauseOutlines t := by
  have hnone : isCompound t.kind = false → clauseOutlines t = [] := by
    unfold clauseOutlines clauses
    generalize t.kind = kind
    intro hplain
    cases kind <;> first | rfl | simp [isCompound] at hplain
  cases hcompound : isCompound t.kind with
  | false => exact (hnone hcompound).symm
  | true =>
    rw [if_pos rfl]
    unfold isCompound at hcompound
    split at hcompound
    · exact h.inside_of_branches (by assumption)
    · exact h.inside_of_loop (.inl (by assumption))
    · exact h.inside_of_loop (.inr (by assumption))
    · exact h.inside_of_handlers (by assumption)
    · exact h.inside_of_managers (by assumption)
    · exact absurd (by assumption) hmatch
    · exact absurd (by assumption) hcase
    · simp at hcompound

end Grammatical

theorem sketch_eq_outline {t : Tree} (h : Ordinary t) : sketch t = outline t := by
  obtain ⟨hgrammar, hmatch, hcase⟩ := h t .refl
  rw [sketch_eq, outline_eq, hgrammar.inside_eq_clauseOutlines hmatch hcase, clauseOutlines]
  congr 1
  refine List.flatMap_congr fun c hc => ?_
  congr 1
  refine List.map_congr_left fun s hs => ?_
  have hsize := size_lt_of_mem_statements hc hs
  obtain ⟨block, hblock, hs⟩ := List.mem_flatMap.mp hs
  have hchild := mem_children_of_mem_statementsOf hs
  have hbelow := (below_of_mem_clauses hc).block block (Option.mem_toList.mp hblock)
  exact sketch_eq_outline fun u hu => h u ((hbelow.tail hchild).trans hu)
  termination_by t.size

/-- In ordinary code, skeletons are the outlines that shapes are made of. -/
theorem skeleton_eq_outlines {body : Tree} (h : Ordinary body) : skeleton body = outlines body := by
  rw [skeleton_eq, outlines]
  refine List.map_congr_left fun s hs => sketch_eq_outline fun u hu => ?_
  exact h u (.head (mem_children_of_mem_statementsOf hs) hu)

end Coupling.Shape
