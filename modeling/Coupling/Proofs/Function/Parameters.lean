import Coupling.Function.Signature
import Coupling.Proofs.Walk.Events
import Mathlib.Data.List.DropRight

/-!
# Kinds of parameters

The kind of a parameter is a matter of the node that declares it and of the nodes before it: a plain
parameter is positional up to the first star. The rules are stated here on the nodes. A pass over
the nodes keeps only whether there was a star, which is all that the rules ask of the nodes before.
-/

namespace Coupling

namespace Text

theorem trim_eq_nil_iff {cs : List Char} : trim cs = [] ↔ ∀ c ∈ cs, isBlank c = true := by
  calc trim cs = [] ↔ ∀ c ∈ trimStart cs, isBlank c = true := by
        simp only [trim, dropWhileEnd, List.reverse_eq_nil_iff, List.dropWhile_eq_nil_iff,
          List.mem_reverse]
    _ ↔ trimStart (trimStart cs) = [] := List.dropWhile_eq_nil_iff.symm
    _ ↔ trimStart cs = [] := by rw [trimStart, trimStart, List.dropWhile_idempotent]
    _ ↔ ∀ c ∈ cs, isBlank c = true := List.dropWhile_eq_nil_iff

end Text

namespace Parameter

open Syntax

/-! ### The rules -/

/-- Something besides blanks stands after the stars at the front of a text. -/
def HasName (text : String) : Prop :=
  ∃ stars rest, text.toList = stars ++ rest ∧ (∀ c ∈ stars, c = '*') ∧ rest.head? ≠ some '*' ∧
    ∃ c ∈ rest, Text.isBlank c = false

/-- Plain parameters after the node can be given by name only. -/
inductive EndsPositional (t : Tree) : Prop where
  | separator (hkind : t.kind = .keywordSeparator)
  | listSplat (hkind : t.kind = .listSplatPattern)
  | typedListSplat (inner : Tree) (hkind : t.kind = .typedParameter)
      (hinner : t.namedChildren.head? = some inner) (hsplat : inner.kind = .listSplatPattern)

/-- The node declares a parameter without stars. -/
inductive IsPlain (t : Tree) : Prop where
  | untyped (hkind : t.kind = .identifier)
  | typed (inner : Tree) (hkind : t.kind = .typedParameter)
      (hinner : t.namedChildren.head? = some inner) (hlist : inner.kind ≠ .listSplatPattern)
      (hdictionary : inner.kind ≠ .dictionarySplatPattern)
  | withDefault (name : Tree)
      (hkind : t.kind = .defaultParameter ∨ t.kind = .typedDefaultParameter)
      (hname : t.child? .name = some name)

/-- The node declares a parameter with one star. -/
inductive IsListSplat (text : SourceText) (t : Tree) : Prop where
  | untyped (hkind : t.kind = .listSplatPattern) (hname : HasName (text.text t))
  | typed (inner : Tree) (hkind : t.kind = .typedParameter)
      (hinner : t.namedChildren.head? = some inner) (hsplat : inner.kind = .listSplatPattern)

/-- The node declares a parameter with two stars. -/
inductive IsDictionarySplat (t : Tree) : Prop where
  | untyped (hkind : t.kind = .dictionarySplatPattern)
  | typed (inner : Tree) (hkind : t.kind = .typedParameter)
      (hinner : t.namedChildren.head? = some inner) (hsplat : inner.kind = .dictionarySplatPattern)

/-- The kind of the parameter that a node declares after some others. -/
inductive HasKind (text : SourceText) (before : List Tree) (t : Tree) : ParameterKind → Prop where
  | positional (hplain : IsPlain t) (hbefore : ∀ u ∈ before, ¬ EndsPositional u) :
      HasKind text before t .positional
  | keywordOnly (u : Tree) (hplain : IsPlain t) (hu : u ∈ before) (hends : EndsPositional u) :
      HasKind text before t .keywordOnly
  | varPositional (hsplat : IsListSplat text t) : HasKind text before t .varPositional
  | varKeyword (hsplat : IsDictionarySplat t) : HasKind text before t .varKeyword

/-! ### One node -/

theorem splatName_ne_iff {text : String} : splatName text ≠ "" ↔ HasName text := by
  have hempty : ∀ cs, String.ofList (Text.trim cs) ≠ "" ↔ ∃ c ∈ cs, Text.isBlank c = false := by
    intro cs
    rw [ne_eq, String.ofList_eq_empty_iff, Text.trim_eq_nil_iff]
    simp
  rw [splatName, hempty]
  constructor
  · intro hname
    refine ⟨text.toList.takeWhile (· == '*'), text.toList.dropWhile (· == '*'),
      List.takeWhile_append_dropWhile.symm, fun c hc => ?_, fun hhead => ?_, hname⟩
    · simpa using List.mem_takeWhile_imp hc
    · simpa [hhead] using List.head?_dropWhile_not (· == '*') text.toList
  · rintro ⟨stars, rest, htext, hstars, hhead, hname⟩
    have hrest : rest.dropWhile (· == '*') = rest := by
      cases rest with
      | nil => rfl
      | cons c rest => exact List.dropWhile_cons_of_neg (by simpa using hhead)
    rwa [htext, List.dropWhile_append_of_pos (by simpa using hstars), hrest]

theorem isStar_iff {t : Tree} : isStar t = true ↔ EndsPositional t := by
  constructor
  · intro h
    unfold isStar at h
    split at h
    · exact .listSplat (by assumption)
    · exact .separator (by assumption)
    · rename_i hkind
      cases hinner : t.namedChildren.head? with
      | none => simp [hinner] at h
      | some inner => exact .typedListSplat inner hkind hinner (by simpa [hinner] using h)
    · simp at h
  · rintro (hkind | hkind | ⟨inner, hkind, hinner, hsplat⟩)
    · simp [isStar, hkind]
    · simp [isStar, hkind]
    · simp [isStar, hkind, hinner, hsplat]

/-- Whether a star was passed decides the kind of a plain parameter. -/
theorem IsPlain.hasKind {t : Tree} (h : IsPlain t) (text : SourceText) (before : List Tree) :
    HasKind text before t (plainKind (before.any isStar)) := by
  by_cases hstar : before.any isStar = true
  · obtain ⟨u, hu, hends⟩ := List.any_eq_true.mp hstar
    rw [plainKind, if_pos hstar]
    exact .keywordOnly u h hu (isStar_iff.mp hends)
  · rw [plainKind, if_neg hstar]
    refine .positional h fun u hu hends => hstar ?_
    exact List.any_eq_true.mpr ⟨u, hu, isStar_iff.mpr hends⟩

theorem hasKind_of_ofNode? {text : SourceText} {before : List Tree} {t : Tree} {p : Parameter}
    (h : ofNode? text (before.any isStar) t = some p) :
    HasKind text before t p.kind ∧ p.place = text.placeOf t := by
  unfold ofNode? at h
  dsimp only at h
  split at h
  · rename_i hkind
    obtain rfl := Option.some.inj h
    exact ⟨(IsPlain.untyped hkind).hasKind text before, rfl⟩
  · rename_i hkind
    obtain ⟨inner, hinner, rfl⟩ := Option.map_eq_some_iff.mp h
    refine ⟨?_, rfl⟩
    dsimp only
    split
    · exact .varPositional (.typed inner hkind hinner (by assumption))
    · exact .varKeyword (.typed inner hkind hinner (by assumption))
    · exact (IsPlain.typed inner hkind hinner (by assumption) (by assumption)).hasKind text before
  · rename_i hkind
    obtain ⟨name, hname, rfl⟩ := Option.map_eq_some_iff.mp h
    exact ⟨(IsPlain.withDefault name (.inl hkind) hname).hasKind text before, rfl⟩
  · rename_i hkind
    obtain ⟨name, hname, rfl⟩ := Option.map_eq_some_iff.mp h
    exact ⟨(IsPlain.withDefault name (.inr hkind) hname).hasKind text before, rfl⟩
  · rename_i hkind
    split at h
    · simp at h
    · rename_i hname
      obtain rfl := Option.some.inj h
      exact ⟨.varPositional (.untyped hkind (splatName_ne_iff.mp (by simpa using hname))), rfl⟩
  · rename_i hkind
    obtain rfl := Option.some.inj h
    exact ⟨.varKeyword (.untyped hkind), rfl⟩
  · simp at h

theorem IsPlain.exists_ofNode? {t : Tree} (h : IsPlain t) (text : SourceText) (starred : Bool) :
    ∃ p, ofNode? text starred t = some p ∧ p.kind = plainKind starred := by
  obtain hkind | ⟨inner, hkind, hinner, hlist, hdictionary⟩ | ⟨name, hkind, hname⟩ := h
  · simp [ofNode?, hkind]
  · simp [ofNode?, hkind, hinner]
  · rcases hkind with hkind | hkind
    · simp [ofNode?, hkind, hname]
    · simp [ofNode?, hkind, hname]

/-- The rules give a node at most one kind, that of the parameter it declares. -/
theorem HasKind.exists_ofNode? {text : SourceText} {before : List Tree} {t : Tree}
    {kind : ParameterKind} (h : HasKind text before t kind) :
    ∃ p, ofNode? text (before.any isStar) t = some p ∧ p.kind = kind := by
  cases h with
  | positional hplain hbefore =>
    have hstar : before.any isStar = false :=
      List.any_eq_false.mpr fun u hu => mt isStar_iff.mp (hbefore u hu)
    rw [hstar]
    exact hplain.exists_ofNode? text false
  | keywordOnly u hplain hu hends =>
    have hstar : before.any isStar = true := List.any_eq_true.mpr ⟨u, hu, isStar_iff.mpr hends⟩
    rw [hstar]
    exact hplain.exists_ofNode? text true
  | varPositional hsplat =>
    obtain ⟨hkind, hname⟩ | ⟨inner, hkind, hinner, hsplat⟩ := hsplat
    · simp [ofNode?, hkind, splatName_ne_iff.mpr hname]
    · simp [ofNode?, hkind, hinner, hsplat]
  | varKeyword hsplat =>
    obtain hkind | ⟨inner, hkind, hinner, hsplat⟩ := hsplat
    · simp [ofNode?, hkind]
    · simp [ofNode?, hkind, hinner, hsplat]

theorem kind_ofNode?_iff {text : SourceText} {before : List Tree} {t : Tree}
    {kind : ParameterKind} :
    (ofNode? text (before.any isStar) t).map (·.kind) = some kind ↔ HasKind text before t kind := by
  constructor
  · intro h
    obtain ⟨p, hp, rfl⟩ := Option.map_eq_some_iff.mp h
    exact (hasKind_of_ofNode? hp).1
  · intro h
    obtain ⟨p, hp, rfl⟩ := h.exists_ofNode?
    rw [hp, Option.map_some]

/-! ### All nodes -/

/-- The parameter of the node at an index, by the nodes before it. -/
def declaredAt? (text : SourceText) (starred : Bool) (nodes : List Tree) (i : Nat) :
    Option Parameter :=
  nodes[i]?.bind fun t => ofNode? text (starred || (nodes.take i).any isStar) t

theorem collect_eq (text : SourceText) (starred : Bool) (nodes : List Tree) :
    collect text starred nodes =
      (List.range nodes.length).filterMap (declaredAt? text starred nodes) := by
  induction nodes generalizing starred with
  | nil => rfl
  | cons t rest ih =>
    have hfirst : declaredAt? text starred (t :: rest) 0 = ofNode? text starred t := by
      simp [declaredAt?]
    have hrest : declaredAt? text starred (t :: rest) ∘ Nat.succ =
        declaredAt? text (starred || isStar t) rest := by
      funext i
      simp [declaredAt?, Bool.or_assoc]
    rw [collect, ih, List.length_cons, List.range_succ_eq_map, List.filterMap_cons, hfirst,
      List.filterMap_map, hrest]
    cases ofNode? text starred t with
    | none => rfl
    | some p => rfl

theorem declaredAt?_of_getElem? {text : SourceText} {nodes : List Tree} {i : Nat} {t : Tree}
    (h : nodes[i]? = some t) :
    declaredAt? text false nodes i = ofNode? text ((nodes.take i).any isStar) t := by
  rw [declaredAt?, h, Option.bind_some, Bool.false_or]

theorem exists_hasKind_of_declaredAt? {text : SourceText} {nodes : List Tree} {i : Nat}
    {p : Parameter} (h : declaredAt? text false nodes i = some p) :
    ∃ t, nodes[i]? = some t ∧ HasKind text (nodes.take i) t p.kind := by
  obtain ⟨t, ht, _⟩ := Option.bind_eq_some_iff.mp h
  rw [declaredAt?_of_getElem? ht] at h
  exact ⟨t, ht, (hasKind_of_ofNode? h).1⟩

/-- Nothing is positional after a splat of a list or after what is keyword-only. -/
theorem HasKind.not_positional {text : SourceText} {before later : List Tree} {t u : Tree}
    {kind : ParameterKind} (h : HasKind text before t kind)
    (hkind : kind = .varPositional ∨ kind = .keywordOnly) (ht : t ∈ later)
    (hbefore : ∀ w ∈ before, w ∈ later) : ¬ HasKind text later u .positional := by
  rintro (⟨_, hnone⟩ | _ | _ | _)
  cases h with
  | positional => simp at hkind
  | keywordOnly w _ hw hends => exact hnone w (hbefore w hw) hends
  | varPositional hsplat =>
    obtain ⟨hlist, _⟩ | ⟨inner, htyped, hinner, hlist⟩ := hsplat
    · exact hnone t ht (.listSplat hlist)
    · exact hnone t ht (.typedListSplat inner htyped hinner hlist)
  | varKeyword => simp at hkind

/-- The named children of a node declare at most one parameter each, in their order, and of the kind
that the rules give; a star alone declares none. So what is positional comes before any splat of a
list and before what is keyword-only. -/
theorem parameters_have_kinds (text : SourceText) (params : Tree) :
    ∃ declared : Nat → Option Parameter,
      collect text false params.namedChildren =
        (List.range params.namedChildren.length).filterMap declared ∧
      (∀ i t, params.namedChildren[i]? = some t →
        (∀ kind, (declared i).map (·.kind) = some kind ↔
          HasKind text (params.namedChildren.take i) t kind) ∧
        (∀ p, declared i = some p → p.place = text.placeOf t) ∧
        (t.kind = .listSplatPattern → ¬ HasName (text.text t) → declared i = none)) ∧
      (collect text false params.namedChildren).Pairwise fun p q =>
        p.kind = .varPositional ∨ p.kind = .keywordOnly → q.kind ≠ .positional := by
  refine ⟨declaredAt? text false params.namedChildren, collect_eq text false _, ?_, ?_⟩
  · intro i t ht
    rw [declaredAt?_of_getElem? ht]
    refine ⟨fun kind => kind_ofNode?_iff, fun p hp => (hasKind_of_ofNode? hp).2, ?_⟩
    intro hkind hname
    have hempty : splatName (text.text t) = "" := not_ne_iff.mp (mt splatName_ne_iff.mp hname)
    simp [ofNode?, hkind, hempty]
  · rw [collect_eq]
    refine List.pairwise_lt_range.filterMap _ fun i j hlt p hp q hq hkind hpositional => ?_
    obtain ⟨t, ht, hfirst⟩ := exists_hasKind_of_declaredAt? hp
    obtain ⟨u, _, hsecond⟩ := exists_hasKind_of_declaredAt? hq
    have hmem : t ∈ params.namedChildren.take j :=
      List.mem_of_getElem? ((List.getElem?_take_of_lt hlt).trans ht)
    refine hfirst.not_positional hkind hmem (fun w hw => ?_) (hpositional ▸ hsecond)
    exact (List.take_sublist_take_left hlt.le).mem hw

/-- Parameters with a star alone and, at the end, with a star before a name. -/
def starredParameters : Tree :=
  .span .parameters (some .parameters) 5 23
    [.span .identifier none 6 7 [], .span .listSplatPattern none 9 10 [],
     .span .defaultParameter none 12 15
       [.span .identifier (some .name) 12 13 [], .span .integer (some .value) 14 15 []],
     .span .listSplatPattern none 17 22 [.span .identifier none 18 22 []]]

theorem parameters_have_kinds_starredParameters :
    ∃ declared : Nat → Option Parameter,
      collect (.ofChars "def f(a, *, b=1, *args): pass".toList) false
          starredParameters.namedChildren = (List.range 4).filterMap declared ∧
      (declared 0).map (·.kind) = some .positional ∧ declared 1 = none ∧
      (declared 2).map (·.kind) = some .keywordOnly ∧
      (declared 3).map (·.kind) = some .varPositional := by
  obtain ⟨declared, hall, hkinds, _⟩ :=
    parameters_have_kinds (.ofChars "def f(a, *, b=1, *args): pass".toList) starredParameters
  refine ⟨declared, hall, ?_, ?_, ?_, ?_⟩
  · exact ((hkinds 0 _ rfl).1 .positional).mpr (.positional (.untyped rfl) (by simp))
  · refine (hkinds 1 _ rfl).2.2 rfl (mt splatName_ne_iff.mpr ?_)
    decide +kernel
  · exact ((hkinds 2 _ rfl).1 .keywordOnly).mpr
      (.keywordOnly _ (.withDefault _ (.inl rfl) rfl) (.tail _ (.head _)) (.listSplat rfl))
  · refine ((hkinds 3 _ rfl).1 .varPositional).mpr (.varPositional (.untyped rfl ?_))
    exact ⟨['*'], ['a', 'r', 'g', 's'], by decide +kernel, by simp, by simp, 'a', by simp, rfl⟩

end Parameter

end Coupling
