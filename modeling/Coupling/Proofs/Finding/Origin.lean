import Coupling.Proofs.Walk.Steps
import Mathlib.Data.Option.Basic

/-!
# Where findings come from

Every check reports one kind of finding about the file it is given, and the identity of each finding
is the one that its own facts determine. It is reported at the start of a node: of a function, a
parameter, a call, a class, a literal or the minus sign before it, or of the first use of a name.
Each check is given nodes or places that the walk took from nodes, so this is an invariant of the
walk.
-/

namespace Coupling

open Syntax

/-- A finding of a kind about a file, with the identity that its facts determine. -/
structure Finding.Genuine (kind : Kind) (path : String) (v : Finding) : Prop where
  kind_eq : v.kind = kind
  path_eq : v.path = path
  id_eq : v.id = identity v.kind v.path v.place v.description

theorem Finding.genuine_new (kind : Kind) (severity : Severity) (path : String) (place : Place)
    (description recommendation : String) (context : List (String × Json)) :
    (Finding.new kind severity path place description recommendation context).Genuine kind path :=
  ⟨rfl, rfl, rfl⟩

/-- Most checks report one finding unless a bound is kept. -/
theorem Finding.genuine_of_mem_ite {kind : Kind} {path : String} {kept : Prop} [Decidable kept]
    {report v : Finding} (hreport : report.Genuine kind path)
    (hv : v ∈ if kept then [] else [report]) : v.Genuine kind path := by
  by_cases hkept : kept
  · simp [hkept] at hv
  · rw [if_neg hkept, List.mem_singleton] at hv
    exact hv ▸ hreport

/-! ### Single checks -/

theorem Tally.genuine_of_mem_check {l : Limits} {path : String} {t : Tally} {v : Finding}
    (hv : v ∈ t.check l path) : v.Genuine .algorithm path := by
  rw [check, checkComplexity, checkNesting, List.mem_append] at hv
  rcases hv with hv | hv
  · exact Finding.genuine_of_mem_ite (Finding.genuine_new ..) hv
  · exact Finding.genuine_of_mem_ite (Finding.genuine_new ..) hv

theorem ClassSize.genuine_of_mem_check {l : Limits} {source : Source} {cls : Tree} {v : Finding}
    (hv : v ∈ check l source cls) : v.Genuine .godObject source.path :=
  Finding.genuine_of_mem_ite (Finding.genuine_new ..) hv

theorem Annotation.genuine_of_mem_check {path : String} {s : Signature} {isMethod : Bool}
    {v : Finding} (hv : v ∈ check path s isMethod) : v.Genuine .type path :=
  Finding.genuine_of_mem_ite (Finding.genuine_new ..) hv

theorem Literal.genuine_of_mem_check {l : Limits} {source : Source} {f : Focus}
    {new : List Finding} (hnew : check l source f = .ok new) {v : Finding} (hv : v ∈ new) :
    v.Genuine .meaning source.path := by
  unfold check at hnew
  split at hnew
  · rw [Except.ok.injEq] at hnew
    simp [← hnew] at hv
  · rename_i m _
    cases hs : surroundings l source.text (source.text.placeOf m.anchor).line with
    | error fault => simp [hs, Except.map] at hnew
    | ok s =>
      simp only [hs, Except.map, Except.ok.injEq] at hnew
      rw [← hnew, List.mem_singleton] at hv
      exact hv ▸ Finding.genuine_new ..

namespace Position

theorem genuine_of_mem_checkSignature {l : Limits} {path : String} {s : Signature} {inClass : Bool}
    {v : Finding} (hv : v ∈ checkSignature l path s inClass) : v.Genuine .position path := by
  simp only [checkSignature, List.mem_append] at hv
  rcases hv with ((hv | hv) | hv) | hv
  · exact Finding.genuine_of_mem_ite (Finding.genuine_new ..) hv
  · obtain ⟨p, _, rfl⟩ := List.mem_map.mp hv
    exact Finding.genuine_new ..
  · obtain ⟨p, _, rfl⟩ := List.mem_map.mp hv
    exact Finding.genuine_new ..
  · obtain ⟨p, _, rfl⟩ := List.mem_map.mp hv
    exact Finding.genuine_new ..

theorem genuine_of_mem_checkCall {l : Limits} {source : Source} {call : Tree} {v : Finding}
    (hv : v ∈ checkCall l source call) : v.Genuine .position source.path := by
  unfold checkCall at hv
  split at hv
  · simp at hv
  · exact Finding.genuine_of_mem_ite (Finding.genuine_new ..) hv

end Position

theorem Duplicate.genuine_of_mem_check {l : Limits} {path : String} {routines : List Routine}
    {v : Finding} (hv : v ∈ check l path routines) : v.Genuine .algorithm path := by
  have hfrom : ∀ sizes models (rest : List Routine), v ∈ reportFrom path sizes models rest →
      v.Genuine .algorithm path := by
    intro sizes models rest hmem
    induction rest generalizing models with
    | nil => simp [reportFrom] at hmem
    | cons r rest ih =>
      rw [reportFrom] at hmem
      split at hmem
      · rcases List.mem_cons.mp hmem with rfl | hmem
        · exact Finding.genuine_new ..
        · exact ih models hmem
      · exact ih _ hmem
  exact hfrom _ _ _ hv

theorem NameUsage.genuine_of_mem_check {l : Limits} {path : String} {table : NameTable}
    {v : Finding} (hv : v ∈ check l path table) : v.Genuine .name path := by
  obtain ⟨⟨name, usage⟩, _, rfl⟩ := List.mem_map.mp hv
  exact Finding.genuine_new ..

theorem Syntax.Focus.genuine_of_exitFindings {l : Limits} {path : String} {scopes : List Scope}
    {f : Focus} {v : Finding} (hv : v ∈ f.exitFindings l path scopes) :
    v.Genuine .algorithm path := by
  unfold exitFindings at hv
  split at hv
  · exact Tally.genuine_of_mem_check hv
  · simp at hv

/-! ### Nodes near a node -/

namespace Syntax

/-- The children of a node of a tree are nodes of that tree. -/
theorem mem_preorder_of_mem_children :
    (∀ above t, ∀ f ∈ preorderFrom above t, ∀ c ∈ f.tree.children,
      ∃ g ∈ preorderFrom above t, g.tree = c) ∧
    ∀ above parent index ts,
      (∀ f ∈ preorderAll above parent index ts, ∀ c ∈ f.tree.children,
        ∃ g ∈ preorderAll above parent index ts, g.tree = c) ∧
      ∀ c ∈ ts, ∃ g ∈ preorderAll above parent index ts, g.tree = c := by
  refine walk_induction ?_ ?_ ?_
  · intro above label children hchildren f hf c hc
    rw [preorderFrom, List.mem_cons] at hf
    have hbelow : ∃ g ∈ preorderAll above (.node label children) 0 children, g.tree = c := by
      rcases hf with rfl | hf
      · exact hchildren.2 c hc
      · exact hchildren.1 f hf c hc
    obtain ⟨g, hg, hgc⟩ := hbelow
    exact ⟨g, by rw [preorderFrom]; exact List.mem_cons_of_mem _ hg, hgc⟩
  · intro above parent index
    simp [preorderAll]
  · intro above parent index t rest ht hrest
    simp only [preorderAll, List.mem_append]
    constructor
    · rintro f (hf | hf) c hc
      · obtain ⟨g, hg, hgc⟩ := ht f hf c hc
        exact ⟨g, .inl hg, hgc⟩
      · obtain ⟨g, hg, hgc⟩ := hrest.1 f hf c hc
        exact ⟨g, .inr hg, hgc⟩
    · intro c hc
      rcases List.mem_cons.mp hc with rfl | hc
      · cases c
        exact ⟨_, .inl (by rw [preorderFrom]; exact List.mem_cons_self), rfl⟩
      · obtain ⟨g, hg, hgc⟩ := hrest.2 c hc
        exact ⟨g, .inr hg, hgc⟩

/-- The parent of a node is a node of the same tree, unless the walk started below it. -/
theorem parent?_of_mem_preorder :
    (∀ above t, ∀ f ∈ preorderFrom above t, f.parent? = above.head?.map (·.1) ∨
      ∃ g ∈ preorderFrom above t, f.parent? = some g.tree) ∧
    ∀ above parent index ts, ∀ f ∈ preorderAll above parent index ts, f.parent? = some parent ∨
      ∃ g ∈ preorderAll above parent index ts, f.parent? = some g.tree := by
  refine walk_induction ?_ ?_ ?_
  · intro above label children hchildren f hf
    rw [preorderFrom] at hf ⊢
    rcases List.mem_cons.mp hf with rfl | hf
    · exact .inl rfl
    · rcases hchildren f hf with hparent | ⟨g, hg, hparent⟩
      · exact .inr ⟨⟨.node label children, above⟩, List.mem_cons_self, hparent⟩
      · exact .inr ⟨g, List.mem_cons_of_mem _ hg, hparent⟩
  · intro above parent index f hf
    simp [preorderAll] at hf
  · intro above parent index t rest ht hrest f hf
    rw [preorderAll] at hf ⊢
    rcases List.mem_append.mp hf with hf | hf
    · rcases ht f hf with hparent | ⟨g, hg, hparent⟩
      · exact .inl hparent
      · exact .inr ⟨g, List.mem_append_left _ hg, hparent⟩
    · rcases hrest f hf with hparent | ⟨g, hg, hparent⟩
      · exact .inl hparent
      · exact .inr ⟨g, List.mem_append_right _ hg, hparent⟩

namespace Source

/-- The tree is a node of the source. -/
def Contains (source : Source) (t : Tree) : Prop := ∃ f ∈ source.root.preorder, f.tree = t

/-- A node of the source starts at the place. -/
def IsSite (source : Source) (p : Place) : Prop :=
  ∃ t, source.Contains t ∧ source.text.placeOf t = p

variable {source : Source}

theorem contains_of_mem {f : Focus} (hf : f ∈ source.root.preorder) : source.Contains f.tree :=
  ⟨f, hf, rfl⟩

theorem Contains.isSite {t : Tree} (ht : source.Contains t) :
    source.IsSite (source.text.placeOf t) :=
  ⟨t, ht, rfl⟩

theorem Contains.child {t c : Tree} (ht : source.Contains t) (hc : c ∈ t.children) :
    source.Contains c := by
  obtain ⟨f, hf, rfl⟩ := ht
  exact mem_preorder_of_mem_children.1 [] source.root f hf c hc

theorem contains_of_parent? {f : Focus} {t : Tree} (hf : f ∈ source.root.preorder)
    (hparent : f.parent? = some t) : source.Contains t := by
  rcases parent?_of_mem_preorder.1 [] source.root f hf with hnone | ⟨g, hg, hsome⟩
  · simp [hnone] at hparent
  · rw [hparent, Option.some.injEq] at hsome
    exact ⟨g, hg, hsome.symm⟩

end Source

end Syntax

/-! ### Places of single checks -/

/-- A finding of a kind about a source, at one of its nodes. -/
structure Finding.Reported (kind : Kind) (source : Source) (v : Finding) : Prop
    extends v.Genuine kind source.path where
  site : source.IsSite v.place

theorem Finding.place_of_mem_ite {kept : Prop} [Decidable kept] {report v : Finding}
    (hv : v ∈ if kept then [] else [report]) : v.place = report.place := by
  by_cases hkept : kept
  · simp [hkept] at hv
  · rw [if_neg hkept, List.mem_singleton] at hv
    rw [hv]

variable {l : Limits} {source : Source}

theorem Tally.reported_of_mem_check {t : Tally} {v : Finding} (ht : source.IsSite t.place)
    (hv : v ∈ t.check l source.path) : v.Reported .algorithm source := by
  have hplace : v.place = t.place := by
    rw [check, checkComplexity, checkNesting, List.mem_append] at hv
    rcases hv with hv | hv
    · exact Finding.place_of_mem_ite hv
    · exact Finding.place_of_mem_ite hv
  exact ⟨genuine_of_mem_check hv, hplace ▸ ht⟩

theorem ClassSize.reported_of_mem_check {cls : Tree} {v : Finding} (hcls : source.Contains cls)
    (hv : v ∈ check l source cls) : v.Reported .godObject source := by
  have hplace : v.place = source.text.placeOf cls := Finding.place_of_mem_ite hv
  exact ⟨genuine_of_mem_check hv, hplace ▸ hcls.isSite⟩

theorem Annotation.reported_of_mem_check {s : Signature} {isMethod : Bool} {v : Finding}
    (hs : source.IsSite s.place) (hv : v ∈ check source.path s isMethod) :
    v.Reported .type source := by
  have hplace : v.place = s.place := Finding.place_of_mem_ite hv
  exact ⟨genuine_of_mem_check hv, hplace ▸ hs⟩

namespace Literal

theorem anchor_of_magic? {text : SourceText} {f : Focus} {m : Magic}
    (hm : magic? l text f = some m) : m.anchor = f.tree ∨ f.parent? = some m.anchor := by
  have hnumber : ∀ m, magicNumber? l text f = some m →
      m.anchor = f.tree ∨ f.parent? = some m.anchor := by
    intro m hm
    obtain ⟨_, hm⟩ := Option.ite_none_left_eq_some.mp hm
    have hanchor : m.anchor = (negation? f).getD f.tree := by rw [← Option.some.inj hm]
    cases hneg : negation? f with
    | none =>
      rw [hneg] at hanchor
      exact .inl hanchor
    | some parent =>
      rw [hneg] at hanchor
      exact .inr (hanchor ▸ (Option.filter_eq_some_iff.mp hneg).1)
  have hstring : ∀ m, magicString? l text f = some m → m.anchor = f.tree := by
    intro m hm
    simp only [magicString?, bind, Option.bind_eq_some_iff, pure, Option.some.injEq] at hm
    obtain ⟨_, _, _, _, _, _, rfl⟩ := hm
    rfl
  unfold magic? at hm
  split at hm
  · exact hnumber m hm
  · exact hnumber m hm
  · exact .inl (hstring m hm)
  · simp at hm

theorem reported_of_mem_check {f : Focus} {new : List Finding} (hf : f ∈ source.root.preorder)
    (hnew : check l source f = .ok new) {v : Finding} (hv : v ∈ new) :
    v.Reported .meaning source := by
  have hsite : source.IsSite v.place := by
    unfold check at hnew
    split at hnew
    · rw [Except.ok.injEq] at hnew
      simp [← hnew] at hv
    · rename_i m hm
      have hanchor : source.Contains m.anchor := by
        rcases anchor_of_magic? hm with heq | hparent
        · exact heq ▸ Source.contains_of_mem hf
        · exact Source.contains_of_parent? hf hparent
      cases hs : surroundings l source.text (source.text.placeOf m.anchor).line with
      | error fault => simp [hs, Except.map] at hnew
      | ok s =>
        simp only [hs, Except.map, Except.ok.injEq] at hnew
        rw [← hnew, List.mem_singleton] at hv
        rw [hv]
        exact hanchor.isSite
  exact ⟨genuine_of_mem_check hnew hv, hsite⟩

end Literal

theorem Parameter.place_of_mem_collect {text : SourceText} {starred : Bool} {ts : List Tree}
    {p : Parameter} (hp : p ∈ collect text starred ts) : ∃ t ∈ ts, p.place = text.placeOf t := by
  induction ts generalizing starred with
  | nil => simp [collect] at hp
  | cons t rest ih =>
    rw [collect, List.mem_append, Option.mem_toList] at hp
    rcases hp with hp | hp
    · refine ⟨t, List.mem_cons_self, ?_⟩
      simp only [ofNode?] at hp
      split at hp
      · rw [← Option.some.inj hp]
      · obtain ⟨inner, _, rfl⟩ := Option.map_eq_some_iff.mp hp
        rfl
      · obtain ⟨name, _, rfl⟩ := Option.map_eq_some_iff.mp hp
        rfl
      · obtain ⟨name, _, rfl⟩ := Option.map_eq_some_iff.mp hp
        rfl
      · split at hp
        · simp at hp
        · rw [← Option.some.inj hp]
      · rw [← Option.some.inj hp]
      · simp at hp
    · obtain ⟨u, hu, hplace⟩ := ih hp
      exact ⟨u, List.mem_cons_of_mem t hu, hplace⟩

/-- A signature and its parameters are where nodes start. -/
theorem Signature.isSite_of_ofFocus? {f : Focus} {s : Signature} (hf : f ∈ source.root.preorder)
    (hs : ofFocus? source.text f = some s) :
    source.IsSite s.place ∧ ∀ p ∈ s.parameters, source.IsSite p.place := by
  have hcontains := Source.contains_of_mem hf
  unfold ofFocus? at hs
  split at hs
  · obtain ⟨name, _, rfl⟩ := Option.map_eq_some_iff.mp hs
    refine ⟨hcontains.isSite, fun p hp => ?_⟩
    cases hparams : f.tree.child? .parameters with
    | none => simp [hparams] at hp
    | some params =>
      simp only [hparams, Option.map_some, Option.getD_some] at hp
      obtain ⟨t, ht, hplace⟩ := Parameter.place_of_mem_collect hp
      have hlist := hcontains.child (Tree.mem_children_of_child? hparams)
      exact hplace ▸ (hlist.child (List.mem_of_mem_filter ht)).isSite
  · simp at hs

namespace Position

theorem reported_of_mem_checkSignature {s : Signature} {inClass : Bool} {v : Finding}
    (hs : source.IsSite s.place) (hparameters : ∀ p ∈ s.parameters, source.IsSite p.place)
    (hv : v ∈ checkSignature l source.path s inClass) : v.Reported .position source := by
  refine ⟨genuine_of_mem_checkSignature hv, ?_⟩
  have hvisible : ∀ p ∈ visible s inClass, source.IsSite p.place := fun p hp =>
    hparameters p (List.mem_of_mem_filter (List.mem_of_mem_drop hp))
  simp only [checkSignature, List.mem_append] at hv
  rcases hv with ((hv | hv) | hv) | hv
  · rw [Finding.place_of_mem_ite hv]
    exact hs
  · obtain ⟨p, hp, rfl⟩ := List.mem_map.mp hv
    exact hvisible p (List.mem_of_mem_filter hp)
  · obtain ⟨p, hp, rfl⟩ := List.mem_map.mp hv
    exact hparameters p (List.mem_of_mem_filter hp)
  · obtain ⟨p, hp, rfl⟩ := List.mem_map.mp hv
    exact hvisible p ((List.dropWhile_suffix _).subset (List.mem_of_mem_filter hp))

theorem reported_of_mem_checkCall {call : Tree} {v : Finding} (hcall : source.Contains call)
    (hv : v ∈ checkCall l source call) : v.Reported .position source := by
  have hplace : v.place = source.text.placeOf call := by
    unfold checkCall at hv
    split at hv
    · simp at hv
    · exact Finding.place_of_mem_ite hv
  exact ⟨genuine_of_mem_checkCall hv, hplace ▸ hcall.isSite⟩

end Position

theorem Duplicate.reported_of_mem_check {routines : List Routine} {v : Finding}
    (hroutines : ∀ r ∈ routines, source.IsSite r.place)
    (hv : v ∈ check l source.path routines) : v.Reported .algorithm source := by
  refine ⟨genuine_of_mem_check hv, ?_⟩
  have hfrom : ∀ sizes models (rest : List Routine), (∀ r ∈ rest, source.IsSite r.place) →
      v ∈ reportFrom source.path sizes models rest → source.IsSite v.place := by
    intro sizes models rest hrest hmem
    induction rest generalizing models with
    | nil => simp [reportFrom] at hmem
    | cons r rest ih =>
      have hlater := fun x hx => hrest x (List.mem_cons_of_mem r hx)
      rw [reportFrom] at hmem
      split at hmem
      · rcases List.mem_cons.mp hmem with rfl | hmem
        · exact hrest r List.mem_cons_self
        · exact ih models hlater hmem
      · exact ih _ hlater hmem
  exact hfrom _ _ _ (fun r hr => hroutines r (List.mem_of_mem_filter hr)) hv

theorem NameUsage.reported_of_mem_check {table : NameTable} {v : Finding}
    (htable : ∀ (name : String) (usage : Usage), table[name]? = some usage →
      source.IsSite usage.place)
    (hv : v ∈ check l source.path table) : v.Reported .name source := by
  refine ⟨genuine_of_mem_check hv, ?_⟩
  obtain ⟨⟨name, usage⟩, hmem, rfl⟩ := List.mem_map.mp hv
  have hlisted := (List.mem_filter.mp hmem).1
  exact htable name usage (Std.TreeMap.mem_toList_iff_getElem?_eq_some.mp hlisted)

/-! ### Whole walks -/

/-- The kinds of findings that come up before the end of a file. -/
def Kind.duringWalk : List Kind := [.meaning, .position, .algorithm, .type, .godObject]

/-- Everything that a survey remembers is where a node starts. -/
structure Survey.Sited (source : Source) (s : Survey) : Prop where
  tallies : ∀ tally : Tally, .function tally ∈ s.scopes → source.IsSite tally.place
  names : ∀ (name : String) (usage : Usage), s.names[name]? = some usage →
    source.IsSite usage.place
  routines : ∀ r ∈ s.routines, source.IsSite r.place

theorem Tally.place_entering (kind : NodeKind) (t : Tally) : (t.entering kind).place = t.place := by
  unfold entering
  split <;> rfl

theorem Tally.place_leaving (kind : NodeKind) (t : Tally) : (t.leaving kind).place = t.place := by
  unfold leaving
  split <;> rfl

/-- Changing the counters of functions does not move them. -/
theorem Scope.isSite_of_mem_map {scopes : List Scope} {change : Tally → Tally}
    (hchange : ∀ t : Tally, (change t).place = t.place)
    (hscopes : ∀ tally : Tally, .function tally ∈ scopes → source.IsSite tally.place)
    {tally : Tally} (htally : .function tally ∈ scopes.map (·.mapTally change)) :
    source.IsSite tally.place := by
  obtain ⟨scope, hscope, heq⟩ := List.mem_map.mp htally
  cases scope with
  | function old =>
    rw [mapTally, function.injEq] at heq
    rw [← heq, hchange]
    exact hscopes old hscope
  | cls name => simp [mapTally] at heq

theorem NameTable.isSite_record {table : NameTable} {name : String} {place : Place}
    (hplace : source.IsSite place)
    (htable : ∀ (name : String) (usage : Usage), table[name]? = some usage →
      source.IsSite usage.place) :
    ∀ (other : String) (usage : Usage), (table.record name place)[other]? = some usage →
      source.IsSite usage.place := by
  intro other usage husage
  rw [record, Std.TreeMap.getElem?_alter] at husage
  split at husage
  · split at husage
    · rename_i first hfirst
      rw [← Option.some.inj husage]
      exact htable name first hfirst
    · rw [← Option.some.inj husage]
      exact hplace
  · exact htable other usage husage

theorem Survey.Sited.entering {s : Survey} (hs : s.Sited source) {f : Focus}
    (hf : f ∈ source.root.preorder) : (s.entering source f).Sited source := by
  have hsite := (Source.contains_of_mem hf).isSite
  refine ⟨fun tally htally => ?_, fun name usage husage => ?_, fun r hr => ?_⟩
  · refine Scope.isSite_of_mem_map (Tally.place_entering f.kind) (fun old hold => ?_) htally
    rw [List.mem_append, Option.mem_toList] at hold
    rcases hold with hframe | hold
    · unfold Focus.frame? at hframe
      split at hframe
      · rw [Option.some.injEq, Scope.function.injEq] at hframe
        rw [← hframe]
        exact hsite
      · simp at hframe
      · simp at hframe
    · exact hs.tallies old hold
  · rw [Survey.entering] at husage
    split at husage
    · exact NameTable.isSite_record hsite hs.names name usage husage
    · exact hs.names name usage husage
  · rcases List.mem_append.mp hr with hr | hr
    · exact hs.routines r hr
    · rw [Option.mem_toList, Focus.routine?] at hr
      obtain ⟨signature, hsignature, hshape⟩ := Option.bind_eq_some_iff.mp hr
      obtain ⟨shape, _, rfl⟩ := Option.map_eq_some_iff.mp hshape
      exact (Signature.isSite_of_ofFocus? hf hsignature).1

theorem Survey.Sited.leaving {s : Survey} (hs : s.Sited source) (f : Focus) :
    (s.leaving f).Sited source where
  tallies _ htally :=
    Scope.isSite_of_mem_map (Tally.place_leaving f.kind) hs.tallies (List.mem_of_mem_drop htally)
  names := hs.names
  routines := hs.routines

/-- Entering a node never finds an algorithm. -/
theorem Syntax.Focus.reported_of_entryFindings {inClass : Bool} {f : Focus} {new : List Finding}
    (hf : f ∈ source.root.preorder) (hnew : f.entryFindings l source inClass = .ok new)
    {v : Finding} (hv : v ∈ new) :
    ∃ kind ∈ Kind.duringWalk, kind ≠ .algorithm ∧ v.Reported kind source := by
  unfold entryFindings at hnew
  split at hnew
  · split at hnew
    · rw [Except.ok.injEq] at hnew
      simp [← hnew] at hv
    · rename_i s hs
      obtain ⟨hplace, hparameters⟩ := Signature.isSite_of_ofFocus? hf hs
      rw [Except.ok.injEq] at hnew
      rw [← hnew, List.mem_append] at hv
      rcases hv with hv | hv
      · exact ⟨.position, by decide, by decide,
          Position.reported_of_mem_checkSignature hplace hparameters hv⟩
      · split at hv
        · exact ⟨.type, by decide, by decide, Annotation.reported_of_mem_check hplace hv⟩
        · simp at hv
  · rw [Except.ok.injEq] at hnew
    have hcls := Source.contains_of_mem hf
    exact ⟨.godObject, by decide, by decide, ClassSize.reported_of_mem_check hcls (hnew ▸ hv)⟩
  · exact ⟨.meaning, by decide, by decide, Literal.reported_of_mem_check hf hnew hv⟩
  · exact ⟨.meaning, by decide, by decide, Literal.reported_of_mem_check hf hnew hv⟩
  · exact ⟨.meaning, by decide, by decide, Literal.reported_of_mem_check hf hnew hv⟩
  · rw [Except.ok.injEq] at hnew
    have hcall := Source.contains_of_mem hf
    exact ⟨.position, by decide, by decide, Position.reported_of_mem_checkCall hcall (hnew ▸ hv)⟩
  · rw [Except.ok.injEq] at hnew
    simp [← hnew] at hv

theorem Syntax.Focus.reported_of_exitFindings {s : Survey} (hs : s.Sited source) {f : Focus}
    {v : Finding} (hv : v ∈ f.exitFindings l source.path s.scopes) :
    v.Reported .algorithm source := by
  unfold exitFindings at hv
  split at hv
  · rename_i tally _ _ hscopes
    exact Tally.reported_of_mem_check
      (hs.tallies tally (by rw [hscopes]; exact List.mem_cons_self)) hv
  · simp at hv

namespace Walk

section Findings

variable {P : Finding → Prop}
  (hentry : ∀ f ∈ source.root.preorder, ∀ inClass new,
    f.entryFindings l source inClass = .ok new → ∀ v ∈ new, P v)
  (hexit : ∀ (f : Focus) (s : Survey), s.Sited source →
    ∀ v ∈ f.exitFindings l source.path s.scopes, P v)

include hentry hexit

theorem sited_step {w u : Walk} {e : Event} (he : e.focus ∈ source.root.preorder)
    (hstep : w.step l source e = .ok u) (hw : w.survey.Sited source ∧ ∀ v ∈ w.findings, P v) :
    u.survey.Sited source ∧ ∀ v ∈ u.findings, P v := by
  obtain ⟨hsurvey, hfindings⟩ := hw
  cases e with
  | enter f =>
    obtain ⟨new, hnew, rfl⟩ := enter_eq_ok hstep
    refine ⟨hsurvey.entering he, fun v hv => ?_⟩
    rcases List.mem_append.mp hv with hv | hv
    · exact hfindings v hv
    · exact hentry f he _ new hnew v hv
  | leave f =>
    rw [step, leave_eq, Except.ok.injEq] at hstep
    subst hstep
    refine ⟨hsurvey.leaving f, fun v hv => ?_⟩
    rcases List.mem_append.mp hv with hv | hv
    · exact hfindings v hv
    · exact hexit f w.survey hsurvey v hv

theorem sited_run {events : List Event} {w u : Walk}
    (hevents : ∀ e ∈ events, e.focus ∈ source.root.preorder)
    (hrun : w.run l source events = .ok u)
    (hw : w.survey.Sited source ∧ ∀ v ∈ w.findings, P v) :
    u.survey.Sited source ∧ ∀ v ∈ u.findings, P v := by
  induction events generalizing w with
  | nil =>
    rw [run, Except.ok.injEq] at hrun
    exact hrun ▸ hw
  | cons e rest ih =>
    obtain ⟨v, hstep, hrest⟩ := run_cons_eq_ok.mp hrun
    exact ih (fun e' he' => hevents e' (List.mem_cons_of_mem e he')) hrest
      (sited_step hentry hexit (hevents e List.mem_cons_self) hstep hw)

/-- What holds of the findings on entering and on leaving a node holds of all findings of a walk,
and all that the walk remembers is where a node starts. -/
theorem sited_walk {w : Walk} (hrun : start.run l source source.events = .ok w) :
    w.survey.Sited source ∧ ∀ v ∈ w.findings, P v := by
  have hstart : start.survey.Sited source :=
    ⟨by simp [start, Survey.empty], by simp [start, Survey.empty], by simp [start, Survey.empty]⟩
  exact sited_run hentry hexit (fun e he => (Event.mem_ofTree_iff [] source.root e).mp he) hrun
    ⟨hstart, by simp [start]⟩

end Findings

/-- What a walk has found and remembers stems from nodes of the source. -/
structure Sited (source : Source) (w : Walk) : Prop where
  survey : w.survey.Sited source
  findings : ∀ v ∈ w.findings, ∃ kind ∈ Kind.duringWalk, v.Reported kind source

theorem sited_of_run {w : Walk} (hrun : start.run l source source.events = .ok w) :
    w.Sited source := by
  obtain ⟨hsurvey, hfindings⟩ : w.survey.Sited source ∧
      ∀ v ∈ w.findings, ∃ kind ∈ Kind.duringWalk, v.Reported kind source := by
    refine sited_walk ?_ ?_ hrun
    · intro f hf inClass new hnew v hv
      obtain ⟨kind, hkind, _, hreported⟩ := Focus.reported_of_entryFindings hf hnew hv
      exact ⟨kind, hkind, hreported⟩
    · intro f s hs v hv
      exact ⟨.algorithm, by decide, Focus.reported_of_exitFindings hs hv⟩
  exact ⟨hsurvey, hfindings⟩

theorem Sited.finish {w : Walk} (hw : w.Sited source) :
    ∀ v ∈ w.finish l source.path, ∃ kind ∈ .name :: Kind.duringWalk, v.Reported kind source := by
  intro v hv
  simp only [Walk.finish, List.mem_append] at hv
  rcases hv with (hv | hv) | hv
  · obtain ⟨kind, hkind, hreported⟩ := hw.findings v hv
    exact ⟨kind, List.mem_cons_of_mem _ hkind, hreported⟩
  · exact ⟨.algorithm, by decide, Duplicate.reported_of_mem_check hw.survey.routines hv⟩
  · exact ⟨.name, by decide, NameUsage.reported_of_mem_check hw.survey.names hv⟩

/-- What is emitted about a source is what a walk through all of it ends with. -/
theorem emitted_eq_ok {findings : List Finding} (hemitted : source.emitted l = .ok findings) :
    ∃ w, start.run l source source.events = .ok w ∧ w.Sited source ∧
      findings = w.finish l source.path := by
  rw [emitted_eq_run] at hemitted
  cases hrun : start.run l source source.events with
  | error fault => simp [hrun, Except.map] at hemitted
  | ok w =>
    simp only [hrun, Except.map, Except.ok.injEq] at hemitted
    exact ⟨w, rfl, sited_of_run hrun, hemitted.symm⟩

/-- Every finding about a source names its file and has the identity of its own facts. -/
theorem emitted_genuine {findings : List Finding} (hemitted : source.emitted l = .ok findings) :
    ∀ v ∈ findings, ∃ kind, v.Genuine kind source.path := by
  obtain ⟨w, _, hw, rfl⟩ := emitted_eq_ok hemitted
  intro v hv
  obtain ⟨kind, _, hreported⟩ := hw.finish v hv
  exact ⟨kind, hreported.toGenuine⟩

end Walk

end Coupling
