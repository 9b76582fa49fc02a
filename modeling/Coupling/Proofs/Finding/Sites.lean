import Coupling.Proofs.Finding.Identity
import Coupling.Proofs.Syntax.Search

/-!
# What every analysis returns

The findings of a walk are reported at nodes and have an identity of their own; those that are
returned are the first of each identity. Files without a source have one finding, at the first node
that is wrong or at the first byte that belongs to no text.
-/

namespace Coupling

open Syntax

theorem mem_of_mem_distinct {findings : List Finding} {v : Finding}
    (hv : v ∈ distinct findings) : v ∈ findings :=
  List.mem_of_find?_eq_some (mem_distinct_iff.mp hv)

theorem ne_nil_distinct {findings : List Finding} (h : findings ≠ []) : distinct findings ≠ [] := by
  cases findings with
  | nil => exact absurd rfl h
  | cons v rest => simp [distinct, distinctFrom]

namespace Syntax

open Text

/-- A node of the document starts at the place, or the first byte that belongs to no text is there.
-/
def Document.IsSite (doc : Document) (p : Place) : Prop :=
  (∃ root f, IsText doc.bytes ∧ doc.tree = some root ∧ f ∈ root.preorder ∧
    p = placeAt doc.bytes f.tree.label.start) ∨
  ∃ n, LongestText doc.bytes n ∧ n < doc.bytes.length ∧ p = placeAt doc.bytes n

theorem Document.IsSite.exists_offset {doc : Document} {p : Place} (hp : doc.IsSite p) :
    ∃ offset, p = placeAt doc.bytes offset := by
  rcases hp with ⟨_, f, _, _, _, hp⟩ | ⟨n, _, _, hp⟩
  · exact ⟨f.tree.label.start, hp⟩
  · exact ⟨n, hp⟩

/-- A source is the tree of its document over the text of its document. -/
theorem Source.ofDocument_eq_ok {path : String} {doc : Document} {source : Source}
    (h : Source.ofDocument path doc = .ok source) :
    source.path = path ∧ doc.tree = some source.root ∧ ∃ cs,
      source.text = .ofChars cs ∧ cs.flatMap String.utf8EncodeChar = doc.bytes := by
  have hbytes := flatMap_append_decodePrefix doc.bytes
  unfold Source.ofDocument at h
  split at h
  · simp at h
  · rename_i cs hdecoded
    rw [hdecoded, List.append_nil] at hbytes
    split at h
    · simp at h
    · rename_i root hroot
      dsimp only at h
      split at h
      · simp at h
      · rw [Except.ok.injEq] at h
        subst h
        exact ⟨rfl, hroot, cs, rfl, hbytes⟩

/-- A text whose tree has no faults is a source. -/
theorem Source.ofDocument_encode (path : String) (s : String) {root : Tree}
    (hroot : root.label.faulty = false) :
    Source.ofDocument path ⟨encode s, some root⟩ = .ok ⟨path, .ofChars s.toList, root⟩ := by
  have hdecoded : decodePrefix (encode s) = (s.toList, []) := by
    have hall := decodePrefix_append s.toList []
    rw [List.append_nil] at hall
    rw [encode, hall]
    simp [decodePrefix, decodeFrom]
  simp [Source.ofDocument, hdecoded, hroot]

theorem Source.genuine_of_ofDocument {path : String} {doc : Document} {v : Finding}
    (h : Source.ofDocument path doc = .error v) :
    v.Genuine .parseError path ∧ v.severity = .critical := by
  unfold Source.ofDocument at h
  split at h
  · rw [Except.error.injEq] at h
    subst h
    exact ⟨Finding.genuine_new .., rfl⟩
  · split at h
    · rw [Except.error.injEq] at h
      subst h
      exact ⟨Finding.genuine_new .., rfl⟩
    · dsimp only at h
      split at h
      · rw [Except.error.injEq] at h
        subst h
        exact ⟨Finding.genuine_new .., rfl⟩
      · simp at h

/-- Why a document has no source is said at a node or at the first byte that belongs to no text. -/
theorem Source.isSite_of_ofDocument {path : String} {doc : Document} {v : Finding}
    (htree : IsText doc.bytes → doc.tree.isSome) (h : Source.ofDocument path doc = .error v) :
    doc.IsSite v.place := by
  have hbytes := flatMap_append_decodePrefix doc.bytes
  have hlongest := longestText_decodePrefix doc.bytes
  unfold Source.ofDocument at h
  split at h
  · rename_i cs b rest hdecoded
    rw [hdecoded] at hlongest
    rw [Except.error.injEq] at h
    subst h
    refine .inr ⟨_, hlongest, ?_, placeAfter_take hlongest.le_length⟩
    have hlength := congrArg List.length hbytes
    rw [hdecoded, List.length_append, List.length_cons] at hlength
    rw [List.length_cons]
    omega
  · rename_i cs hdecoded
    rw [hdecoded, List.append_nil] at hbytes
    have htext : IsText doc.bytes := isText_iff.mpr ⟨cs, hbytes⟩
    split at h
    · rename_i hnone
      simp [hnone] at htree
      exact absurd htext htree
    · rename_i root hroot
      dsimp only at h
      split at h
      · rename_i f hfault
        have hf : f ∈ root.preorder := by
          split at hfault
          · rw [← Focus.nodesAhead_root]
            exact Focus.mem_nodesAhead_of_firstFault? hfault
          · simp at hfault
        rw [Except.error.injEq] at h
        subst h
        refine .inl ⟨root, f, htext, hroot, hf, ?_⟩
        rw [← hbytes]
        exact SourceText.place_ofChars cs f.tree.label.start
      · simp at h

theorem Source.isSite_document {path : String} {doc : Document} {source : Source} {p : Place}
    (h : Source.ofDocument path doc = .ok source) (hp : source.IsSite p) : doc.IsSite p := by
  obtain ⟨_, htree, cs, htext, hbytes⟩ := ofDocument_eq_ok h
  obtain ⟨_, ⟨f, hf, rfl⟩, rfl⟩ := hp
  refine .inl ⟨source.root, f, isText_iff.mpr ⟨cs, hbytes⟩, htree, hf, ?_⟩
  rw [htext, ← hbytes]
  exact SourceText.place_ofChars cs f.tree.label.start

/-- An analysis returns the finding that says why there is no source, or what is kept of a walk. -/
theorem Document.analyze_eq_ok {l : Limits} {path : String} {doc : Document}
    {findings : List Finding} (h : doc.analyze l path = .ok findings) :
    (∃ v, Source.ofDocument path doc = .error v ∧ findings = [v]) ∨
    ∃ (source : Source) (w : Walk), Source.ofDocument path doc = .ok source ∧
      source.path = path ∧ w.Sited source ∧ findings = distinct (w.finish l path) := by
  unfold Document.analyze at h
  cases hsource : Source.ofDocument path doc with
  | error v =>
    rw [hsource, Except.ok.injEq] at h
    exact .inl ⟨v, rfl, h.symm⟩
  | ok source =>
    have hpath := (Source.ofDocument_eq_ok hsource).1
    cases hemitted : source.emitted l with
    | error fault => simp [hsource, Source.analyze, hemitted, Except.map] at h
    | ok emitted =>
      simp only [hsource, Source.analyze, hemitted, Except.map, Except.ok.injEq] at h
      obtain ⟨w, _, hw, rfl⟩ := Walk.emitted_eq_ok hemitted
      exact .inr ⟨source, w, rfl, hpath, hw, by rw [← h, hpath]⟩

theorem Document.genuine_of_mem_analyze {l : Limits} {path : String} {doc : Document}
    {findings : List Finding} (h : doc.analyze l path = .ok findings) {v : Finding}
    (hv : v ∈ findings) : ∃ kind, v.Genuine kind path := by
  rcases analyze_eq_ok h with ⟨u, hu, rfl⟩ | ⟨source, w, _, rfl, hw, rfl⟩
  · rw [List.mem_singleton] at hv
    exact ⟨.parseError, hv ▸ (Source.genuine_of_ofDocument hu).1⟩
  · obtain ⟨kind, _, hv⟩ := hw.finish v (mem_of_mem_distinct hv)
    exact ⟨kind, hv.toGenuine⟩

theorem Document.nodup_analyze {l : Limits} {path : String} {doc : Document}
    {findings : List Finding} (h : doc.analyze l path = .ok findings) :
    (findings.map (·.id)).Nodup := by
  rcases analyze_eq_ok h with ⟨u, _, rfl⟩ | ⟨source, w, _, _, _, rfl⟩
  · simp
  · exact nodup_distinctFrom [] _

theorem Document.isSite_of_mem_analyze {l : Limits} {path : String} {doc : Document}
    {findings : List Finding} (htree : IsText doc.bytes → doc.tree.isSome)
    (h : doc.analyze l path = .ok findings) {v : Finding} (hv : v ∈ findings) :
    doc.IsSite v.place := by
  rcases analyze_eq_ok h with ⟨u, hu, rfl⟩ | ⟨source, w, hsource, rfl, hw, rfl⟩
  · rw [List.mem_singleton] at hv
    exact hv ▸ Source.isSite_of_ofDocument htree hu
  · obtain ⟨_, _, hv⟩ := hw.finish v (mem_of_mem_distinct hv)
    exact Source.isSite_document hsource hv.site

/-- An analysis that returns gives the one finding that the file does not parse, or only findings on
coupling. In either case each finding is about the file that was given, has the identity of its own
facts and no other's, and stands on a line of the file where a node starts or where its text breaks
off. -/
theorem Document.analyze_well_formed (l : Limits) (path : String) (doc : Document)
    (findings : List Finding) (htree : IsText doc.bytes → doc.tree.isSome)
    (hreturns : doc.analyze l path = .ok findings) :
    ((∃ v, findings = [v] ∧ v.kind = .parseError ∧ v.severity = .critical) ∨
      ∀ v ∈ findings, v.kind ≠ .parseError ∧ v.kind ≠ .processingError) ∧
    (findings.map (·.id)).Nodup ∧
    ∀ v ∈ findings,
      v.path = path ∧ v.id = identity v.kind path v.place v.description ∧
      doc.IsSite v.place ∧ 1 ≤ v.place.line ∧ v.place.line ≤ doc.bytes.count 0x0a + 1 := by
  refine ⟨?_, nodup_analyze hreturns, fun v hv => ?_⟩
  · rcases analyze_eq_ok hreturns with ⟨v, hv, rfl⟩ | ⟨source, w, _, rfl, hw, rfl⟩
    · obtain ⟨hgenuine, hcritical⟩ := Source.genuine_of_ofDocument hv
      exact .inl ⟨v, rfl, hgenuine.kind_eq, hcritical⟩
    · have hcoupling : ∀ kind ∈ .name :: Kind.duringWalk,
          kind ≠ .parseError ∧ kind ≠ .processingError := by decide
      refine .inr fun v hv => ?_
      obtain ⟨kind, hkind, hv⟩ := hw.finish v (mem_of_mem_distinct hv)
      exact hv.kind_eq ▸ hcoupling kind hkind
  · obtain ⟨kind, hgenuine⟩ := genuine_of_mem_analyze hreturns hv
    have hsite := isSite_of_mem_analyze htree hreturns hv
    obtain ⟨offset, hplace⟩ := hsite.exists_offset
    refine ⟨hgenuine.path_eq, hgenuine.path_eq ▸ hgenuine.id_eq, hsite, ?_⟩
    rw [hplace]
    exact ⟨one_le_line_placeAt doc.bytes offset, line_placeAt_le doc.bytes offset⟩

/-- The document of a call of what a call returns. -/
def chainedDocument : Document where
  bytes := encode "f(a,b)(a,b)\n"
  tree := some chainedSource.root

/-- A second line that breaks off after its first letter. -/
def brokenDocument : Document := ⟨[0x61, 0x0a, 0x62, 0xff, 0x63], none⟩

theorem analyze_well_formed_documents :
    (∃ v, brokenDocument.analyze {} "broken.py" = .ok [v] ∧ v.kind = .parseError ∧
      v.place = ⟨2, 1⟩ ∧ brokenDocument.IsSite v.place) ∧
    ∃ findings, chainedDocument.analyze { maxCallArgs := 1 } "chained.py" = .ok findings ∧
      findings ≠ [] ∧ (findings.map (·.id)).Nodup ∧
      ∀ v ∈ findings, v.path = "chained.py" ∧ chainedDocument.IsSite v.place := by
  constructor
  · have hnotText : ¬IsText brokenDocument.bytes := by
      intro htext
      obtain ⟨cs, hcs⟩ := isText_iff.mp htext
      have hnone : decode? brokenDocument.bytes = none := by decide
      rw [← decode?_eq_some_iff, hnone] at hcs
      simp at hcs
    obtain ⟨_, _, hevery⟩ := Document.analyze_well_formed {} "broken.py" brokenDocument _
      (fun htext => absurd htext hnotText) rfl
    obtain ⟨_, _, hsite, _⟩ := hevery _ List.mem_cons_self
    exact ⟨_, rfl, rfl, rfl, hsite⟩
  · have hsource : Source.ofDocument "chained.py" chainedDocument = .ok chainedSource :=
      Source.ofDocument_encode "chained.py" "f(a,b)(a,b)\n" rfl
    have hcount : (chainedSource.emitted { maxCallArgs := 1 }).toOption.map List.length =
        some 2 := by decide +kernel
    cases hemitted : chainedSource.emitted { maxCallArgs := 1 } with
    | error fault => simp [hemitted, Except.toOption] at hcount
    | ok emitted =>
      have hreturns : chainedDocument.analyze { maxCallArgs := 1 } "chained.py" =
          .ok (distinct emitted) := by
        simp [Document.analyze, hsource, Source.analyze, hemitted, Except.map]
      obtain ⟨_, hnodup, hevery⟩ := Document.analyze_well_formed { maxCallArgs := 1 } "chained.py"
        chainedDocument _ (fun _ => rfl) hreturns
      have hsome : emitted ≠ [] := by
        rintro rfl
        simp [hemitted, Except.toOption] at hcount
      refine ⟨_, hreturns, ne_nil_distinct hsome, hnodup, fun v hv => ?_⟩
      obtain ⟨hpath, _, hsite, _⟩ := hevery v hv
      exact ⟨hpath, hsite⟩

end Syntax

end Coupling
