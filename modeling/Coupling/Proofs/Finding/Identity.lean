import Coupling.Proofs.Finding.Distinct
import Coupling.Proofs.Text.Utf8

/-!
# Identities of findings

An identity is the digest of a text in which the kind, the path, the line, the column and the start
of the description stand between bars. About one file the text can be read back, whatever the path
and the description hold: kinds and numbers have no bar, and the path is known.

Of the findings with one identity the first is kept. Which findings these are does not depend on the
order in which identities were met, so a list may be cleared of repetitions part by part.
-/

namespace Coupling

/-! ### The digested text -/

theorem canonical_eq_iff {k k' : Kind} {path : String} {p p' : Place} {d d' : String} :
    canonical k path p d = canonical k' path p' d' ↔
      k = k' ∧ p = p' ∧ d.toList.take identityChars = d'.toList.take identityChars := by
  constructor
  · exact canonical_injective
  · rintro ⟨rfl, rfl, hstart⟩
    rw [canonical, canonical, hstart]

theorem take_append_of_long {head : String} (hlong : identityChars ≤ head.length)
    (tail : String) :
    (head ++ tail).toList.take identityChars = head.toList.take identityChars := by
  rw [String.toList_append, List.take_append_of_le_length]
  rwa [String.length_toList]

/-- Two findings about one file have the same digested text exactly if they agree in kind, line,
column and the first 50 characters of the description. What follows these characters does not
matter, and no two places are taken for one another. -/
theorem digested_text_tells_apart (path : String) (k k' : Kind) (p p' : Place) (d d' : String) :
    (canonical k path p d = canonical k' path p' d' ↔
      k = k' ∧ p.line = p'.line ∧ p.column = p'.column ∧
        d.toList.take 50 = d'.toList.take 50) ∧
    (Text.encode (canonical k path p d) = Text.encode (canonical k' path p' d') ↔
      canonical k path p d = canonical k' path p' d') ∧
    (50 ≤ d.length → ∀ tail tail' : String,
      canonical k path p (d ++ tail) = canonical k path p (d ++ tail')) ∧
    (canonical k path p d = canonical k path p' d ↔ p = p') := by
  refine ⟨?_, ⟨fun h => Text.encode_injective h, congrArg Text.encode⟩, ?_, ?_⟩
  · have hplace : p = p' ↔ p.line = p'.line ∧ p.column = p'.column := by
      cases p
      cases p'
      rw [Place.mk.injEq]
    rw [canonical_eq_iff, hplace, and_assoc]
    rfl
  · intro hlong tail tail'
    rw [canonical_eq_iff, take_append_of_long hlong, take_append_of_long hlong]
    exact ⟨rfl, rfl, rfl⟩
  · simp [canonical_eq_iff]

/-- A path with bars and numbers, and descriptions that differ only after 50 characters. -/
theorem digested_text_tells_apart_barredPath :
    50 ≤ "Function 'settle_every_open_account_of_today' has ".length ∧
    canonical .algorithm "a|1|12.py" ⟨1, 12⟩
        ("Function 'settle_every_open_account_of_today' has " ++ "high cyclomatic complexity (3)") =
      canonical .algorithm "a|1|12.py" ⟨1, 12⟩
        ("Function 'settle_every_open_account_of_today' has " ++ "excessive nesting depth (2)") ∧
    canonical .algorithm "a|1|12.py" ⟨1, 12⟩ "2|x" ≠
      canonical .algorithm "a|1|12.py" ⟨11, 2⟩ "2|x" := by
  have hlong : 50 ≤ "Function 'settle_every_open_account_of_today' has ".length := by decide
  refine ⟨hlong, (digested_text_tells_apart _ _ .name _ ⟨1, 12⟩ _ "").2.2.1 hlong _ _, fun h => ?_⟩
  have hplace := (digested_text_tells_apart _ _ .name _ _ _ "").2.2.2.mp h
  exact absurd hplace (by decide)

-- Paths with bars can be taken for one another, so the path has to be known.
example : canonical .name "a|1" ⟨2, 3⟩ "x" = canonical .name "a" ⟨1, 2⟩ "3|x" := by decide

/-! ### The first of each identity -/

section Firsts

variable {seen seen' : List String} {findings : List Finding}

theorem distinctFrom_sublist (seen : List String) (findings : List Finding) :
    (distinctFrom seen findings).Sublist findings := by
  induction findings generalizing seen with
  | nil => exact .slnil
  | cons f rest ih =>
    rw [distinctFrom]
    split
    · exact (ih seen).cons f
    · exact (ih (f.id :: seen)).cons_cons f

/-- It matters which identities have been met, and not in which order. -/
theorem distinctFrom_congr (hseen : ∀ i, i ∈ seen ↔ i ∈ seen') :
    distinctFrom seen findings = distinctFrom seen' findings := by
  induction findings generalizing seen seen' with
  | nil => rfl
  | cons f rest ih =>
    have hcons : ∀ i, i ∈ f.id :: seen ↔ i ∈ f.id :: seen' := by simp [hseen]
    simp only [distinctFrom, hseen, ih hseen, ih hcons]

theorem distinctFrom_cons_of_mem {i : String} (hi : i ∈ seen) :
    distinctFrom (i :: seen) findings = distinctFrom seen findings :=
  distinctFrom_congr fun _ => List.mem_cons.trans (or_iff_right_of_imp fun h => h ▸ hi)

theorem distinctFrom_append (seen : List String) (findings more : List Finding) :
    distinctFrom seen (findings ++ more) =
      distinctFrom seen findings ++ distinctFrom (findings.map Finding.id ++ seen) more := by
  induction findings generalizing seen with
  | nil => rfl
  | cons f rest ih =>
    rw [List.cons_append, distinctFrom, distinctFrom, ih, ih, List.map_cons, List.cons_append]
    split
    · rename_i hmet
      rw [distinctFrom_cons_of_mem (List.mem_append_right _ hmet)]
    · rw [List.cons_append, distinctFrom_congr fun _ => List.perm_middle.mem_iff]

theorem mem_ids_distinctFrom {i : String} :
    i ∈ (distinctFrom seen findings).map Finding.id ↔ i ∉ seen ∧ i ∈ findings.map Finding.id := by
  induction findings generalizing seen with
  | nil => simp [distinctFrom]
  | cons f rest ih =>
    rw [distinctFrom, List.map_cons, List.mem_cons]
    split
    · rw [ih]
      grind
    · rw [List.map_cons, List.mem_cons, ih]
      grind

/-- Dropping repetitions keeps the identities. -/
theorem mem_map_id_distinct {i : String} :
    i ∈ (distinct findings).map Finding.id ↔ i ∈ findings.map Finding.id := by
  simp [distinct, mem_ids_distinctFrom]

theorem nodup_distinctFrom (seen : List String) (findings : List Finding) :
    ((distinctFrom seen findings).map Finding.id).Nodup := by
  induction findings generalizing seen with
  | nil => exact .nil
  | cons f rest ih =>
    rw [distinctFrom]
    split
    · exact ih seen
    · rw [List.map_cons, List.nodup_cons, mem_ids_distinctFrom]
      exact ⟨fun h => h.1 List.mem_cons_self, ih (f.id :: seen)⟩

theorem distinctFrom_distinctFrom (seen : List String) (findings : List Finding) :
    distinctFrom seen (distinctFrom seen findings) = distinctFrom seen findings := by
  induction findings generalizing seen with
  | nil => rfl
  | cons f rest ih =>
    by_cases hmet : f.id ∈ seen
    · simp only [distinctFrom, if_pos hmet, ih]
    · simp only [distinctFrom, if_neg hmet, ih]

theorem find?_distinctFrom {i : String} (hi : i ∉ seen) :
    (distinctFrom seen findings).find? (·.id == i) = findings.find? (·.id == i) := by
  induction findings generalizing seen with
  | nil => rfl
  | cons f rest ih =>
    rw [distinctFrom]
    by_cases hid : f.id = i
    · rw [if_neg (hid ▸ hi), List.find?_cons_of_pos (by simpa using hid),
        List.find?_cons_of_pos (by simpa using hid)]
    · rw [List.find?_cons_of_neg (by simpa using hid)]
      split
      · exact ih hi
      · rw [List.find?_cons_of_neg (by simpa using hid)]
        exact ih (by simp [Ne.symm hid, hi])

/-- What is kept after some findings stands at the places where an identity occurs first. -/
theorem distinctFrom_eq_filter (before findings : List Finding) :
    distinctFrom (before.map Finding.id) findings =
      ((findings.zipIdx before.length).filter fun e =>
        e.1.id ∉ ((before ++ findings).take e.2).map Finding.id).map Prod.fst := by
  induction findings generalizing before with
  | nil => rfl
  | cons f rest ih =>
    have hrest := ih (before ++ [f])
    rw [List.length_append, List.length_singleton, List.append_assoc, List.singleton_append]
      at hrest
    have hhead : (before ++ f :: rest).take before.length = before := List.take_left' rfl
    have hmet : ∀ i, i ∈ (before ++ [f]).map Finding.id ↔ i ∈ f.id :: before.map Finding.id := by
      simp [or_comm]
    rw [distinctFrom, List.zipIdx_cons, List.filter_cons]
    simp only [hhead, decide_eq_true_eq]
    by_cases hf : f.id ∈ before.map Finding.id
    · rw [if_pos hf, if_neg (not_not_intro hf), ← hrest, distinctFrom_congr hmet,
        distinctFrom_cons_of_mem hf]
    · rw [if_neg hf, if_pos hf, List.map_cons, ← hrest, distinctFrom_congr hmet]

end Firsts

/-- Findings are kept where their identity occurs first: in their order, one for each identity and
the first of it. Clearing a list a second time changes nothing, and its first part may be cleared
before the rest is added. -/
theorem distinct_keeps_firsts (findings : List Finding) :
    distinct findings =
      (findings.zipIdx.filter fun e => e.1.id ∉ (findings.take e.2).map Finding.id).map Prod.fst ∧
    (distinct findings).Sublist findings ∧
    ((distinct findings).map Finding.id).Nodup ∧
    (∀ i, i ∈ (distinct findings).map Finding.id ↔ i ∈ findings.map Finding.id) ∧
    (∀ i, (distinct findings).find? (·.id == i) = findings.find? (·.id == i)) ∧
    distinct (distinct findings) = distinct findings ∧
    ∀ more, distinct (findings ++ more) = distinct (distinct findings ++ more) := by
  refine ⟨distinctFrom_eq_filter [] findings, distinctFrom_sublist [] findings,
    nodup_distinctFrom [] findings, fun i => mem_map_id_distinct,
    fun i => find?_distinctFrom List.not_mem_nil, distinctFrom_distinctFrom [] findings, ?_⟩
  intro more
  have hids : ∀ i, i ∈ findings.map Finding.id ++ [] ↔
      i ∈ (distinctFrom [] findings).map Finding.id ++ [] := by
    simp [mem_ids_distinctFrom]
  rw [distinct, distinct, distinct, distinctFrom_append, distinctFrom_append,
    distinctFrom_distinctFrom, distinctFrom_congr hids]

end Coupling
