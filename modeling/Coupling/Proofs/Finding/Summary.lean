import Coupling.Finding.Summary
import Coupling.Proofs.Text.Utf8
import Mathlib.Algebra.BigOperators.Group.List.Lemmas
import Mathlib.Algebra.GroupWithZero.Nat
import Mathlib.Data.Finset.Card
import Mathlib.Data.List.Induction

/-!
# Summaries count

One pass over the findings keeps the counts by kind and by severity, the files and the files that
failed. After any list of findings each of the four is what the list says on its own: how often a
key occurs, or which files occur. So the order of the findings does not matter, and the counts of
two lists add up.
-/

namespace Coupling

open Std (TreeMap TreeSet TransCmp TransOrd LawfulEqOrd)

instance : TransOrd Kind := inferInstanceAs (TransCmp (compareOn Kind.ctorIdx))

instance : LawfulEqOrd Kind where
  eq_of_compare {a b} h := by
    have hidx : a.ctorIdx = b.ctorIdx := Std.compare_eq_iff_eq.mp h
    rw [← Kind.ofNat_ctorIdx a, hidx, Kind.ofNat_ctorIdx]

instance : TransOrd Severity := inferInstanceAs (TransCmp (compareOn Severity.ctorIdx))

instance : LawfulEqOrd Severity where
  eq_of_compare {a b} h := by
    have hidx : a.ctorIdx = b.ctorIdx := Std.compare_eq_iff_eq.mp h
    rw [← Severity.ofNat_ctorIdx a, hidx, Severity.ofNat_ctorIdx]

namespace Summary

/-! ### Counts of keys -/

section Keys

variable {α : Type} [Ord α]

/-- How often each key of a list occurs. -/
def counted (keys : List α) : TreeMap α Nat := keys.foldl countUp ∅

theorem counted_concat (keys : List α) (key : α) :
    counted (keys ++ [key]) = countUp (counted keys) key := by
  rw [counted, List.foldl_append]
  rfl

variable [TransOrd α] [LawfulEqOrd α] [DecidableEq α]

theorem getElem?_counted (keys : List α) (key : α) :
    (counted keys)[key]? = if key ∈ keys then some (keys.count key) else none := by
  induction keys using List.reverseRecOn with
  | nil => simp [counted]
  | append_singleton keys last ih =>
    rw [counted_concat, countUp, TreeMap.getElem?_alter]
    by_cases hlast : last = key
    · subst hlast
      have hbefore : (counted keys)[last]?.getD 0 = keys.count last := by
        rw [ih]
        split
        · rfl
        · rename_i hkey
          exact (List.count_eq_zero_of_not_mem hkey).symm
      rw [if_pos Std.compare_self, hbefore, if_pos (by simp), List.count_append,
        List.count_singleton_self]
    · rw [if_neg (mt Std.compare_eq_iff_eq.mp hlast), ih]
      simp [List.count_append, Ne.symm hlast, hlast]

theorem mem_toList_counted {keys : List α} {key : α} {n : Nat} :
    (key, n) ∈ (counted keys).toList ↔ key ∈ keys ∧ n = keys.count key := by
  rw [TreeMap.mem_toList_iff_getElem?_eq_some, getElem?_counted]
  split
  · rename_i hkey
    simp [hkey, eq_comm]
  · rename_i hkey
    simp [hkey]

theorem mem_keys_counted {keys : List α} {key : α} :
    key ∈ (counted keys).toList.map Prod.fst ↔ key ∈ keys := by
  rw [List.mem_map]
  constructor
  · rintro ⟨⟨_, n⟩, hmem, rfl⟩
    exact (mem_toList_counted.mp hmem).1
  · exact fun hkey => ⟨(key, keys.count key), mem_toList_counted.mpr ⟨hkey, rfl⟩, rfl⟩

omit [LawfulEqOrd α] [DecidableEq α] in
theorem nodup_keys_counted (keys : List α) : ((counted keys).toList.map Prod.fst).Nodup := by
  rw [TreeMap.map_fst_toList_eq_keys]
  exact TreeMap.nodup_keys

theorem lookup_counted (keys : List α) (key : α) :
    ((counted keys).toList.lookup key).getD 0 = keys.count key := by
  cases hlookup : (counted keys).toList.lookup key with
  | none =>
    have hkey : key ∉ keys := by
      rw [← mem_keys_counted, List.mem_map]
      rintro ⟨entry, hentry, rfl⟩
      exact absurd (List.lookup_eq_none_iff.mp hlookup entry hentry) (by simp)
    exact (List.count_eq_zero_of_not_mem hkey).symm
  | some n =>
    obtain ⟨before, after, hsplit, _⟩ := List.lookup_eq_some_iff.mp hlookup
    have hmem : (key, n) ∈ (counted keys).toList := by rw [hsplit]; simp
    exact (mem_toList_counted.mp hmem).2

/-- Every key is counted once. -/
theorem sum_counted (keys : List α) : ((counted keys).toList.map Prod.snd).sum = keys.length := by
  have hcounts : (counted keys).toList.map Prod.snd =
      ((counted keys).toList.map Prod.fst).map (keys.count ·) := by
    rw [List.map_map]
    apply List.map_congr_left
    rintro ⟨key, n⟩ hmem
    exact (mem_toList_counted.mp hmem).2
  have hkeys : ((counted keys).toList.map Prod.fst).Perm keys.dedup := by
    rw [List.perm_ext_iff_of_nodup (nodup_keys_counted keys) keys.nodup_dedup]
    intro key
    rw [mem_keys_counted, List.mem_dedup]
  rw [hcounts, (hkeys.map _).sum_eq, List.sum_map_count_dedup_eq_length]

theorem counted_eq_of_perm {keys keys' : List α} (h : keys.Perm keys') :
    (counted keys).toList = (counted keys').toList := by
  apply TreeMap.Equiv.toList_eq
  apply TreeMap.Equiv.of_forall_constGet?_eq
  intro key
  show (counted keys)[key]? = (counted keys')[key]?
  rw [getElem?_counted, getElem?_counted, h.count_eq]
  simp only [h.mem_iff]

end Keys

/-! ### Files -/

def collected (names : List String) : TreeSet String := names.foldl (·.insert ·) ∅

theorem collected_concat (names : List String) (name : String) :
    collected (names ++ [name]) = (collected names).insert name := by
  rw [collected, List.foldl_append]
  rfl

theorem mem_collected {names : List String} {name : String} :
    name ∈ collected names ↔ name ∈ names := by
  induction names using List.reverseRecOn with
  | nil => simp [collected]
  | append_singleton names last ih =>
    rw [collected_concat, TreeSet.mem_insert, Std.compare_eq_iff_eq, ih, List.mem_append,
      List.mem_singleton, or_comm, eq_comm]

theorem mem_toList_collected {names : List String} {name : String} :
    name ∈ (collected names).toList ↔ name ∈ names := by
  rw [TreeSet.mem_toList, mem_collected]

/-- Files are listed in the order of their bytes. -/
theorem pairwise_collected (names : List String) :
    (collected names).toList.Pairwise fun a b => Text.encode a < Text.encode b := by
  refine TreeSet.ordered_toList.imp fun {a b} hlt => ?_
  have hless := (compareOfLessAndEq_eq_lt (x := a) (y := b)).mp hlt
  exact Text.encode_lt_encode hless

theorem size_collected (names : List String) :
    (collected names).size = names.toFinset.card := by
  have hnodup : (collected names).toList.Nodup := by
    refine (pairwise_collected names).imp fun {a b} hlt => ?_
    rintro rfl
    exact List.lt_irrefl _ hlt
  have hset : (collected names).toList.toFinset = names.toFinset := by
    ext name
    rw [List.mem_toFinset, List.mem_toFinset, mem_toList_collected]
  rw [← TreeSet.length_toList, ← List.toFinset_card_of_nodup hnodup, hset]

theorem collected_eq_of_perm {names names' : List String} (h : names.Perm names') :
    (collected names).toList = (collected names').toList := by
  apply TreeSet.Equiv.toList_eq
  apply TreeSet.Equiv.of_forall_mem_iff
  intro name
  rw [mem_collected, mem_collected, h.mem_iff]

/-! ### The pass -/

/-- Recording a finding adds its kind, its severity and its file, and the file among those that
failed if the finding says so. -/
theorem foldl_record (findings : List Finding) :
    findings.foldl Counts.record {} =
      { byKind := counted (findings.map (·.kind))
        bySeverity := counted (findings.map (·.severity))
        files := collected (findings.map (·.path))
        failed := collected ((findings.filter (·.kind.isFailure)).map (·.path)) } := by
  induction findings using List.reverseRecOn with
  | nil => rfl
  | append_singleton findings f ih =>
    simp only [List.foldl_append, List.foldl_cons, List.foldl_nil, ih, Counts.record,
      List.map_append, List.map_cons, List.map_nil, counted_concat, collected_concat,
      List.filter_append, List.filter_cons, List.filter_nil]
    split
    · rw [List.map_cons, List.map_nil, collected_concat]
    · rw [List.map_nil, List.append_nil]

theorem byKind_ofFindings (findings : List Finding) :
    (ofFindings findings).byKind = (counted (findings.map (·.kind))).toList := by
  rw [ofFindings, foldl_record]

theorem bySeverity_ofFindings (findings : List Finding) :
    (ofFindings findings).bySeverity = (counted (findings.map (·.severity))).toList := by
  rw [ofFindings, foldl_record]

theorem filesAffected_ofFindings (findings : List Finding) :
    (ofFindings findings).filesAffected = (collected (findings.map (·.path))).toList.length := by
  rw [ofFindings, foldl_record, TreeSet.length_toList]

theorem failedFiles_ofFindings (findings : List Finding) :
    (ofFindings findings).failedFiles =
      (collected ((findings.filter (·.kind.isFailure)).map (·.path))).toList := by
  rw [ofFindings, foldl_record]

theorem countOf_ofFindings (findings : List Finding) (kind : Kind) :
    (ofFindings findings).countOf kind = findings.countP (·.kind == kind) := by
  rw [countOf, byKind_ofFindings, lookup_counted, List.count_eq_countP, List.countP_map]
  rfl

theorem countOfSeverity_ofFindings (findings : List Finding) (severity : Severity) :
    (ofFindings findings).countOfSeverity severity =
      findings.countP (·.severity == severity) := by
  rw [countOfSeverity, bySeverity_ofFindings, lookup_counted, List.count_eq_countP,
    List.countP_map]
  rfl

/-- The counts and the files of two summaries are the same. -/
structure SameCounts (s t : Summary) : Prop where
  total_eq : s.total = t.total
  byKind_eq : s.byKind = t.byKind
  bySeverity_eq : s.bySeverity = t.bySeverity
  filesAffected_eq : s.filesAffected = t.filesAffected
  failedFiles_eq : s.failedFiles = t.failedFiles

theorem sameCounts_of_perm {xs ys : List Finding} (h : xs.Perm ys) :
    (ofFindings xs).SameCounts (ofFindings ys) where
  total_eq := h.length_eq
  byKind_eq := by
    rw [byKind_ofFindings, byKind_ofFindings, counted_eq_of_perm (h.map _)]
  bySeverity_eq := by
    rw [bySeverity_ofFindings, bySeverity_ofFindings, counted_eq_of_perm (h.map _)]
  filesAffected_eq := by
    rw [filesAffected_ofFindings, filesAffected_ofFindings, collected_eq_of_perm (h.map _)]
  failedFiles_eq := by
    rw [failedFiles_ofFindings, failedFiles_ofFindings,
      collected_eq_of_perm ((h.filter _).map _)]

/-- The figures of a summary are those of the findings. -/
structure Exact (s : Summary) (findings : List Finding) : Prop where
  total_eq : s.total = findings.length
  sum_byKind : (s.byKind.map Prod.snd).sum = s.total
  sum_bySeverity : (s.bySeverity.map Prod.snd).sum = s.total
  countOf_eq : ∀ kind, s.countOf kind = findings.countP (·.kind == kind)
  countOfSeverity_eq : ∀ severity,
    s.countOfSeverity severity = findings.countP (·.severity == severity)
  nodup_kinds : (s.byKind.map Prod.fst).Nodup
  mem_kinds : ∀ kind, kind ∈ s.byKind.map Prod.fst ↔ ∃ f ∈ findings, f.kind = kind
  nodup_severities : (s.bySeverity.map Prod.fst).Nodup
  mem_severities : ∀ severity,
    severity ∈ s.bySeverity.map Prod.fst ↔ ∃ f ∈ findings, f.severity = severity
  filesAffected_eq : s.filesAffected = (findings.map (·.path)).toFinset.card
  increasing_failedFiles : s.failedFiles.Pairwise fun a b => Text.encode a < Text.encode b
  mem_failedFiles : ∀ path, path ∈ s.failedFiles ↔
    ∃ f ∈ findings, (f.kind = .parseError ∨ f.kind = .processingError) ∧ f.path = path

theorem isFailure_iff (kind : Kind) :
    kind.isFailure = true ↔ kind = .parseError ∨ kind = .processingError := by
  cases kind <;> simp [Kind.isFailure]

theorem exact_ofFindings (findings : List Finding) : (ofFindings findings).Exact findings where
  total_eq := rfl
  sum_byKind := by rw [byKind_ofFindings, sum_counted, List.length_map]; rfl
  sum_bySeverity := by rw [bySeverity_ofFindings, sum_counted, List.length_map]; rfl
  countOf_eq := countOf_ofFindings findings
  countOfSeverity_eq := countOfSeverity_ofFindings findings
  nodup_kinds := by rw [byKind_ofFindings]; exact nodup_keys_counted _
  mem_kinds kind := by rw [byKind_ofFindings, mem_keys_counted, List.mem_map]
  nodup_severities := by rw [bySeverity_ofFindings]; exact nodup_keys_counted _
  mem_severities severity := by rw [bySeverity_ofFindings, mem_keys_counted, List.mem_map]
  filesAffected_eq := by
    rw [filesAffected_ofFindings, TreeSet.length_toList, size_collected]
  increasing_failedFiles := by rw [failedFiles_ofFindings]; exact pairwise_collected _
  mem_failedFiles path := by
    rw [failedFiles_ofFindings, mem_toList_collected, List.mem_map]
    simp only [List.mem_filter, isFailure_iff, and_assoc]

/-- The figures of a summary are those of its findings, in whatever order they come, and the counts
of two lists of findings add up. -/
theorem exact_in_any_order (findings : List Finding) :
    (ofFindings findings).Exact findings ∧
    (∀ reordered : List Finding, findings.Perm reordered →
      (ofFindings findings).SameCounts (ofFindings reordered)) ∧
    ∀ more : List Finding,
      (ofFindings (findings ++ more)).total =
        (ofFindings findings).total + (ofFindings more).total ∧
      (∀ kind, (ofFindings (findings ++ more)).countOf kind =
        (ofFindings findings).countOf kind + (ofFindings more).countOf kind) ∧
      ∀ severity, (ofFindings (findings ++ more)).countOfSeverity severity =
        (ofFindings findings).countOfSeverity severity +
          (ofFindings more).countOfSeverity severity := by
  refine ⟨exact_ofFindings findings, fun reordered => sameCounts_of_perm, fun more =>
    ⟨List.length_append, fun kind => ?_, fun severity => ?_⟩⟩
  · rw [countOf_ofFindings, countOf_ofFindings, countOf_ofFindings, List.countP_append]
  · rw [countOfSeverity_ofFindings, countOfSeverity_ofFindings, countOfSeverity_ofFindings,
      List.countP_append]

/-- Two literals in one file, and another file that could not be read. -/
def mixedFindings : List Finding :=
  [.new .meaning .high "a.py" ⟨3, 4⟩ "Magic literal '7' should be a named constant" "" [],
   .new .processingError .critical "b.py" .fileStart "Failed to process file" "" [],
   .new .meaning .low "a.py" ⟨9, 0⟩ "Magic literal '8' should be a named constant" "" []]

theorem exact_in_any_order_mixedFindings :
    (ofFindings mixedFindings.reverse).total = 3 ∧
    (ofFindings mixedFindings.reverse).byKind = (ofFindings mixedFindings).byKind ∧
    (ofFindings mixedFindings).countOf .meaning = 2 ∧
    (ofFindings mixedFindings).filesAffected = 2 ∧
    ∀ path, path ∈ (ofFindings mixedFindings).failedFiles ↔ path = "b.py" := by
  obtain ⟨hexact, horder, _⟩ := exact_in_any_order mixedFindings
  have hsame := horder mixedFindings.reverse mixedFindings.reverse_perm.symm
  refine ⟨hsame.total_eq.symm, hsame.byKind_eq.symm, ?_, ?_, fun path => ?_⟩
  · exact (hexact.countOf_eq .meaning).trans (by decide)
  · exact hexact.filesAffected_eq.trans (by decide)
  · rw [hexact.mem_failedFiles]
    simp [mixedFindings, Finding.new, eq_comm]

end Summary

end Coupling
