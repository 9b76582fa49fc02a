import Coupling.Batch.Report
import Coupling.Proofs.Finding.Summary
import Mathlib.Data.List.Perm.Basic

/-!
# The order of outcomes

Outcomes arrive in some order. The findings of a report are sorted by the text of their path, their
place and their identity, and its figures count. What the findings are sorted by comes in one order,
whatever the order of the outcomes; so do the findings themselves, as long as those that agree in
what they are sorted by are the same.
-/

namespace Coupling

/-- Lists with the same members sort to the same list if no two different members tie. -/
theorem mergeSort_eq_of_perm {α : Type} {le : α → α → Bool} {xs ys : List α} (h : xs.Perm ys)
    (htrans : ∀ a b c, le a b = true → le b c = true → le a c = true)
    (htotal : ∀ a b, (le a b || le b a) = true)
    (hties : ∀ a ∈ xs, ∀ b ∈ xs, le a b = true → le b a = true → a = b) :
    xs.mergeSort le = ys.mergeSort le := by
  have hsorted : (xs.mergeSort le).Perm (ys.mergeSort le) :=
    (List.mergeSort_perm xs le).trans (h.trans (List.mergeSort_perm ys le).symm)
  refine hsorted.eq_of_pairwise (fun a b ha hb => ?_) (List.pairwise_mergeSort htrans htotal xs)
    (List.pairwise_mergeSort htrans htotal ys)
  rw [List.mem_mergeSort] at ha hb
  exact hties a ha b (h.mem_iff.mpr hb)

/-! ### Findings -/

namespace Finding

/-- What findings are sorted by. -/
def rank (v : Finding) : String × Nat × Nat × String :=
  (v.path, v.place.line, v.place.column, v.id)

/-- The comparison of ranks. -/
def order : String × Nat × Nat × String → String × Nat × Nat × String → Ordering :=
  compareLex (compareOn (·.1)) <| compareLex (compareOn (·.2.1)) <|
    compareLex (compareOn (·.2.2.1)) (compareOn (·.2.2.2))

theorem precedes_eq (a b : Finding) : a.precedes b = (order a.rank b.rank).isLE := rfl

instance : Std.TransCmp order := by
  unfold order
  infer_instance

theorem order_total (x y : String × Nat × Nat × String) :
    ((order x y).isLE || (order y x).isLE) = true := by
  have hswap : order y x = (order x y).swap := Std.OrientedCmp.eq_swap
  rw [hswap]
  cases order x y <;> rfl

theorem order_antisymm {x y : String × Nat × Nat × String} (hxy : (order x y).isLE = true)
    (hyx : (order y x).isLE = true) : x = y := by
  have htie := Std.OrientedCmp.isLE_antisymm hxy hyx
  simp only [order, compareLex, compareOn, Ordering.then_eq_eq, Std.compare_eq_iff_eq] at htie
  obtain ⟨hpath, hline, hcolumn, hid⟩ := htie
  exact Prod.ext hpath (Prod.ext hline (Prod.ext hcolumn hid))

end Finding

/-! ### Reports -/

namespace Report

variable {r s : Report}

theorem findings_perm (h : r.outcomes.Perm s.outcomes) : r.findings.Perm s.findings :=
  h.flatMap_right _

theorem sortedFindings_perm (h : r.outcomes.Perm s.outcomes) :
    r.sortedFindings.Perm s.sortedFindings :=
  (List.mergeSort_perm _ _).trans ((findings_perm h).trans (List.mergeSort_perm _ _).symm)

/-- The ranks of the sorted findings do not depend on the order of the outcomes. -/
theorem ranks_sortedFindings_eq (h : r.outcomes.Perm s.outcomes) :
    r.sortedFindings.map Finding.rank = s.sortedFindings.map Finding.rank := by
  have hranks : ∀ findings : List Finding, (findings.mergeSort Finding.precedes).map Finding.rank =
      (findings.map Finding.rank).mergeSort fun x y => (Finding.order x y).isLE :=
    fun findings => List.map_mergeSort fun a _ b _ => Finding.precedes_eq a b
  rw [sortedFindings, sortedFindings, hranks, hranks]
  exact mergeSort_eq_of_perm ((findings_perm h).map _) (fun _ _ _ => Std.TransCmp.isLE_trans)
    Finding.order_total fun _ _ _ _ => Finding.order_antisymm

/-- Neither do the findings, if no two different ones have the same rank. -/
theorem sortedFindings_eq (h : r.outcomes.Perm s.outcomes)
    (hties : ∀ v ∈ r.findings, ∀ u ∈ r.findings, v.path = u.path → v.id = u.id → v = u) :
    r.sortedFindings = s.sortedFindings := by
  refine mergeSort_eq_of_perm (findings_perm h) (fun a b c => ?_)
    (fun a b => Finding.order_total a.rank b.rank) fun v hv u hu hvu huv => ?_
  · simp only [Finding.precedes_eq]
    exact Std.TransCmp.isLE_trans
  · rw [Finding.precedes_eq] at hvu huv
    have hrank := Finding.order_antisymm hvu huv
    simp only [Finding.rank, Prod.mk.injEq] at hrank
    exact hties v hv u hu hrank.1 hrank.2.2.2

theorem meter_eq (h : r.outcomes.Perm s.outcomes) : r.meter = s.meter := by
  have hcomm : RightCommutative fun (m : Meter) (o : Outcome) => m.record o.lines o.hit :=
    ⟨fun m first second => by simp only [Meter.record, Nat.add_right_comm]⟩
  rw [meter, meter]
  exact h.foldl_eq _

theorem summary_sameCounts (h : r.outcomes.Perm s.outcomes) : r.summary.SameCounts s.summary :=
  Summary.sameCounts_of_perm (findings_perm h)

end Report

end Coupling
