import Coupling.Proofs.Json.Unambiguous
import Coupling.Settings.Decode
import Coupling.Settings.Validate

/-!
# Limits as text

Valid limits are told apart by the text they are written as.
-/

namespace Coupling.Settings

open Number

theorem numberIssues_of_valid {s : Settings} (h : s.issues = []) : numberIssues s.limits = [] := by
  simp only [issues, List.append_eq_nil_iff] at h
  exact h.1.1.1.1.2

theorem finite_of_mem_allowedNumbers {l : Limits} (h : numberIssues l = []) {x : Float}
    (hx : x ∈ l.allowedNumbers) : ∃ d, Binary64.ofFloat x = .finite d := by
  obtain ⟨i, hi⟩ := List.mem_iff_getElem?.mp hx
  have hnone := List.flatMap_eq_nil_iff.mp h (x, i) (List.mem_zipIdx_iff_getElem?.mpr hi)
  cases hvalue : Binary64.ofFloat x with
  | finite d => exact ⟨d, rfl⟩
  | infinite negative => simp [hvalue, Binary64.isFinite] at hnone
  | nan => simp [hvalue, Binary64.isFinite] at hnone

theorem finite_encodeLimits {l : Limits} (h : numberIssues l = []) : (encodeLimits l).Finite := by
  have hnumbers : (Json.arr (l.allowedNumbers.map .float)).Finite := by
    refine .arr fun j hj => ?_
    obtain ⟨x, hx, rfl⟩ := List.mem_map.mp hj
    obtain ⟨d, hd⟩ := finite_of_mem_allowedNumbers h hx
    exact .float hd
  have htexts : ∀ texts : List String, (Json.arr (texts.map .str)).Finite := by
    refine fun texts => .arr fun j hj => ?_
    obtain ⟨s, _, rfl⟩ := List.mem_map.mp hj
    exact .str s
  refine .obj ?_
  simp only [List.forall_mem_cons, List.not_mem_nil, false_implies, implies_true, and_true]
  exact ⟨.int _, .int _, .int _, .int _, .int _, .int _, .int _, hnumbers, htexts _, .int _,
    htexts _, .int _, .int _, .int _, .bool _⟩

theorem encodeLimits_injective {l l' : Limits} (h : encodeLimits l = encodeLimits l') : l = l' := by
  have hfloat : Function.Injective Json.float := fun _ _ => Json.float.inj
  have hstr : Function.Injective Json.str := fun _ _ => Json.str.inj
  cases l
  cases l'
  simpa [encodeLimits, Json.nat, List.map_inj_right, hfloat.eq_iff, hstr.eq_iff] using h

theorem eq_of_compress_eq {l l' : Limits} (hl : numberIssues l = []) (hl' : numberIssues l' = [])
    (h : (encodeLimits l).compress = (encodeLimits l').compress) : l = l' :=
  encodeLimits_injective
    (Json.compress_injective (finite_encodeLimits hl) (finite_encodeLimits hl') h)

end Coupling.Settings
