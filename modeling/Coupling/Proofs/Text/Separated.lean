import Mathlib.Data.List.Basic

/-!
# Texts put together from parts

What is written before a separator can be told from what follows it, if it does not hold the
separator itself. A number in decimal digits is such a part.
-/

namespace Coupling.Text

/-- The first occurrence of a separator splits a list in one way only. -/
theorem append_cons_inj {α : Type} {a : α} {first first' rest rest' : List α} (hfirst : a ∉ first)
    (hfirst' : a ∉ first') (h : first ++ a :: rest = first' ++ a :: rest') :
    first = first' ∧ rest = rest' := by
  induction first generalizing first' with
  | nil =>
    cases first' with
    | nil => simpa using h
    | cons x tail =>
      rw [List.nil_append, List.cons_append, List.cons.injEq] at h
      exact absurd (h.1 ▸ List.mem_cons_self) hfirst'
  | cons x tail ih =>
    cases first' with
    | nil =>
      rw [List.nil_append, List.cons_append, List.cons.injEq] at h
      exact absurd (h.1 ▸ List.mem_cons_self) hfirst
    | cons x' tail' =>
      rw [List.cons_append, List.cons_append, List.cons.injEq] at h
      obtain ⟨htail, hrest⟩ := ih (fun hmem => hfirst (List.mem_cons_of_mem x hmem))
        (fun hmem => hfirst' (List.mem_cons_of_mem x' hmem)) h.2
      exact ⟨by rw [h.1, htail], hrest⟩

theorem isDigit_of_mem_toDigits {n : Nat} {c : Char} (hc : c ∈ Nat.toDigits 10 n) :
    c.isDigit = true :=
  Nat.isDigit_of_mem_toDigits (by decide) (by decide) hc

theorem toDigits_injective {m n : Nat} (h : Nat.toDigits 10 m = Nat.toDigits 10 n) : m = n := by
  calc m = Nat.ofDigitChars 10 (Nat.toDigits 10 m) 0 := Nat.ofDigitChars_ten_toDigits.symm
    _ = Nat.ofDigitChars 10 (Nat.toDigits 10 n) 0 := by rw [h]
    _ = n := Nat.ofDigitChars_ten_toDigits

theorem toList_toString (n : Nat) : (toString n).toList = Nat.toDigits 10 n := by
  rw [Nat.toString_eq_ofList_toDigits, String.toList_ofList]

theorem isDigit_of_mem_toString {n : Nat} {c : Char} (hc : c ∈ (toString n).toList) :
    c.isDigit = true :=
  isDigit_of_mem_toDigits (toList_toString n ▸ hc)

theorem toString_nat_injective {m n : Nat} (h : (toString m).toList = (toString n).toList) :
    m = n := by
  rw [toList_toString, toList_toString] at h
  exact toDigits_injective h

end Coupling.Text
