import Coupling.Proofs.Text.Utf8
import Coupling.Syntax.Source
import Mathlib.Data.List.Induction
import Mathlib.Data.List.TakeWhile
import Mathlib.Order.Basic

/-!
# Places in a file

The place of an offset is found in the list of the offsets at which lines start. Read off the bytes
directly, it counts the newlines before the offset and the bytes since the last of them; no two
offsets have the same place.
-/

namespace Coupling

namespace Text

/-- Bytes up to the start of the last line. -/
def lastLineStart (bytes : Bytes) : Nat := (bytes.reverse.dropWhile (· ≠ 0x0a)).length

/-- The place of an offset: the newlines before it, and the bytes since the last of them. -/
def placeAt (bytes : Bytes) (offset : Nat) : Place where
  line := (bytes.take offset).count 0x0a + 1
  column := offset - lastLineStart (bytes.take offset)

theorem one_le_line_placeAt (bytes : Bytes) (offset : Nat) : 1 ≤ (placeAt bytes offset).line :=
  Nat.le_add_left 1 _

theorem line_placeAt_le (bytes : Bytes) (offset : Nat) :
    (placeAt bytes offset).line ≤ bytes.count 0x0a + 1 :=
  Nat.add_le_add_right ((List.take_sublist offset bytes).count_le 0x0a) 1

theorem line_placeAt_mono (bytes : Bytes) {offset offset' : Nat} (h : offset ≤ offset') :
    (placeAt bytes offset).line ≤ (placeAt bytes offset').line :=
  Nat.add_le_add_right ((List.take_sublist_take_left h).count_le 0x0a) 1

/-- Offsets just after the newlines of some bytes, the first of which has offset `here`. -/
def byteStarts (here : Nat) : Bytes → List Nat
  | [] => []
  | b :: bytes =>
    if b = 0x0a then (here + 1) :: byteStarts (here + 1) bytes else byteStarts (here + 1) bytes

theorem byteStarts_append (here : Nat) (first second : Bytes) :
    byteStarts here (first ++ second) =
      byteStarts here first ++ byteStarts (here + first.length) second := by
  induction first generalizing here with
  | nil => rfl
  | cons b first ih =>
    rw [List.cons_append, byteStarts, byteStarts, ih, List.length_cons, Nat.add_right_comm here,
      Nat.add_assoc here]
    split <;> rfl

theorem byteStarts_eq_nil {here : Nat} {bytes : Bytes} (h : 0x0a ∉ bytes) :
    byteStarts here bytes = [] := by
  induction bytes generalizing here with
  | nil => rfl
  | cons b bytes ih =>
    rw [List.mem_cons, not_or] at h
    rw [byteStarts, if_neg (Ne.symm h.1), ih h.2]

theorem length_byteStarts (here : Nat) (bytes : Bytes) :
    (byteStarts here bytes).length = bytes.count 0x0a := by
  induction bytes generalizing here with
  | nil => rfl
  | cons b bytes ih =>
    rw [byteStarts, List.count_cons]
    split
    · rename_i hb
      simp [ih, hb]
    · rename_i hb
      simp [ih, hb]

theorem newline_mem_utf8EncodeChar_iff {c : Char} :
    0x0a ∈ String.utf8EncodeChar c ↔ c = '\n' := by
  rw [mem_utf8EncodeChar_iff (by decide)]
  exact Char.toNat_inj (d := '\n')

/-- The starts of lines are the same in the characters and in their bytes. -/
theorem startsAfter_eq (here : Nat) (cs : List Char) :
    startsAfter here cs = byteStarts here (cs.flatMap String.utf8EncodeChar) := by
  induction cs generalizing here with
  | nil => rfl
  | cons c cs ih =>
    rw [startsAfter, List.flatMap_cons, byteStarts_append, String.length_utf8EncodeChar, ih]
    by_cases hc : c = '\n'
    · subst hc
      rfl
    · rw [if_neg hc, byteStarts_eq_nil (mt newline_mem_utf8EncodeChar_iff.mp hc)]
      rfl

theorem lt_of_mem_byteStarts {here start : Nat} {bytes : Bytes}
    (h : start ∈ byteStarts here bytes) : here < start := by
  induction bytes generalizing here with
  | nil => simp [byteStarts] at h
  | cons b bytes ih =>
    rw [byteStarts] at h
    split at h
    · rcases List.mem_cons.mp h with rfl | h
      · exact Nat.lt_succ_self here
      · exact Nat.lt_of_succ_lt (ih h)
    · exact Nat.lt_of_succ_lt (ih h)

/-- The starts up to an offset are those among the bytes before it. -/
theorem takeWhile_byteStarts {here offset : Nat} (hle : here ≤ offset) (bytes : Bytes) :
    (byteStarts here bytes).takeWhile (· ≤ offset) =
      byteStarts here (bytes.take (offset - here)) := by
  induction bytes generalizing here with
  | nil => rw [List.take_nil, byteStarts, List.takeWhile_nil]
  | cons b bytes ih =>
    rcases Nat.eq_or_lt_of_le hle with rfl | hlt
    · rw [Nat.sub_self, List.take_zero, byteStarts, List.takeWhile_eq_nil_iff]
      intro hpos hstart
      have hmem := lt_of_mem_byteStarts (List.getElem_mem hpos)
      simp at hstart
      omega
    · have htake : (b :: bytes).take (offset - here) = b :: bytes.take (offset - (here + 1)) := by
        obtain ⟨k, rfl⟩ := Nat.exists_eq_add_of_lt hlt
        rw [show here + k + 1 - here = k + 1 by omega, List.take_succ_cons]
        congr 2
        omega
      rw [htake, byteStarts, byteStarts, ← ih hlt]
      split
      · rw [List.takeWhile_cons_of_pos (by rw [decide_eq_true_iff]; exact hlt)]
      · rfl

/-- The last start is that of the last line. -/
theorem getLastD_byteStarts (bytes : Bytes) :
    (0 :: byteStarts 0 bytes).getLastD 0 = lastLineStart bytes := by
  induction bytes using List.reverseRecOn with
  | nil => rfl
  | append_singleton bytes b ih =>
    rw [byteStarts_append, lastLineStart, List.reverse_append, List.reverse_singleton,
      List.singleton_append, byteStarts, Nat.zero_add]
    by_cases hb : b = 0x0a
    · rw [if_pos hb, List.dropWhile_cons_of_neg (by simpa using hb)]
      simp [byteStarts, List.getLastD_eq_getLast?, List.getLast?_cons]
    · rw [if_neg hb, List.dropWhile_cons_of_pos (by simpa using hb)]
      simpa [byteStarts, lastLineStart] using ih

end Text

namespace Syntax

open Text

/-- A place, found among the starts of the lines, is the one that the bytes show. -/
theorem SourceText.place_ofChars (cs : List Char) (offset : Nat) :
    (SourceText.ofChars cs).place offset = placeAt (cs.flatMap String.utf8EncodeChar) offset := by
  have hbefore : (SourceText.ofChars cs).starts.takeWhile (· ≤ offset) =
      0 :: byteStarts 0 ((cs.flatMap String.utf8EncodeChar).take offset) := by
    show (0 :: startsAfter 0 cs).takeWhile (· ≤ offset) = _
    rw [List.takeWhile_cons_of_pos (by simp), startsAfter_eq,
      takeWhile_byteStarts (Nat.zero_le offset), Nat.sub_zero]
  rw [place, hbefore, placeAt, getLastD_byteStarts, List.length_cons, length_byteStarts]

theorem placeAfter_take {bytes : Bytes} {n : Nat} (hn : n ≤ bytes.length) :
    placeAfter (bytes.take n) = placeAt bytes n := by
  have hparts := congrArg List.length
    (List.takeWhile_append_dropWhile (p := (· ≠ (0x0a : UInt8))) (l := (bytes.take n).reverse))
  rw [List.length_append, List.length_reverse, List.length_take_of_le hn] at hparts
  rw [placeAfter, placeAt, lastLineStart, Place.mk.injEq]
  exact ⟨rfl, by omega⟩

/-- Different offsets have different places. -/
theorem SourceText.place_injective {text : SourceText} {offset offset' : Nat}
    (h : text.place offset = text.place offset') : offset = offset' := by
  have hstart : ∀ o, (text.starts.takeWhile (· ≤ o)).getLastD 0 ≤ o := by
    intro o
    cases hlast : (text.starts.takeWhile (· ≤ o)).getLast? with
    | none => simp [List.getLastD_eq_getLast?, hlast]
    | some start =>
      have hmem := List.mem_takeWhile_imp (List.mem_of_getLast? hlast)
      simpa [List.getLastD_eq_getLast?, hlast] using hmem
  rw [place, place, Place.mk.injEq] at h
  -- Two beginnings of one list that are equally long are the same.
  have hsame : text.starts.takeWhile (· ≤ offset) = text.starts.takeWhile (· ≤ offset') :=
    (List.prefix_of_prefix_length_le (List.takeWhile_prefix _) (List.takeWhile_prefix _)
      h.1.le).eq_of_length h.1
  have hfirst := hstart offset
  have hsecond := hstart offset'
  rw [← hsame] at hsecond h
  omega

end Syntax

end Coupling
