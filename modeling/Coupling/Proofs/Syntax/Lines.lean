import Coupling.Proofs.Syntax.Places
import Coupling.Proofs.Text.Lines
import Mathlib.Data.List.Intervals

/-!
# Lines as bytes

A file is cut at its newline bytes. No byte of a longer character is a newline or a return, so the
lines of the text are the pieces of the bytes, and the table of offsets has no hole: a range of
lines is cut off only where the file ends.
-/

namespace Coupling

namespace Text

/-- The bytes without one carriage return at their end. -/
def withoutReturn (bytes : Bytes) : Bytes :=
  if bytes.getLast? = some 0x0d then bytes.dropLast else bytes

theorem splitOn_append_of_notMem {first : Bytes} (hfirst : 0x0a ∉ first) (rest : Bytes) :
    (first ++ rest).splitOn 0x0a = (rest.splitOn 0x0a).modifyHead (first ++ ·) := by
  induction first with
  | nil => cases h : rest.splitOn 0x0a <;> simp [h]
  | cons b first ih =>
    rw [List.mem_cons, not_or] at hfirst
    have hb : (b == 0x0a) = false := beq_false_of_ne (Ne.symm hfirst.1)
    rw [List.cons_append, List.splitOn_cons_eq_if_modifyHead, hb, ih hfirst.2,
      List.modifyHead_modifyHead]
    rfl

/-- Cutting a text at its newlines cuts its bytes at theirs. -/
theorem splitOn_flatMap (cs : List Char) :
    (cs.flatMap String.utf8EncodeChar).splitOn 0x0a =
      (pieces cs).map (·.flatMap String.utf8EncodeChar) := by
  induction cs with
  | nil => rfl
  | cons c cs ih =>
    rw [List.flatMap_cons]
    by_cases hc : c = '\n'
    · subst hc
      rw [pieces, if_pos rfl, List.map_cons, ← ih]
      exact List.splitOn_cons_eq_if_modifyHead _ _
    · rw [splitOn_append_of_notMem (mt newline_mem_utf8EncodeChar_iff.mp hc), ih, pieces, if_neg hc]
      cases hpieces : pieces cs with
      | nil => simpa [hpieces] using length_pieces 0 cs
      | cons piece rest => rfl

theorem getLast?_flatMap_concat (cs : List Char) (c : Char) :
    ((cs ++ [c]).flatMap String.utf8EncodeChar).getLast? = (String.utf8EncodeChar c).getLast? := by
  rw [List.flatMap_append, List.flatMap_singleton, List.getLast?_append]
  cases hlast : (String.utf8EncodeChar c).getLast? with
  | none => exact absurd (List.getLast?_eq_none_iff.mp hlast) String.utf8EncodeChar_ne_nil
  | some b => rfl

/-- A return at the end of a text is a return at the end of its bytes. -/
theorem withoutReturn_flatMap (cs : List Char) :
    withoutReturn (cs.flatMap String.utf8EncodeChar) =
      (dropReturn cs).flatMap String.utf8EncodeChar := by
  induction cs using List.reverseRecOn with
  | nil => rfl
  | append_singleton cs c _ =>
    rw [withoutReturn, dropReturn, getLast?_flatMap_concat, List.getLast?_concat]
    by_cases hc : c = '\r'
    · subst hc
      have hbyte : (String.utf8EncodeChar '\r').getLast? = some 0x0d := by decide
      rw [if_pos hbyte, if_pos rfl, List.dropLast_concat, List.flatMap_append]
      exact List.dropLast_concat
    · have hbyte : (String.utf8EncodeChar c).getLast? ≠ some 0x0d := by
        intro hlast
        have hmem := List.mem_of_getLast? hlast
        rw [mem_utf8EncodeChar_iff (by decide)] at hmem
        exact hc (Char.toNat_inj.mp hmem)
      rw [if_neg hbyte, if_neg (by simpa using hc)]

end Text

namespace Syntax.SourceText

open Text

theorem length_starts_ofChars (cs : List Char) :
    (ofChars cs).starts.length = (cs.flatMap String.utf8EncodeChar).count 0x0a + 1 := by
  show (0 :: startsAfter 0 cs).length = _
  rw [List.length_cons, startsAfter_eq, length_byteStarts]

theorem encode_line?_succ (cs : List Char) (k : Nat) :
    ((ofChars cs).line? (k + 1)).map encode =
      ((cs.flatMap String.utf8EncodeChar).splitOn 0x0a)[k]?.map withoutReturn := by
  have hencode : (encode ∘ fun piece => String.ofList (dropReturn piece)) =
      withoutReturn ∘ (·.flatMap String.utf8EncodeChar) := by
    funext piece
    simp only [Function.comp_apply]
    rw [encode_ofList, withoutReturn_flatMap]
  rw [line?_succ, splitOn_flatMap, List.getElem?_map, Option.map_map, Option.map_map, hencode]
  rfl

/-- The lines of a file are the pieces of its bytes between newlines, each without one return at its
end, and there are no others. The offset after a newline is not zero, so the end of the line before
it can be found. A range of lines is all of them that the file has. -/
theorem lines_are_pieces {bytes : Bytes} {cs : List Char} (hdecode : decode? bytes = some cs) :
    (bytes.splitOn 0x0a).length = bytes.count 0x0a + 1 ∧
    (∀ n, ((ofChars cs).line? n).map encode =
      if 1 ≤ n ∧ n ≤ bytes.count 0x0a + 1 then (bytes.splitOn 0x0a)[n - 1]?.map withoutReturn
      else none) ∧
    (∀ next ∈ (ofChars cs).starts.tail, 0 < next) ∧
    ∀ first last, ((ofChars cs).linesBetween first last).map some =
      (List.Ico (max first 1) (min last (bytes.count 0x0a + 1) + 1)).map (ofChars cs).line? := by
  obtain rfl := decode?_eq_some_iff.mp hdecode
  have hlength := length_starts_ofChars cs
  refine ⟨?_, fun n => ?_, fun next hnext => ?_, fun first last => ?_⟩
  · rw [splitOn_flatMap, List.length_map, length_pieces 0, ← hlength]
    rfl
  · split
    · rename_i hn
      obtain ⟨k, rfl⟩ : ∃ k, n = k + 1 := ⟨n - 1, by omega⟩
      exact encode_line?_succ cs k
    · rename_i hn
      cases n with
      | zero => rfl
      | succ k => rw [line?_eq_none (by omega), Option.map_none]
  · have hmem : next ∈ startsAfter 0 cs := hnext
    rw [startsAfter_eq] at hmem
    exact lt_of_mem_byteStarts hmem
  · rw [map_some_linesBetween, hlength]
    rfl

/-- Four lines, with a return that is kept, others that are not, and characters of two and three
bytes. -/
def foreignLines : Bytes := encode "é\r\r\n€ = 1\n\r\nx"

theorem lines_are_pieces_foreignLines :
    ∃ cs, decode? foreignLines = some cs ∧ foreignLines.count 0x0a = 3 ∧
      ((ofChars cs).line? 1).map encode = some [0xc3, 0xa9, 0x0d] ∧
      (ofChars cs).line? 5 = none ∧
      ((ofChars cs).linesBetween 0 (Nat.pow 2 64 - 1)).length = 4 := by
  obtain ⟨cs, hcs⟩ : ∃ cs, decode? foreignLines = some cs := by
    have hsome : (decode? foreignLines).isSome = true := by decide +kernel
    exact Option.isSome_iff_exists.mp hsome
  obtain ⟨_, hline, _, hbetween⟩ := lines_are_pieces hcs
  have hcount : foreignLines.count 0x0a = 3 := by decide +kernel
  rw [hcount] at hline hbetween
  refine ⟨cs, hcs, hcount, ?_, ?_, ?_⟩
  · rw [hline 1]
    decide +kernel
  · exact Option.map_eq_none_iff.mp ((hline 5).trans (if_neg (by decide)))
  · have hlength := congrArg List.length (hbetween 0 (Nat.pow 2 64 - 1))
    rw [List.length_map, List.length_map, List.Ico.length] at hlength
    exact hlength

end Syntax.SourceText

end Coupling
