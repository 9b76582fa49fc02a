import Coupling.Syntax.Source

/-!
# Lines of a text

A text is cut at its newlines. The offsets at which its lines start cut it in the same places, so
every number from one to the number of offsets has a line: the piece of that number, without the
return that belongs to its ending.
-/

namespace Coupling

namespace Text

/-! ### Slices between characters -/

theorem byteSize_append (first second : List Char) :
    byteSize (first ++ second) = byteSize first + byteSize second := by
  induction first with
  | nil => exact (Nat.zero_add _).symm
  | cons c first ih =>
    show c.utf8Size + byteSize (first ++ second) = c.utf8Size + byteSize first + byteSize second
    rw [ih, Nat.add_assoc]

/-- The bytes of a text that is not empty are one more than some number. -/
theorem exists_byteSize_cons (c : Char) (cs : List Char) :
    ∃ n, byteSize (c :: cs) = n + 1 ∧ c.utf8Size ≤ n + 1 ∧ n + 1 - c.utf8Size = byteSize cs := by
  have hpos := c.utf8Size_pos
  have hsize : byteSize (c :: cs) = c.utf8Size + byteSize cs := rfl
  exact ⟨c.utf8Size + byteSize cs - 1, by omega, by omega, by omega⟩

theorem dropBytes?_append (first rest : List Char) :
    dropBytes? (byteSize first) (first ++ rest) = some rest := by
  induction first with
  | nil => cases rest <;> rfl
  | cons c first ih =>
    obtain ⟨n, hn, hle, hrest⟩ := exists_byteSize_cons c first
    rw [hn, List.cons_append, dropBytes?, if_pos hle, hrest, ih]

theorem takeBytes?_append (first rest : List Char) :
    takeBytes? (byteSize first) (first ++ rest) = some first := by
  induction first with
  | nil => cases rest <;> rfl
  | cons c first ih =>
    obtain ⟨n, hn, hle, hrest⟩ := exists_byteSize_cons c first
    rw [hn, List.cons_append, takeBytes?, if_pos hle, hrest, ih, Option.map_some]

theorem slice?_append (before middle after : List Char) :
    slice? (before ++ (middle ++ after)) (byteSize before) (byteSize before + byteSize middle) =
      some middle := by
  rw [slice?, if_pos (Nat.le_add_right _ _), dropBytes?_append, Option.bind_some,
    Nat.add_sub_cancel_left, takeBytes?_append]

/-! ### Pieces and starts -/

/-- Either a text is one piece, or it is a piece, a newline and the text of the other lines. -/
theorem pieces_cases (here : Nat) (cs : List Char) :
    (pieces cs = [cs] ∧ startsAfter here cs = []) ∨
      ∃ piece rest, cs = piece ++ '\n' :: rest ∧ pieces cs = piece :: pieces rest ∧
        startsAfter here cs = (here + byteSize piece + 1) ::
          startsAfter (here + byteSize piece + 1) rest := by
  induction cs generalizing here with
  | nil => exact .inl ⟨rfl, rfl⟩
  | cons c cs ih =>
    by_cases hc : c = '\n'
    · subst hc
      exact .inr ⟨[], cs, rfl, rfl, rfl⟩
    · have hstarts : startsAfter here (c :: cs) = startsAfter (here + c.utf8Size) cs := by
        rw [startsAfter, if_neg hc]
      obtain ⟨hpieces, hnone⟩ | ⟨piece, rest, hcs, hpieces, hsome⟩ := ih (here + c.utf8Size)
      · refine .inl ⟨?_, hstarts.trans hnone⟩
        rw [pieces, if_neg hc, hpieces]
      · refine .inr ⟨c :: piece, rest, by rw [hcs, List.cons_append], ?_, ?_⟩
        · rw [pieces, if_neg hc, hpieces]
        · have hsize : byteSize (c :: piece) = c.utf8Size + byteSize piece := rfl
          rw [hstarts, hsome, hsize, ← Nat.add_assoc]

theorem length_pieces (here : Nat) (cs : List Char) :
    (pieces cs).length = (startsAfter here cs).length + 1 := by
  induction cs generalizing here with
  | nil => rfl
  | cons c cs ih =>
    by_cases hc : c = '\n'
    · rw [pieces, startsAfter, if_pos hc, if_pos hc, List.length_cons, List.length_cons, ih]
    · rw [pieces, startsAfter, if_neg hc, if_neg hc, ← ih]
      cases hpieces : pieces cs with
      | nil => simpa [hpieces] using ih here
      | cons piece rest => rfl

/-- The text between two neighbouring starts, short of the newline, is the piece there. -/
theorem slice?_starts (before cs : List Char) (k : Nat) :
    ((byteSize before :: startsAfter (byteSize before) cs)[k]?.bind fun start =>
      slice? (before ++ cs) start
        (((byteSize before :: startsAfter (byteSize before) cs)[k + 1]?.map (· - 1)).getD
          (byteSize (before ++ cs)))) = (pieces cs)[k]? := by
  induction k generalizing before cs with
  | zero =>
    obtain ⟨hpieces, hnone⟩ | ⟨piece, rest, rfl, hpieces, hsome⟩ :=
      pieces_cases (byteSize before) cs
    · have hslice := slice?_append before cs []
      rw [List.append_nil, ← byteSize_append] at hslice
      simp [hpieces, hnone, hslice]
    · simp [hpieces, hsome, slice?_append]
  | succ k ih =>
    obtain ⟨hpieces, hnone⟩ | ⟨piece, rest, rfl, hpieces, hsome⟩ :=
      pieces_cases (byteSize before) cs
    · simp [hpieces, hnone]
    · -- The newline belongs to what has been passed.
      have hbefore : byteSize (before ++ piece ++ ['\n']) =
          byteSize before + byteSize piece + 1 := by
        rw [byteSize_append, byteSize_append]
        rfl
      have hsplit : before ++ (piece ++ '\n' :: rest) = before ++ piece ++ ['\n'] ++ rest := by
        simp
      rw [hpieces, hsome, ← hbefore, List.getElem?_cons_succ, List.getElem?_cons_succ, hsplit,
        List.getElem?_cons_succ]
      exact ih (before ++ piece ++ ['\n']) rest

end Text

namespace Syntax.SourceText

/-- A line is the piece of its number, without a return at its end. -/
theorem line?_succ (s : SourceText) (k : Nat) :
    s.line? (k + 1) =
      (Text.pieces s.chars)[k]?.map fun cs => String.ofList (Text.dropReturn cs) := by
  have hslice := Text.slice?_starts [] s.chars k
  rw [List.nil_append] at hslice
  rw [← hslice, Option.map_bind, line?, s.starts_eq]
  rfl

theorem line?_eq_none {s : SourceText} {n : Nat} (hn : s.starts.length < n) : s.line? n = none := by
  obtain ⟨k, rfl⟩ : ∃ k, n = k + 1 := ⟨n - 1, by omega⟩
  have hk : s.starts.length ≤ k := Nat.le_of_lt_succ hn
  rw [line?, List.getElem?_eq_none hk, Option.bind_none]

theorem exists_line {s : SourceText} {n : Nat} (hpos : 1 ≤ n) (hn : n ≤ s.starts.length) :
    ∃ content, s.line? n = some content := by
  obtain ⟨k, rfl⟩ : ∃ k, n = k + 1 := ⟨n - 1, by omega⟩
  have hk : k < (Text.pieces s.chars).length := by
    rw [Text.length_pieces 0]
    rw [s.starts_eq] at hn
    exact hn
  rw [line?_succ, List.getElem?_eq_getElem hk]
  exact ⟨_, rfl⟩

/-- No line is missing before the last one, so lines are listed up to there. -/
theorem map_some_linesFrom (s : SourceText) {n : Nat} (hpos : 1 ≤ n) (count : Nat) :
    (s.linesFrom n count).map some =
      (List.range' n (min count (s.starts.length + 1 - n))).map s.line? := by
  induction count generalizing n with
  | zero => rw [Nat.zero_min, List.range'_zero, linesFrom, List.map_nil, List.map_nil]
  | succ count ih =>
    by_cases hn : n ≤ s.starts.length
    · obtain ⟨content, hline⟩ := exists_line hpos hn
      have hleft : min (count + 1) (s.starts.length + 1 - n) =
          min count (s.starts.length + 1 - (n + 1)) + 1 := by omega
      rw [hleft, List.range'_succ, List.map_cons, hline, ← ih (Nat.le_add_left 1 n), linesFrom,
        hline, List.map_cons]
    · have hleft : min (count + 1) (s.starts.length + 1 - n) = 0 := by omega
      rw [hleft, linesFrom, line?_eq_none (Nat.lt_of_not_le hn)]
      rfl

theorem map_some_linesBetween (s : SourceText) (first last : Nat) :
    (s.linesBetween first last).map some =
      (List.range' (max first 1) (min last s.starts.length + 1 - max first 1)).map s.line? := by
  have hcount : min (last + 1 - max first 1) (s.starts.length + 1 - max first 1) =
      min last s.starts.length + 1 - max first 1 := by omega
  rw [linesBetween, map_some_linesFrom s (Nat.le_max_right first 1), hcount]

theorem linesBetween_eq (s : SourceText) (first last : Nat) :
    s.linesBetween first last =
      (List.range' (max first 1) (min last s.starts.length + 1 - max first 1)).filterMap
        s.line? := by
  have hlines := congrArg (List.filterMap id) (s.map_some_linesBetween first last)
  rwa [List.filterMap_map, List.filterMap_map, Function.id_comp, Function.id_comp,
    List.filterMap_some] at hlines

theorem one_le_line_place (s : SourceText) (offset : Nat) : 1 ≤ (s.place offset).line := by
  show 1 ≤ (s.starts.takeWhile (· ≤ offset)).length
  rw [s.starts_eq, Text.lineStarts, List.takeWhile_cons_of_pos (by simp)]
  exact Nat.le_add_left 1 _

/-- A place is in a line of the text. -/
theorem exists_line_place (s : SourceText) (offset : Nat) :
    ∃ content, s.line? (s.place offset).line = some content :=
  exists_line (s.one_le_line_place offset) (List.takeWhile_prefix _).length_le

end Syntax.SourceText

end Coupling
