import Coupling.Literal.Quoted
import Mathlib.Algebra.Ring.Parity
import Mathlib.Data.List.DropRight

/-!
# Escapes in string literals

Reading the inside of a literal takes one character that is no backslash, or a backslash together
with the character after it. So a text can be cut wherever no backslash waits for its character,
and whether one waits shows in the run of backslashes before the cut: their number is odd. A text
that is written with escapes is cut after every character, and is read back as it was.
-/

namespace Coupling.Literal

/-! ### One step of the reading -/

theorem unescape_cons_of_ne {c : Char} (hc : c ≠ '\\') (s : List Char) :
    unescape (c :: s) = c :: unescape s := by
  cases s with
  | nil => simp [unescape]
  | cons d rest => simp [unescape, hc]

theorem unescape_backslash_cons (d : Char) (s : List Char) :
    unescape ('\\' :: d :: s) = unescape ['\\', d] ++ unescape s := by
  by_cases hline : d = '\n'
  · simp [unescape, hline]
  · cases hescape : escaped? d with
    | none => simp [unescape, hline, hescape]
    | some x => simp [unescape, hline, hescape]

theorem unescape_of_escaped? {d x : Char} (h : escaped? d = some x) : unescape ['\\', d] = [x] := by
  have hline : d ≠ '\n' := by
    rintro rfl
    simp [escaped?] at h
  simp [unescape, hline, h]

/-- Nothing is read differently where there is nothing to escape. -/
theorem unescape_of_not_mem {s : List Char} (h : '\\' ∉ s) : unescape s = s := by
  induction s with
  | nil => rfl
  | cons c rest ih =>
    rw [List.mem_cons, not_or] at h
    rw [unescape_cons_of_ne (Ne.symm h.1), ih h.2]

/-! ### Texts that can be cut off -/

/-- Every backslash that starts an escape has its character. -/
inductive Complete : List Char → Prop
  | nil : Complete []
  | plain {c : Char} {s : List Char} (hc : c ≠ '\\') (hs : Complete s) : Complete (c :: s)
  | pair (d : Char) {s : List Char} (hs : Complete s) : Complete ('\\' :: d :: s)

/-- After a complete text the reading starts anew. -/
theorem Complete.unescape_append {a : List Char} (h : Complete a) (b : List Char) :
    unescape (a ++ b) = unescape a ++ unescape b := by
  induction h with
  | nil => rfl
  | plain hc hs ih =>
    rw [List.cons_append, unescape_cons_of_ne hc, unescape_cons_of_ne hc, ih, List.cons_append]
  | @pair d s hs ih =>
    rw [List.cons_append, List.cons_append, unescape_backslash_cons, ih,
      unescape_backslash_cons d s, List.append_assoc]

/-- At most one backslash is left over, and it is the last character. -/
theorem complete_or_waiting (a : List Char) :
    Complete a ∨ ∃ s, Complete s ∧ a = s ++ ['\\'] := by
  -- Each step takes what the reading takes: a pair at a backslash, one character elsewhere.
  match a with
  | [] => exact .inl .nil
  | [c] =>
    by_cases hc : c = '\\'
    · exact .inr ⟨[], .nil, by rw [hc, List.nil_append]⟩
    · exact .inl (.plain hc .nil)
  | c :: d :: rest =>
    by_cases hc : c = '\\'
    · subst hc
      rcases complete_or_waiting rest with hrest | ⟨s, hs, rfl⟩
      · exact .inl (.pair d hrest)
      · exact .inr ⟨'\\' :: d :: s, .pair d hs, rfl⟩
    · rcases complete_or_waiting (d :: rest) with hrest | ⟨s, hs, heq⟩
      · exact .inl (.plain hc hrest)
      · exact .inr ⟨c :: s, .plain hc hs, by rw [heq, List.cons_append]⟩

/-- The number of backslashes at the end of a text. -/
def trailingBackslashes (s : List Char) : ℕ := (s.rtakeWhile (· = '\\')).length

theorem trailingBackslashes_append (a b : List Char) :
    trailingBackslashes (a ++ b) =
      if trailingBackslashes b = b.length then trailingBackslashes a + trailingBackslashes b
      else trailingBackslashes b := by
  simp only [trailingBackslashes, List.rtakeWhile, List.length_reverse, List.reverse_append,
    List.takeWhile_append]
  split
  · rw [List.length_append, List.length_reverse, Nat.add_comm]
    omega
  · rfl

theorem trailingBackslashes_concat (s : List Char) :
    trailingBackslashes (s ++ ['\\']) = trailingBackslashes s + 1 := by
  rw [trailingBackslashes, List.rtakeWhile_concat_pos _ _ _ (by decide), List.length_append]
  rfl

theorem even_trailingBackslashes_append {a b : List Char} (ha : Even (trailingBackslashes a))
    (hb : Even (trailingBackslashes b)) : Even (trailingBackslashes (a ++ b)) := by
  rw [trailingBackslashes_append]
  split
  · exact ha.add hb
  · exact hb

theorem Complete.even_trailingBackslashes {a : List Char} (h : Complete a) :
    Even (trailingBackslashes a) := by
  induction h with
  | nil => exact Even.zero
  | @plain c s hc hs ih =>
    have hone : Even (trailingBackslashes [c]) := by simp [trailingBackslashes, List.rtakeWhile, hc]
    exact even_trailingBackslashes_append hone ih
  | @pair d s hs ih =>
    -- The second character ends the run, unless it is a backslash itself: then there are two.
    have htwo : Even (trailingBackslashes ['\\', d]) := by
      by_cases hd : d = '\\'
      · simp [trailingBackslashes, List.rtakeWhile, hd]
      · simp [trailingBackslashes, List.rtakeWhile, hd]
    exact even_trailingBackslashes_append htwo ih

theorem complete_iff {a : List Char} : Complete a ↔ ¬ Odd (trailingBackslashes a) := by
  rw [Nat.not_odd_iff_even]
  refine ⟨Complete.even_trailingBackslashes, fun heven => ?_⟩
  rcases complete_or_waiting a with ha | ⟨s, hs, rfl⟩
  · exact ha
  · rw [trailingBackslashes_concat, Nat.even_add_one] at heven
    exact absurd hs.even_trailingBackslashes heven

/-! ### Writing with escapes -/

/-- The character that is written after a backslash. -/
def escapeLetter? : Char → Option Char
  | '\n' => some 'n'
  | '\t' => some 't'
  | '\r' => some 'r'
  | '\x00' => some '0'
  | '\\' => some '\\'
  | '\'' => some '\''
  | '"' => some '"'
  | _ => none

def escapeChar (c : Char) : List Char :=
  match escapeLetter? c with
  | some letter => ['\\', letter]
  | none => [c]

/-- The inside of a literal that stands for a text. -/
def escape (s : List Char) : List Char := s.flatMap escapeChar

theorem escaped?_of_escapeLetter? {c letter : Char} (h : escapeLetter? c = some letter) :
    escaped? letter = some c := by
  unfold escapeLetter? at h
  split at h <;> cases h <;> rfl

theorem ne_backslash_of_escapeLetter? {c : Char} (h : escapeLetter? c = none) : c ≠ '\\' := by
  rintro rfl
  simp [escapeLetter?] at h

theorem complete_escapeChar (c : Char) : Complete (escapeChar c) := by
  unfold escapeChar
  cases hletter : escapeLetter? c with
  | none => exact .plain (ne_backslash_of_escapeLetter? hletter) .nil
  | some letter => exact .pair letter .nil

theorem unescape_escapeChar (c : Char) : unescape (escapeChar c) = [c] := by
  unfold escapeChar
  cases hletter : escapeLetter? c with
  | none => exact unescape_cons_of_ne (ne_backslash_of_escapeLetter? hletter) []
  | some letter => exact unescape_of_escaped? (escaped?_of_escapeLetter? hletter)

theorem unescape_escape (s : List Char) : unescape (escape s) = s := by
  induction s with
  | nil => rfl
  | cons c rest ih =>
    calc unescape (escape (c :: rest)) = unescape (escapeChar c ++ escape rest) := rfl
      _ = unescape (escapeChar c) ++ unescape (escape rest) :=
        (complete_escapeChar c).unescape_append _
      _ = c :: rest := by rw [unescape_escapeChar, ih, List.singleton_append]

/-- Escapes are undone by reading. A text without a backslash is read as it is, and two texts one
after the other are read separately if the first does not end in an odd number of backslashes. If it
does, the last of them can take the first character of what follows. -/
theorem escapes_undone :
    (∀ s, unescape (escape s) = s) ∧
    (∀ s, '\\' ∉ s → unescape s = s) ∧
    (∀ a b, ¬ Odd (trailingBackslashes a) → unescape (a ++ b) = unescape a ++ unescape b) ∧
    (∀ a, Odd (trailingBackslashes a) → ∃ b, unescape (a ++ b) ≠ unescape a ++ unescape b) := by
  refine ⟨unescape_escape, fun s => unescape_of_not_mem,
    fun a b ha => (complete_iff.mpr ha).unescape_append b, fun a ha => ⟨['n'], ?_⟩⟩
  rcases complete_or_waiting a with hcomplete | ⟨s, hs, rfl⟩
  · exact absurd ha (complete_iff.mp hcomplete)
  · rw [List.append_assoc, hs.unescape_append, hs.unescape_append, List.append_assoc]
    exact mt List.append_cancel_left (by decide)

/-- A path whose last backslash is written twice, before a name that starts with an `n`, and the
same path with one backslash. -/
theorem escapes_undone_path :
    (¬ Odd (trailingBackslashes "C:\\\\".toList) ∧
      unescape ("C:\\\\".toList ++ "new \\\"x\\\"".toList) =
        unescape "C:\\\\".toList ++ unescape "new \\\"x\\\"".toList) ∧
    (Odd (trailingBackslashes "C:\\".toList) ∧
      ∃ b, unescape ("C:\\".toList ++ b) ≠ unescape "C:\\".toList ++ unescape b) ∧
    '\\' ∉ "C:".toList ∧ unescape "C:".toList = "C:".toList := by
  obtain ⟨-, hplain, hcut, hwaiting⟩ := escapes_undone
  have htwice : ¬ Odd (trailingBackslashes "C:\\\\".toList) := by decide
  have honce : Odd (trailingBackslashes "C:\\".toList) := by decide
  have hnone : '\\' ∉ "C:".toList := by decide
  exact ⟨⟨htwice, hcut _ _ htwice⟩, ⟨honce, hwaiting _ honce⟩, hnone, hplain _ hnone⟩

end Coupling.Literal
