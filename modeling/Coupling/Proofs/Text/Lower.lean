import Coupling.Text.Lower
import Mathlib.Data.List.Infix

/-!
# Small letters line by line

Only a capital sigma depends on what stands around it, and it looks no further than the nearest
character that is not passed over. A newline is such a character and has no case, so the end of a
line looks like the end of the text: the small letters of a text are those of its lines. Hence a
piece of a text that consists of whole lines stays a piece when both are put in small letters.
-/

namespace Coupling.Text

theorem casedNext_cons (c : Char) (cs : List Char) :
    casedNext (c :: cs) = if isCaseIgnorable c then casedNext cs else isCased c := by
  unfold casedNext
  rw [List.dropWhile_cons]
  by_cases hpassed : isCaseIgnorable c
  · rw [if_pos hpassed, if_pos hpassed]
  · rw [if_neg hpassed, if_neg hpassed]

/-- Nothing is seen beyond a newline. -/
theorem casedNext_append_newline (cs rest : List Char) :
    casedNext (cs ++ '\n' :: rest) = casedNext cs := by
  induction cs with
  | nil =>
    have hpassed : isCaseIgnorable '\n' = false := by decide +kernel
    have hcased : isCased '\n' = false := by decide +kernel
    rw [List.nil_append, casedNext_cons, hpassed, hcased]
    rfl
  | cons c cs ih => rw [List.cons_append, casedNext_cons, casedNext_cons, ih]

/-- What stands before a newline has no influence on what comes after it. -/
theorem lowerFrom_newline (near before cs : List Char) :
    lowerFrom (near ++ '\n' :: before) cs = lowerFrom near cs := by
  induction cs generalizing near with
  | nil => rfl
  | cons c cs ih =>
    rw [lowerFrom, lowerFrom, lowerSigma, lowerSigma, casedNext_append_newline, ← List.cons_append,
      ih]

theorem lowerFrom_append_newline (before cs rest : List Char) :
    lowerFrom before (cs ++ '\n' :: rest) = lowerFrom before cs ++ '\n' :: lowerFrom [] rest := by
  induction cs generalizing before with
  | nil =>
    have hnewline : (if '\n' = 'Σ' then [lowerSigma before rest] else lowerChar '\n') = ['\n'] := by
      rw [if_neg (by decide)]
      decide
    rw [List.nil_append, lowerFrom, lowerFrom, hnewline]
    exact congrArg ('\n' :: ·) (lowerFrom_newline [] before rest)
  | cons c cs ih =>
    rw [List.cons_append, lowerFrom, lowerFrom, ih, lowerSigma, lowerSigma,
      casedNext_append_newline, List.append_assoc]

/-- The small letters of some lines are the lines in small letters. -/
theorem lower_intercalate (lines : List String) :
    lower ("\n".intercalate lines) = "\n".intercalate (lines.map lower) := by
  have hchars : ∀ pieces : List (List Char),
      lowerFrom [] (['\n'].intercalate pieces) =
        ['\n'].intercalate (pieces.map (lowerFrom [])) := by
    intro pieces
    induction pieces with
    | nil => rfl
    | cons first rest ih =>
      cases rest with
      | nil => simp
      | cons second rest =>
        rw [List.map_cons, List.map_cons, List.intercalate_cons_cons, List.intercalate_cons_cons,
          List.append_assoc, List.singleton_append, lowerFrom_append_newline, ih, List.append_assoc,
          List.singleton_append, List.map_cons]
  apply String.toList_injective
  rw [lower, String.toList_ofList, String.toList_intercalate, String.toList_intercalate,
    show "\n".toList = ['\n'] from rfl, hchars, List.map_map, List.map_map]
  congr 2
  funext line
  exact (String.toList_ofList).symm

/-! ### Some lines among others -/

theorem isPrefix_intercalate {α : Type} (sep : List α) (lines more : List (List α)) :
    sep.intercalate lines <+: sep.intercalate (lines ++ more) := by
  induction lines with
  | nil => exact List.nil_prefix
  | cons first rest ih =>
    cases rest with
    | nil =>
      cases more with
      | nil => exact List.prefix_rfl
      | cons second more =>
        rw [List.singleton_append, List.intercalate_cons_cons, List.intercalate_singleton,
          List.append_assoc]
        exact List.prefix_append _ _
    | cons second rest =>
      rw [List.cons_append, List.cons_append, List.intercalate_cons_cons,
        List.intercalate_cons_cons]
      exact (List.prefix_append_right_inj _).mpr ih

theorem isSuffix_intercalate {α : Type} (sep : List α) (more lines : List (List α)) :
    sep.intercalate lines <:+ sep.intercalate (more ++ lines) := by
  induction more with
  | nil => exact List.suffix_rfl
  | cons first more ih =>
    cases hrest : more ++ lines with
    | nil =>
      rw [(List.append_eq_nil_iff.mp hrest).2]
      exact List.nil_suffix
    | cons second rest =>
      rw [hrest] at ih
      rw [List.cons_append, hrest, List.intercalate_cons_cons]
      exact ih.trans (List.suffix_append _ _)

/-- Lines that follow each other among some lines are a piece of the text of all of them. -/
theorem isInfix_intercalate {α : Type} {sep : List α} {lines all : List (List α)}
    (h : lines <:+: all) : sep.intercalate lines <:+: sep.intercalate all := by
  obtain ⟨before, after, rfl⟩ := h
  exact (isSuffix_intercalate sep before lines).isInfix.trans
    (isPrefix_intercalate sep (before ++ lines) after).isInfix

/-- Lines that follow each other among some lines are a piece of the text also in small letters. -/
theorem isInfix_lower_intercalate {lines all : List String} (h : lines <:+: all) :
    (lower ("\n".intercalate lines)).toList <:+: (lower ("\n".intercalate all)).toList := by
  rw [lower_intercalate, lower_intercalate, String.toList_intercalate, String.toList_intercalate]
  exact isInfix_intercalate ((h.map lower).map String.toList)

end Coupling.Text
