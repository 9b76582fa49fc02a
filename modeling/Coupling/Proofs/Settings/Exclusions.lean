import Coupling.Paths.Exclusion
import Coupling.Proofs.Text.Separated
import Coupling.Settings.Load
import Mathlib.Data.List.Forall2
import Mathlib.Data.List.Induction

/-!
# Which patterns are refused

Settings are judged by their patterns without the slashes at the end, and the patterns are read with
all slashes but one. Both agree on what is well formed: a slash at the end closes two stars as the
end of the pattern does, and it closes no bracket.
-/

namespace Coupling

namespace Paths.Glob

/-! ### A slash at the end -/

/-- What stands before the closing bracket, with the length of it. -/
def closing? {α : Type} (make : List Char → Nat → α) (cs : List Char) : Option α :=
  (cs.findIdx? (· == ']')).map fun n => make (cs.take n) n

theorem closing?_append_slash {α : Type} (make : List Char → Nat → α) (cs : List Char) :
    closing? make (cs ++ ['/']) = closing? make cs := by
  have hfind : (cs ++ ['/']).findIdx? (· == ']') = cs.findIdx? (· == ']') := by
    rw [List.findIdx?_append]
    simp [List.findIdx?_cons]
  unfold closing?
  rw [hfind]
  cases hclose : cs.findIdx? (· == ']') with
  | none => rfl
  | some n =>
    obtain ⟨hn, _⟩ := List.findIdx?_eq_some_iff_getElem.mp hclose
    simp only [Option.map_some, List.take_append_of_le_length (Nat.le_of_lt hn)]

theorem bracket?_bang (c : Char) (rest : List Char) :
    bracket? ('!' :: c :: rest) =
      closing? (fun inside n => (.except (specifiers (c :: inside)), n + 3)) rest := by
  unfold closing?
  rw [bracket?]
  cases rest.findIdx? (· == ']') <;> rfl

theorem bracket?_of_ne {c : Char} (hc : c ≠ '!') (rest : List Char) :
    bracket? (c :: rest) =
      closing? (fun inside n => (.within (specifiers (c :: inside)), n + 2)) rest := by
  unfold closing? bracket?
  split
  · simp_all
  · simp_all
  · rename_i heq
    obtain ⟨rfl, rfl⟩ := List.cons.inj heq
    cases List.findIdx? (· == ']') _ <;> rfl
  · simp_all

/-- A slash closes no bracket. -/
theorem bracket?_append_slash (cs : List Char) : bracket? (cs ++ ['/']) = bracket? cs := by
  rcases cs with _ | ⟨c, rest⟩
  · rfl
  by_cases hc : c = '!'
  · subst hc
    rcases rest with _ | ⟨d, rest⟩
    · rfl
    · rw [List.cons_append, List.cons_append, bracket?_bang, bracket?_bang, closing?_append_slash]
  · rw [List.cons_append, bracket?_of_ne hc, bracket?_of_ne hc, closing?_append_slash]

theorem takeWhile_star_append_slash (cs : List Char) :
    (cs ++ ['/']).takeWhile (· == '*') = cs.takeWhile (· == '*') := by
  induction cs with
  | nil => rfl
  | cons c rest ih => rw [List.cons_append, List.takeWhile_cons, List.takeWhile_cons, ih]

/-- A slash at the end makes a pattern, or what is left of it, neither well formed nor malformed. -/
theorem isOk_parseFrom_append_slash (skip position : Nat) (prev : Option Char)
    (acc : List GlobToken) (cs : List Char) :
    (parseFrom skip position prev acc (cs ++ ['/'])).isOk =
      (parseFrom skip position prev acc cs).isOk := by
  induction cs generalizing skip position prev acc with
  | nil => cases skip <;> rfl
  | cons c rest ih =>
    cases skip with
    | succ skip => exact ih skip (position + 1) (some c) acc
    | zero =>
      rw [List.cons_append, parseFrom, parseFrom, takeWhile_star_append_slash,
        bracket?_append_slash]
      dsimp only
      split
      · exact ih ..
      split
      · split
        · exact ih ..
        split
        · rfl
        split
        · -- Two stars: what follows them is the end of the pattern or its last slash.
          rcases rest with _ | ⟨second, tail⟩
          · simp_all
          rcases tail with _ | ⟨next, tail⟩
          · rfl
          · simp only [List.cons_append, List.drop_succ_cons, List.drop_zero]
            split
            · exact ih ..
            · rfl
        · rfl
      split
      · cases bracket? rest with
        | none => rfl
        | some found => exact ih ..
      · exact ih ..

/-! ### Patterns as a whole -/

theorem isOk_parse_append_slash (cs : List Char) :
    (parse (String.ofList (cs ++ ['/']))).isOk = (parse (String.ofList cs)).isOk := by
  rw [parse, parse, String.toList_ofList, String.toList_ofList, isOk_parseFrom_append_slash]

theorem isOk_parse_dropWhileEnd (cs : List Char) :
    (parse (String.ofList (Text.dropWhileEnd (· == '/') cs))).isOk =
      (parse (String.ofList cs)).isOk := by
  induction cs using List.reverseRecOn with
  | nil => rfl
  | append_singleton front last ih =>
    by_cases hlast : last = '/'
    · rw [hlast, isOk_parse_append_slash, ← ih]
      simp [Text.dropWhileEnd]
    · simp [Text.dropWhileEnd, hlast]

/-- Text without wildcards is a pattern. -/
theorem isOk_parseFrom_of_plain {cs : List Char} (hplain : Exclusion.hasWildcard cs = false)
    (position : Nat) (prev : Option Char) (acc : List GlobToken) :
    (parseFrom 0 position prev acc cs).isOk = true := by
  induction cs generalizing position prev acc with
  | nil => rfl
  | cons c rest ih =>
    simp only [Exclusion.hasWildcard, List.any_cons, Bool.or_eq_false_iff,
      beq_eq_false_iff_ne] at hplain
    obtain ⟨⟨⟨hstar, hany⟩, hbracket⟩, hrest⟩ := hplain
    rw [parseFrom, if_neg hany, if_neg hstar, if_neg hbracket]
    exact ih hrest ..

end Paths.Glob

namespace Paths

theorem isSome_toOption {ε α : Type} (r : Except ε α) : r.toOption.isSome = r.isOk := by
  cases r <;> rfl

/-- A pattern is read if it is well formed without the slashes at its end. -/
theorem Exclusion.isSome_parse? (raw : String) :
    (parse? raw).isSome =
      (Glob.parse (String.ofList (Text.dropWhileEnd (· == '/') raw.toList))).isOk := by
  rw [Glob.isOk_parse_dropWhileEnd, String.ofList_toList]
  simp only [parse?]
  by_cases hslash : raw.toList.getLast? = some '/'
  · obtain ⟨front, hfront⟩ := List.getLast?_eq_some_iff.mp hslash
    rw [if_pos hslash, Option.isSome_map, isSome_toOption, ← Glob.isOk_parse_append_slash,
      hfront, List.dropLast_concat, ← hfront, String.ofList_toList]
  rw [if_neg hslash]
  by_cases hwild : hasWildcard raw.toList = true
  · rw [if_pos hwild, Option.isSome_map, isSome_toOption]
  · rw [if_neg hwild]
    exact (Glob.isOk_parseFrom_of_plain (Bool.eq_false_iff.mpr hwild) 0 none []).symm

theorem Exclusion.parse?_eq_none_iff {raw : String} :
    parse? raw = none ↔
      ∃ e, Glob.parse (String.ofList (Text.dropWhileEnd (· == '/') raw.toList)) = .error e := by
  rw [← Option.not_isSome_iff_eq_none, isSome_parse?]
  cases Glob.parse (String.ofList (Text.dropWhileEnd (· == '/') raw.toList)) with
  | ok glob => simp [Except.isOk, Except.toBool]
  | error e => simp [Except.isOk, Except.toBool]

end Paths

/-! ### Issues -/

namespace Settings

open Paths

theorem exclusionField_injective {i j : Nat} (h : s!"exclusions[{i}]" = s!"exclusions[{j}]") :
    i = j := by
  have hchars := congrArg String.toList h
  simp only [String.toList_append] at hchars
  exact Text.toString_nat_injective
    (List.append_cancel_left (List.append_cancel_right hchars))

theorem exclusionIssue_iff (patterns : List String) (i : Nat) :
    (∃ issue ∈ exclusionIssues patterns, issue.field = s!"exclusions[{i}]") ↔
      ∃ pattern, patterns[i]? = some pattern ∧ Exclusion.parse? pattern = none := by
  constructor
  · rintro ⟨issue, hissue, hfield⟩
    obtain ⟨⟨pattern, j⟩, hmem, hissue⟩ := List.mem_flatMap.mp hissue
    have hj : patterns[j]? = some pattern := List.mem_zipIdx_iff_getElem?.mp hmem
    cases hparse : Glob.parse (String.ofList (Text.dropWhileEnd (· == '/') pattern.toList)) with
    | ok glob => simp [hparse] at hissue
    | error e =>
      simp only [hparse, List.mem_singleton] at hissue
      rw [hissue] at hfield
      rw [exclusionField_injective hfield] at hj
      exact ⟨pattern, hj, Exclusion.parse?_eq_none_iff.mpr ⟨e, hparse⟩⟩
  · rintro ⟨pattern, hi, hnone⟩
    obtain ⟨e, hparse⟩ := Exclusion.parse?_eq_none_iff.mp hnone
    refine ⟨⟨s!"exclusions[{i}]", s!"invalid glob pattern '{pattern}' - {e.message}"⟩,
      List.mem_flatMap.mpr ⟨(pattern, i), List.mem_zipIdx_iff_getElem?.mpr hi, ?_⟩, rfl⟩
    simp only [hparse, List.mem_singleton]

theorem head?_append {front rest : String} {c : Char} (h : front.toList.head? = some c) :
    (front ++ rest).toList.head? = some c := by
  rw [String.toList_append, List.head?_append, h, Option.some_or]

/-- The groups of the other fields start with other letters. -/
theorem head?_field {s : Settings} {issue : Issue}
    (h : issue ∈ countIssues s.limits ++ numberIssues s.limits ++ keywordIssues s.limits ++
      parallelIssues s.parallel ++ atLeastOne "cache.memory_capacity" s.cache.memoryCapacity) :
    issue.field.toList.head? ∈ [some 't', some 'p', some 'c'] := by
  have hcount : ∀ {field value}, issue ∈ atLeastOne field value → issue.field = field := by
    intro field value hissue
    unfold atLeastOne at hissue
    split at hissue
    · rw [List.mem_singleton.mp hissue]
    · simp at hissue
  simp only [List.mem_append] at h
  rcases h with (((h | h) | h) | h) | h
  · obtain ⟨⟨field, value⟩, _, h⟩ := List.mem_flatMap.mp h
    rw [hcount h, head?_append (by decide : "thresholds.".toList.head? = some 't')]
    decide
  · obtain ⟨⟨x, i⟩, _, h⟩ := List.mem_flatMap.mp h
    dsimp only at h
    split at h
    · simp at h
    · rw [List.mem_singleton.mp h, head?_append (head?_append (c := 't') (by decide))]
      decide
  · rcases List.mem_append.mp h with h | h
    · split at h
      · rw [List.mem_singleton.mp h]
        decide
      · simp at h
    · obtain ⟨⟨keyword, i⟩, _, h⟩ := List.mem_flatMap.mp h
      dsimp only at h
      split at h
      · rw [List.mem_singleton.mp h, head?_append (head?_append (c := 't') (by decide))]
        decide
      · simp at h
  · unfold parallelIssues at h
    split at h
    · rw [List.mem_singleton.mp h]
      decide
    · simp at h
  · rw [hcount h]
    decide

theorem forall₂_exclusionsOf {patterns : List String}
    (h : ∀ pattern ∈ patterns, Exclusion.parse? pattern ≠ none) :
    List.Forall₂ (fun pattern e => Exclusion.parse? pattern = some e) patterns
      (exclusionsOf patterns) := by
  induction patterns with
  | nil => exact .nil
  | cons pattern rest ih =>
    rw [List.forall_mem_cons] at h
    obtain ⟨e, he⟩ := Option.ne_none_iff_exists'.mp h.1
    rw [exclusionsOf, List.filterMap_cons, he]
    exact .cons he (ih h.2)

/-- An issue is reported for a pattern if and only if the pattern is not read, so with valid
settings every pattern is read. -/
theorem issue_iff_unread (s : Settings) :
    (∀ i : Nat, (∃ issue ∈ s.issues, issue.field = s!"exclusions[{i}]") ↔
      ∃ pattern, s.exclusions[i]? = some pattern ∧ Exclusion.parse? pattern = none) ∧
    ∀ t, s.validated = .ok t →
      List.Forall₂ (fun pattern e => Exclusion.parse? pattern = some e) t.exclusions
        (exclusionsOf t.exclusions) := by
  have hissue : ∀ i : Nat, (∃ issue ∈ s.issues, issue.field = s!"exclusions[{i}]") ↔
      ∃ pattern, s.exclusions[i]? = some pattern ∧ Exclusion.parse? pattern = none := by
    intro i
    rw [← exclusionIssue_iff]
    constructor
    · rintro ⟨issue, hmem, hfield⟩
      rcases List.mem_append.mp hmem with hmem | hmem
      · have hhead : issue.field.toList.head? = some 'e' := by
          rw [hfield, head?_append (head?_append (c := 'e') (by decide))]
        have hother := head?_field hmem
        rw [hhead] at hother
        exact absurd hother (by decide)
      · exact ⟨issue, hmem, hfield⟩
    · rintro ⟨issue, hmem, hfield⟩
      exact ⟨issue, List.mem_append_right _ hmem, hfield⟩
  refine ⟨hissue, fun t ht => ?_⟩
  obtain ⟨hempty, rfl⟩ : s.issues = [] ∧ s = t := by
    rw [validated] at ht
    split at ht
    · exact ⟨List.isEmpty_iff.mp ‹_›, Except.ok.inj ht⟩
    · simp at ht
  apply forall₂_exclusionsOf
  intro pattern hpattern hnone
  obtain ⟨i, hi⟩ := List.mem_iff_getElem?.mp hpattern
  obtain ⟨issue, hmem, _⟩ := (hissue i).mpr ⟨pattern, hi, hnone⟩
  simp [hempty] at hmem

/-- Settings with nothing in them but patterns. -/
def ofPatterns (patterns : List String) : Settings where
  limits := { allowedNumbers := [] }
  exclusions := patterns

theorem issue_iff_unread_ofPatterns :
    (∃ issue ∈ (ofPatterns ["tests//", "src**//"]).issues, issue.field = s!"exclusions[{1}]") ∧
      ["**//", "[ab]/", "notes"].length = (exclusionsOf ["**//", "[ab]/", "notes"]).length :=
  ⟨((issue_iff_unread (ofPatterns ["tests//", "src**//"])).1 1).mpr ⟨"src**//", rfl, by decide⟩,
    ((issue_iff_unread (ofPatterns ["**//", "[ab]/", "notes"])).2 _ (by rfl)).length_eq⟩

end Settings

end Coupling
