import Coupling.Literal.Magic
import Coupling.Proofs.Number.Values
import Coupling.Proofs.Number.Written
import Coupling.Proofs.Walk.Faults
import Mathlib.Data.Nat.Digits.Defs

/-!
# Integer literals

An integer may be written in four bases, in letters of either case, with underscores between its
digits and a mark after them. Whatever the spelling, it is read as a float: what is compared with
the allowed numbers and reported is the nearest integer of at most 53 significant bits.
-/

namespace Coupling.Literal

open Number Syntax

/-! ### Spellings -/

/-- What is written before the digits in a base. -/
inductive Announces : ℕ → List Char → Prop
  | decimal : Announces 10 []
  | hexadecimal {x : Char} (hx : x = 'x' ∨ x = 'X') : Announces 16 ['0', x]
  | octal {o : Char} (ho : o = 'o' ∨ o = 'O') : Announces 8 ['0', o]
  | binary {b : Char} (hb : b = 'b' ∨ b = 'B') : Announces 2 ['0', b]

/-- A character writes a digit, in either case. -/
def IsDigit (base : ℕ) (c : Char) (d : ℕ) : Prop :=
  d < base ∧ (c = Nat.digitChar d ∨ c = (Nat.digitChar d).toUpper)

instance (base : ℕ) (c : Char) (d : ℕ) : Decidable (IsDigit base c d) :=
  inferInstanceAs (Decidable (_ ∧ _))

/-- A text that writes an integer, and the integer. -/
inductive Spells (text : List Char) : ℕ → Prop
  | intro {base : ℕ} {announcement digits long : List Char} {values : List ℕ}
      (hbase : Announces base announcement) (hdigits : List.Forall₂ (IsDigit base) digits values)
      (hne : digits ≠ []) (hlong : long = [] ∨ long = ['l'] ∨ long = ['L'])
      (htext : text.filter (· ≠ '_') = announcement ++ digits ++ long) :
      Spells text (Nat.ofDigits base values.reverse)

/-! ### Digits -/

theorem Announces.base_le {base : ℕ} {announcement : List Char} (h : Announces base announcement) :
    base ≤ 16 := by
  cases h <;> decide

theorem Announces.toLower_ne {base : ℕ} {announcement : List Char}
    (h : Announces base announcement) : announcement.all (·.toLower ≠ 'j') = true := by
  cases h with
  | decimal => decide
  | hexadecimal hx => rcases hx with rfl | rfl <;> decide
  | octal ho => rcases ho with rfl | rfl <;> decide
  | binary hb => rcases hb with rfl | rfl <;> decide

theorem toLower_digitChar : ∀ d < 16, (Nat.digitChar d).toLower = Nat.digitChar d ∧
    (Nat.digitChar d).toUpper.toLower = Nat.digitChar d := by
  decide

theorem digitChar_ne_letter : ∀ d < 16, Nat.digitChar d ≠ 'j' ∧ Nat.digitChar d ≠ 'l' := by
  decide

theorem digit?_digitChar {base : ℕ} (hbase : base ≤ 16) {d : ℕ} (hd : d < base) :
    digit? base (Nat.digitChar d) = some d := by
  have hvalue : ∀ d < 16, (if (Nat.digitChar d).isDigit then some ((Nat.digitChar d).toNat - 48)
      else if 'a' ≤ Nat.digitChar d ∧ Nat.digitChar d ≤ 'f' then some ((Nat.digitChar d).toNat - 87)
      else none) = some d := by
    decide
  simp only [digit?]
  rw [hvalue d (by omega), Option.filter_some, if_pos (decide_eq_true hd)]

theorem ofDigits_reverse (base : ℕ) (values : List ℕ) :
    Nat.ofDigits base values.reverse = values.foldl (fun n d => base * n + d) 0 := by
  rw [Nat.ofDigits_eq_foldr, List.foldr_reverse]
  simp [Nat.add_comm]

theorem radix?_digits {base : ℕ} (hbase : base ≤ 16) {values : List ℕ} (hne : values ≠ [])
    (hvalues : ∀ d ∈ values, d < base) :
    radix? base (values.map Nat.digitChar) = some (Nat.ofDigits base values.reverse) := by
  have hfold : ∀ (n : ℕ) (values : List ℕ), (∀ d ∈ values, d < base) →
      (values.map Nat.digitChar).foldl
        (fun acc c => acc.bind fun n => (digit? base c).map fun d => base * n + d) (some n) =
      some (values.foldl (fun n d => base * n + d) n) := by
    intro n values hvalues
    induction values generalizing n with
    | nil => rfl
    | cons d values ih =>
      rw [List.map_cons, List.foldl_cons, Option.bind_some,
        digit?_digitChar hbase (hvalues d List.mem_cons_self), Option.map_some]
      exact ih _ fun d hd => hvalues d (List.mem_cons_of_mem _ hd)
  rw [radix?, if_neg (by simpa using hne), hfold 0 values hvalues, ofDigits_reverse]

theorem ofDigits_digits {values : List ℕ} (hvalues : ∀ d ∈ values, d < 10) :
    ofDigits (values.map Nat.digitChar) = Nat.ofDigits 10 values.reverse := by
  have hvalue : ∀ d < 10, (Nat.digitChar d).toNat - 48 = d := by decide
  rw [ofDigits, List.foldl_map, ofDigits_reverse]
  refine List.foldl_ext _ _ _ fun n d hd => ?_
  rw [hvalue d (hvalues d hd)]

section Reading

variable {base : ℕ} {announcement digits long text : List Char} {values : List ℕ}

theorem lt_of_forall₂ (hdigits : List.Forall₂ (IsDigit base) digits values) :
    ∀ d ∈ values, d < base := by
  induction hdigits with
  | nil => simp
  | cons hdigit _ ih =>
    intro d hd
    rcases List.mem_cons.mp hd with rfl | hd
    · exact hdigit.1
    · exact ih d hd

theorem map_toLower_digits (hbase : base ≤ 16)
    (hdigits : List.Forall₂ (IsDigit base) digits values) :
    digits.map Char.toLower = values.map Nat.digitChar := by
  induction hdigits with
  | nil => rfl
  | @cons c d _ _ hdigit _ ih =>
    obtain ⟨hlower, hupper⟩ := toLower_digitChar d (by have := hdigit.1; omega)
    have hc : c.toLower = Nat.digitChar d := by
      rcases hdigit.2 with rfl | rfl
      · exact hlower
      · exact hupper
    rw [List.map_cons, List.map_cons, hc, ih]

/-- The last character is a digit. -/
theorem getLast?_digits (hbase : base ≤ 16) (hne : values ≠ []) (hvalues : ∀ d ∈ values, d < base)
    (cs : List Char) :
    (cs ++ values.map Nat.digitChar).getLast? ≠ some 'l' ∧
      (cs ++ values.map Nat.digitChar).getLast? ≠ some 'j' := by
  obtain ⟨d, hd⟩ : ∃ d, values.getLast? = some d :=
    Option.isSome_iff_exists.mp (by simpa using hne)
  have hlast : (cs ++ values.map Nat.digitChar).getLast? = some (Nat.digitChar d) := by
    simp [List.getLast?_append, hd]
  obtain ⟨hj, hl⟩ := digitChar_ne_letter d <| by
    have := hvalues d (List.mem_of_getLast? hd)
    omega
  rw [hlast]
  exact ⟨fun h => hl (Option.some.inj h), fun h => hj (Option.some.inj h)⟩

theorem plain_eq (hbase : Announces base announcement)
    (hdigits : List.Forall₂ (IsDigit base) digits values) (hne : values ≠ [])
    (hlong : long = [] ∨ long = ['l'] ∨ long = ['L'])
    (htext : text.filter (· ≠ '_') = announcement ++ digits ++ long) :
    plain text = announcement.map Char.toLower ++ values.map Nat.digitChar := by
  have hlast := getLast?_digits hbase.base_le hne (lt_of_forall₂ hdigits)
    (announcement.map Char.toLower)
  have hlower := map_toLower_digits hbase.base_le hdigits
  simp only [plain, htext, List.map_append, hlower]
  rcases hlong with rfl | rfl | rfl
  · rw [List.map_nil, List.append_nil, if_neg hlast.1]
  · simp
  · simp

/-- Digits alone are read as decimal. -/
theorem parse?_digits {cs : List Char} (hcs : ∀ c ∈ cs, c.isDigit = true) (hne : cs ≠ []) :
    Decimal.parse? cs = some ⟨ofDigits cs, 0⟩ := by
  obtain ⟨htake, hdrop⟩ := span_digits [] hcs (by simp)
  rw [List.append_nil] at htake hdrop
  simp [Decimal.parse?, htake, hdrop, hne]

theorem toFloat_integer {n : ℕ} (hn : n < 2 ^ 63) :
    Decimal.toFloat ⟨n, 0⟩ = Float.ofNat n := by
  by_cases hzero : n = 0
  · rw [hzero]
    rfl
  · have hlength : (Nat.toDigits 10 n).length ≤ 20 := by
      by_contra hlong
      have hpow : 10 ^ 20 ≤ 10 ^ ((Nat.toDigits 10 n).length - 1) :=
        Nat.pow_le_pow_right (by decide) (by omega)
      have := ten_pow_le_of_pos (Nat.pos_of_ne_zero hzero)
      omega
    have hleast : ¬ (n = 0 ∨ ((Nat.toDigits 10 n).length : ℤ) + 0 < leastPower) := by
      simp only [leastPower]
      omega
    have hgreatest : ¬ greatestPower < ((Nat.toDigits 10 n).length : ℤ) + 0 := by
      simp only [greatestPower]
      omega
    simp only [Decimal.toFloat]
    rw [if_neg hleast, if_neg hgreatest]
    rfl

/-- Every spelling of an integer is read as the float of the integer. -/
theorem value?_of_spells {n : ℕ} (h : Spells text n) (hn : n < 2 ^ 63) :
    value? text = some (Float.ofNat n) := by
  cases h with
  | @intro base announcement digits long values hbase hdigits hne hlong htext =>
  have hvalues := lt_of_forall₂ hdigits
  have hne' : values ≠ [] := by
    rintro rfl
    exact hne (List.forall₂_nil_right_iff.mp hdigits)
  have hplain := plain_eq hbase hdigits hne' hlong htext
  have hlast := getLast?_digits hbase.base_le hne' hvalues (announcement.map Char.toLower)
  have hradix := radix?_digits hbase.base_le hne' hvalues
  have hbound : Nat.ofDigits base values.reverse < Nat.pow 2 63 := hn
  simp only [value?, hplain, if_neg hlast.2]
  cases hbase with
  | decimal =>
    have hdecimal : ∀ c ∈ values.map Nat.digitChar, c.isDigit = true := by
      have hdigit : ∀ d < 10, (Nat.digitChar d).isDigit = true := by decide
      simpa using fun d hd => hdigit d (hvalues d hd)
    have hparse := parse?_digits hdecimal (by simpa using hne')
    rw [ofDigits_digits hvalues] at hparse
    rw [List.map_nil, List.nil_append]
    -- A letter that announces another base is no digit.
    split
    · rename_i heq
      exact absurd (hdecimal 'x' (by rw [heq]; simp)) (by decide)
    · rename_i heq
      exact absurd (hdecimal 'o' (by rw [heq]; simp)) (by decide)
    · rename_i heq
      exact absurd (hdecimal 'b' (by rw [heq]; simp)) (by decide)
    · rw [hparse, Option.map_some, toFloat_integer hn]
  | hexadecimal hx => rcases hx with rfl | rfl <;> simp [hradix, hbound]
  | octal ho => rcases ho with rfl | rfl <;> simp [hradix, hbound]
  | binary hb => rcases hb with rfl | rfl <;> simp [hradix, hbound]

theorem not_imaginary {n : ℕ} (h : Spells text n) :
    ¬ (text.getLast? = some 'j' ∨ text.getLast? = some 'J') := by
  cases h with
  | @intro base announcement digits long values hbase hdigits hne hlong htext =>
  have hnone : ∀ c ∈ announcement ++ digits ++ long, c.toLower ≠ 'j' := by
    intro c hc
    rcases List.mem_append.mp hc with hc | hc
    · rcases List.mem_append.mp hc with hc | hc
      · exact of_decide_eq_true (List.all_eq_true.mp hbase.toLower_ne c hc)
      · have hlower : c.toLower ∈ values.map Nat.digitChar := by
          rw [← map_toLower_digits hbase.base_le hdigits]
          exact List.mem_map_of_mem hc
        obtain ⟨d, hd, hdc⟩ := List.mem_map.mp hlower
        rw [← hdc]
        have := lt_of_forall₂ hdigits d hd
        have := hbase.base_le
        exact (digitChar_ne_letter d (by omega)).1
    · rcases hlong with rfl | rfl | rfl
      · simp at hc
      · rw [List.mem_singleton.mp hc]
        decide
      · rw [List.mem_singleton.mp hc]
        decide
  have hlast : ∀ c, c.toLower = 'j' → c ≠ '_' → text.getLast? ≠ some c := by
    intro c hlower hline hc
    refine hnone c ?_ hlower
    rw [← htext]
    exact List.mem_filter.mpr ⟨List.mem_of_getLast? hc, decide_eq_true hline⟩
  rintro (h | h)
  · exact hlast 'j' (by decide) (by decide) h
  · exact hlast 'J' (by decide) (by decide) h

end Reading

/-! ### Findings -/

theorem allowsNumber_iff {l : Limits} {x : Float} {q : ℚ} (hx : HasValue x q) :
    l.allowsNumber x = true ↔ ∃ a ∈ l.allowedNumbers, HasValue a q := by
  simp only [Limits.allowsNumber, List.any_eq_true, beq_iff_hasValue hx]

theorem numberValue_of_hasValue {x : Float} {z : ℤ} (hx : HasValue x z) (display : String) :
    numberValue .int (some x) display =
      if z.natAbs < Nat.pow 2 63 then .int z else .str display := by
  obtain ⟨d, hd, hvalue⟩ := hx
  simp only [numberValue, hd, Dyadic.integer?_of_value hvalue]

/-- An integer with the sign that stands before its literal. -/
def signed (f : Focus) (n : ℕ) : ℤ := if (negation? f).isSome then -(n : ℤ) else n

/-- A literal as it is shown, with the sign that stands before it. -/
def shown (f : Focus) (spelling : String) : String :=
  if (negation? f).isSome then "-" ++ spelling else spelling

section Reports

variable {l : Limits} {source : Source} {f : Focus} {n : ℕ}

theorem magic?_of_spells (hkind : f.kind = .integer)
    (hspells : Spells (source.text.text f.tree).toList n) (hn : n < 2 ^ 63) :
    (magic? l source.text f = none ↔
      ∃ a ∈ l.allowedNumbers, HasValue a (signed f (nearest n))) ∧
    ∀ m, magic? l source.text f = some m →
      m.value = if nearest n < 2 ^ 63 then .int (signed f (nearest n))
        else .str (shown f (source.text.text f.tree)) := by
  have hvalue : HasValue (Float.ofNat n * if (negation? f).isSome then -1.0 else 1.0)
      (signed f (nearest n)) := hasValue_signed hn _
  have hint : f.kind ≠ .float := by rw [hkind]; decide
  have hmagic : magic? l source.text f = magicNumber? l source.text f := by
    rw [magic?, hkind]
  have habs : (signed f (nearest n)).natAbs = nearest n := by
    unfold signed
    split <;> simp
  rw [hmagic, ← allowsNumber_iff hvalue]
  simp only [magicNumber?, value?_of_spells hspells hn, Option.map_some, Option.any_some,
    if_neg (not_imaginary hspells), if_neg hint, numberValue_of_hasValue hvalue, habs]
  generalize (Float.ofNat n * if (negation? f).isSome then -1.0 else 1.0) = x
  by_cases hallowed : l.allowsNumber x = true
  · rw [if_pos hallowed]
    exact ⟨iff_of_true rfl hallowed, by simp⟩
  · rw [if_neg hallowed]
    refine ⟨iff_of_false (by simp) hallowed, fun m hm => ?_⟩
    rw [← Option.some.inj hm]
    rfl

theorem check_eq_ok_iff {found : List Finding} :
    check l source f = .ok found ↔
      magic? l source.text f = none ∧ found = [] ∨
      ∃ m s, magic? l source.text f = some m ∧
        surroundings l source.text (source.text.placeOf m.anchor).line = .ok s ∧
        found = [finding source.path (source.text.placeOf m.anchor) m s] := by
  unfold check
  cases magic? l source.text f with
  | none => simp [eq_comm]
  | some m =>
    cases hs : surroundings l source.text (source.text.placeOf m.anchor).line with
    | error fault => simp [hs, Except.map]
    | ok s => simp [hs, Except.map, eq_comm]

theorem reported_of_not_overflows (hfits : ¬ source.Overflows l f)
    (hreported : check l source f ≠ .ok []) : ∃ v, check l source f = .ok [v] := by
  obtain ⟨found, hfound⟩ := check_ok_of_not_overflows hfits
  rcases check_eq_ok_iff.mp hfound with ⟨_, rfl⟩ | ⟨m, s, _, _, rfl⟩
  · exact absurd hfound hreported
  · exact ⟨_, hfound⟩

section Spelled

variable (hkind : f.kind = .integer) (hspells : Spells (source.text.text f.tree).toList n)
  (hn : n < 2 ^ 63)

include hkind hspells hn

theorem skipped_iff :
    check l source f = .ok [] ↔ ∃ a ∈ l.allowedNumbers, HasValue a (signed f (nearest n)) := by
  rw [← (magic?_of_spells hkind hspells hn).1, check_eq_ok_iff]
  simp

theorem lookup_of_mem {found : List Finding} (hfound : check l source f = .ok found) {v : Finding}
    (hv : v ∈ found) :
    v.context.lookup "literal_value" = some (if nearest n < 2 ^ 63
      then .int (signed f (nearest n)) else .str (shown f (source.text.text f.tree))) := by
  rcases check_eq_ok_iff.mp hfound with ⟨_, rfl⟩ | ⟨m, s, hm, _, rfl⟩
  · simp at hv
  · rw [List.mem_singleton.mp hv, ← (magic?_of_spells hkind hspells hn).2 m hm]
    rfl

end Spelled

end Reports

/-- An integer literal is read as the nearest integer of at most 53 significant bits, with the sign
before it. That integer is compared with the allowed numbers, and it is what a finding reports, or
the spelling if it does not fit in 64 bits with a sign. It is the integer that is written exactly if
that one has no more than 53 significant bits, and never further from it than half the distance
between two floats. -/
theorem integers_reported_rounded {l : Limits} {source : Source} {f : Focus} {n : ℕ}
    (hkind : f.kind = .integer) (hspells : Spells (source.text.text f.tree).toList n)
    (hn : n < 2 ^ 63) :
    (check l source f = .ok [] ↔
      ∃ a ∈ l.allowedNumbers, HasValue a (signed f (nearest n))) ∧
    (¬ source.Overflows l f → check l source f ≠ .ok [] → ∃ v, check l source f = .ok [v]) ∧
    (∀ found, check l source f = .ok found → ∀ v ∈ found,
      v.context.lookup "literal_value" = some (if nearest n < 2 ^ 63
        then .int (signed f (nearest n)) else .str (shown f (source.text.text f.tree)))) ∧
    (signed f (nearest n) = signed f n ↔ spacing n ∣ n) ∧
    (n ≤ 2 ^ 53 → spacing n ∣ n) ∧
    2 * (signed f (nearest n) - signed f n).natAbs ≤ spacing n := by
  have hnear := nearest_near n
  refine ⟨skipped_iff hkind hspells hn, reported_of_not_overflows,
    fun found hfound v hv => lookup_of_mem hkind hspells hn hfound hv, ?_, ?_, ?_⟩
  · rw [← nearest_eq_self_iff]
    unfold signed
    split <;> simp
  · exact fun hsmall => nearest_eq_self_iff.mp (nearest_of_le hsmall)
  · unfold signed
    split <;> omega

/-- The binding of `x` to a value. -/
def binding (stop : ℕ) (value : Tree) : Tree :=
  .span .assignment none 0 stop [.span .identifier (some (.other "left")) 0 1 [], value]

def bindingSource (text : String) (stop : ℕ) (value : Tree) : Source where
  path := "mod.py"
  text := .ofChars text.toList
  root := .span (.other "module") none 0 (stop + 1)
    [.span .expressionStatement none 0 stop [binding stop value]]

def negatedTree : Tree :=
  .span .unaryOperator (some (.other "right")) 4 24
    [.span .minus (some .operator) 4 5 [], .span .integer (some .argument) 5 24 []]

def negatedSource : Source := bindingSource "x = -0X20_0000_0000_0003\n" 24 negatedTree

/-- The number after the minus sign. -/
def negatedInteger : Focus where
  tree := .span .integer (some .argument) 5 24 []
  above := [(negatedTree, 1), (binding 24 negatedTree, 1)]

theorem spells_negatedInteger :
    Spells (negatedSource.text.text negatedInteger.tree).toList 9007199254740995 := by
  have hdigits : List.Forall₂ (IsDigit 16) "20000000000003".toList
      [2, 0, 0, 0, 0, 0, 0, 0, 0, 0, 0, 0, 0, 3] := by decide
  have hvalue : Nat.ofDigits 16 [2, 0, 0, 0, 0, 0, 0, 0, 0, 0, 0, 0, 0, 3].reverse =
      9007199254740995 := by decide
  rw [← hvalue]
  exact .intro (.hexadecimal (.inr rfl)) hdigits (by decide) (.inl rfl) (by decide +kernel)

/-- The integer is half way between two floats and negative. -/
theorem integers_reported_rounded_negatedInteger :
    ∃ v, check { allowedNumbers := [] } negatedSource negatedInteger = .ok [v] ∧
      v.context.lookup "literal_value" = some (.int (-9007199254740996)) := by
  obtain ⟨hskipped, hreported, hvalue, _⟩ := integers_reported_rounded
    (l := { allowedNumbers := [] }) rfl spells_negatedInteger (by decide)
  have hfits : negatedSource.Fits { allowedNumbers := [] } := by
    unfold Source.Fits
    decide +kernel
  obtain ⟨v, hv⟩ := hreported hfits.not_overflows (mt hskipped.mp (by simp))
  refine ⟨v, hv, ?_⟩
  rw [hvalue _ hv v List.mem_cons_self]
  rfl

def wideTree : Tree := .span .integer (some (.other "right")) 4 20 []

def wideSource : Source := bindingSource "x = 9007199254740993\n" 20 wideTree

def wideInteger : Focus where
  tree := wideTree
  above := [(binding 20 wideTree, 1)]

theorem spells_wideInteger :
    Spells (wideSource.text.text wideInteger.tree).toList 9007199254740993 := by
  have hdigits : List.Forall₂ (IsDigit 10) "9007199254740993".toList
      [9, 0, 0, 7, 1, 9, 9, 2, 5, 4, 7, 4, 0, 9, 9, 3] := by decide
  have hvalue : Nat.ofDigits 10 [9, 0, 0, 7, 1, 9, 9, 2, 5, 4, 7, 4, 0, 9, 9, 3].reverse =
      9007199254740993 := by decide
  rw [← hvalue]
  exact .intro .decimal hdigits (by decide) (.inl rfl) (by decide +kernel)

/-- The integer is reported as another one, and skipped if that one is allowed. -/
theorem wide_integer_changed :
    Spells (wideSource.text.text wideInteger.tree).toList 9007199254740993 ∧
    (∃ v, check { allowedNumbers := [] } wideSource wideInteger = .ok [v] ∧
      v.context.lookup "literal_value" = some (.int 9007199254740992)) ∧
    check { allowedNumbers := [9007199254740992] } wideSource wideInteger = .ok [] ∧
    ¬ HasValue 9007199254740992 9007199254740993 := by
  have hallowed : HasValue 9007199254740992 (9007199254740992 : ℕ) := hasValue_ofNat (by decide)
  refine ⟨spells_wideInteger, ?_, ?_, ?_⟩
  · have hskipped := skipped_iff (l := { allowedNumbers := [] }) rfl spells_wideInteger (by decide)
    have hfits : wideSource.Fits { allowedNumbers := [] } := by
      unfold Source.Fits
      decide +kernel
    obtain ⟨v, hv⟩ := reported_of_not_overflows hfits.not_overflows (mt hskipped.mp (by simp))
    refine ⟨v, hv, ?_⟩
    rw [lookup_of_mem rfl spells_wideInteger (by decide) hv List.mem_cons_self]
    rfl
  · rw [skipped_iff rfl spells_wideInteger (by decide)]
    exact ⟨9007199254740992, List.mem_cons_self, hallowed⟩
  · intro hvalue
    exact absurd (hallowed.unique hvalue) (by norm_num)

end Coupling.Literal
