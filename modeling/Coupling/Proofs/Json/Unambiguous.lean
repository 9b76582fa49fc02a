import Coupling.Json.Reader
import Coupling.Proofs.Number.Written

/-!
# JSON texts are unambiguous

A text that the printer makes comes from one value only, provided the numbers in it are finite: an
infinite number is written as null. A text is taken apart from the front. Strings end at their
closing quote, words and numbers at the next comma or bracket.
-/

namespace Coupling.Json

open Number
open Text (isDigit_of_mem_toDigits toDigits_injective)

/-! ### Strings -/

theorem hexValue?_hexDigit : ∀ n < 16, hexValue? (Digest.hexDigit n) = some n := by
  decide

theorem unit?_of_lt {n : ℕ} (hn : n < 0x20) :
    unit? '0' '0' (Digest.hexDigit (n / 16)) (Digest.hexDigit (n % 16)) = some n := by
  have hzero : hexValue? '0' = some 0 := by decide
  rw [unit?, hzero, hexValue?_hexDigit _ (by omega),
    hexValue?_hexDigit _ (Nat.mod_lt n (by decide))]
  simp only [Option.bind_eq_bind, Option.bind_some, Option.pure_def, Option.some.injEq]
  omega

/-- Reading an escaped character gives the character. -/
theorem stringBody_escapeChar (acc : List Char) (c : Char) (rest : List Char) :
    stringBody acc (escapeChar c ++ rest) = stringBody (c :: acc) rest := by
  unfold escapeChar
  split
  all_goals try rfl
  rename_i hquote hslash _ _ _ _ _
  split
  · rename_i hcontrol
    have hunit := unit?_of_lt hcontrol
    simp only [List.cons_append, List.nil_append]
    have hchar : Char.ofNat c.toNat = c := Char.ofNat_toNat c
    rw [stringBody, hunit]
    simp only [if_neg (show ¬ (0xd800 ≤ c.toNat ∧ c.toNat < 0xdc00) by omega),
      if_neg (show ¬ (0xdc00 ≤ c.toNat ∧ c.toNat < 0xe000) by omega), hchar]
  · rename_i hprintable
    have hne : c ≠ '\\' := hslash
    have hplain : (c == '\\' || decide (c.toNat < 0x20)) = false := by
      simp [hne, hprintable]
    rw [List.singleton_append, stringBody]
    · rw [hplain]
      rfl
    all_goals simp_all

theorem stringBody_escaped (acc cs rest : List Char) :
    stringBody acc (cs.flatMap escapeChar ++ '"' :: rest) =
      some (String.ofList (acc.reverse ++ cs), rest) := by
  induction cs generalizing acc with
  | nil => simp [stringBody]
  | cons c cs ih =>
    rw [List.flatMap_cons, List.append_assoc, stringBody_escapeChar, ih]
    simp

theorem renderString_append_inj {s s' : String} {rest rest' : List Char}
    (h : renderString s ++ rest = renderString s' ++ rest') : s = s' ∧ rest = rest' := by
  simp only [renderString, List.cons_append, List.append_assoc, List.nil_append,
    List.cons.injEq, true_and] at h
  have hread := stringBody_escaped [] s.toList rest
  rw [h, stringBody_escaped] at hread
  simp only [List.reverse_nil, List.nil_append, String.ofList_toList, Option.some.injEq,
    Prod.mk.injEq] at hread
  exact ⟨hread.1.symm, hread.2.symm⟩

/-! ### Words and numbers -/

/-- The characters of words and numbers. -/
def isWord (c : Char) : Bool := c.isAlphanum || c == '.' || c == '-'

/-- What can follow a value. -/
def Closed (rest : List Char) : Prop := ∀ c ∈ rest.head?, c = ',' ∨ c = ']' ∨ c = '\x7d'

theorem not_isWord_of_closed {c : Char} {rest : List Char} (h : Closed (c :: rest)) :
    isWord c = false := by
  rcases h c rfl with rfl | rfl | rfl <;> decide

theorem append_inj_of_isWord {word word' rest rest' : List Char}
    (hword : ∀ c ∈ word, isWord c = true) (hword' : ∀ c ∈ word', isWord c = true)
    (hrest : Closed rest) (hrest' : Closed rest') (h : word ++ rest = word' ++ rest') :
    word = word' ∧ rest = rest' := by
  have hfront : ∀ {word rest : List Char}, (∀ c ∈ word, isWord c = true) → Closed rest →
      (word ++ rest).takeWhile isWord = word := by
    intro word rest hword hrest
    rw [List.takeWhile_append_of_pos hword]
    cases rest with
    | nil => simp
    | cons c rest => simp [not_isWord_of_closed hrest]
  have heq : word = word' := by rw [← hfront hword hrest, h, hfront hword' hrest']
  subst heq
  exact ⟨rfl, List.append_cancel_left h⟩

/-- The characters of numbers. -/
def isNumeral (c : Char) : Bool := c.isDigit || c == '.' || c == 'e' || c == '-'

theorem isWord_of_isNumeral {c : Char} (hc : isNumeral c = true) : isWord c = true := by
  simp only [isNumeral, Bool.or_eq_true, beq_iff_eq] at hc
  rcases hc with ((hdigit | rfl) | rfl) | rfl
  · simp [isWord, Char.isAlphanum, hdigit]
  all_goals decide

theorem isNumeral_toDigits (n : ℕ) : ∀ c ∈ Nat.toDigits 10 n, isNumeral c = true := by
  intro c hc
  simp [isNumeral, isDigit_of_mem_toDigits hc]

theorem FloatStyle.isNumeral_write (style : FloatStyle) (n : ℕ) (e : ℤ) :
    ∀ c ∈ style.write n e, isNumeral c = true := by
  have hzeros : ∀ k, ∀ c ∈ List.replicate k '0', isNumeral c = true := by
    intro k c hc
    rw [List.eq_of_mem_replicate hc]
    decide
  have hdigits := isNumeral_toDigits n
  simp only [FloatStyle.write]
  split
  · split
    · simp only [List.forall_mem_append]
      exact ⟨⟨hdigits, hzeros _⟩, List.all_eq_true.mp rfl⟩
    · split
      · simp only [List.forall_mem_append, List.forall_mem_cons]
        exact ⟨fun c hc => hdigits c (List.mem_of_mem_take hc), by decide,
          fun c hc => hdigits c (List.mem_of_mem_drop hc)⟩
      · simp only [List.forall_mem_append, List.forall_mem_cons]
        exact ⟨⟨by decide, by decide, hzeros _⟩, hdigits⟩
  · simp only [List.forall_mem_append, List.forall_mem_cons]
    refine ⟨⟨?_, by decide, ?_⟩, isNumeral_toDigits _⟩
    · split
      · simp
      · rename_i hds
        exact hds ▸ hdigits
      · rename_i d rest _ hds
        rw [hds] at hdigits
        simp only [List.forall_mem_cons] at hdigits ⊢
        exact ⟨hdigits.1, by decide, hdigits.2⟩
    · split <;> exact List.all_eq_true.mp rfl

theorem FloatStyle.marked_write (style : FloatStyle) (n : ℕ) (e : ℤ) :
    '.' ∈ style.write n e ∨ 'e' ∈ style.write n e := by
  simp only [FloatStyle.write]
  split
  · split
    · simp
    · split <;> simp
  · simp

theorem isNumeral_renderFloat {x : Float} {d : Number.Dyadic}
    (hx : Binary64.ofFloat x = .finite d) : ∀ c ∈ renderFloat x, isNumeral c = true := by
  have hmagnitude : ∀ c ∈ renderMagnitude d, isNumeral c = true := by
    rw [renderMagnitude]
    split
    · exact List.all_eq_true.mp rfl
    · exact floatStyle.isNumeral_write _ _
  rw [renderFloat_eq hx]
  split
  · exact List.forall_mem_cons.mpr ⟨by decide, hmagnitude⟩
  · exact hmagnitude

/-- A float shows a point or an exponent. -/
theorem marked_renderFloat {x : Float} {d : Number.Dyadic} (hx : Binary64.ofFloat x = .finite d) :
    '.' ∈ renderFloat x ∨ 'e' ∈ renderFloat x := by
  have hmagnitude : '.' ∈ renderMagnitude d ∨ 'e' ∈ renderMagnitude d := by
    rw [renderMagnitude]
    split
    · decide
    · exact floatStyle.marked_write _ _
  rw [renderFloat_eq hx]
  split
  · exact hmagnitude.imp (List.mem_cons_of_mem _) (List.mem_cons_of_mem _)
  · exact hmagnitude

theorem isDigit_or_minus_of_mem_renderInt {n : ℤ} {c : Char} (hc : c ∈ renderInt n) :
    c.isDigit = true ∨ c = '-' := by
  rw [renderInt] at hc
  split at hc
  · rcases List.mem_cons.mp hc with rfl | hc
    · exact .inr rfl
    · exact .inl (isDigit_of_mem_toDigits hc)
  · exact .inl (isDigit_of_mem_toDigits hc)

theorem isNumeral_renderInt (n : ℤ) : ∀ c ∈ renderInt n, isNumeral c = true := by
  intro c hc
  rcases isDigit_or_minus_of_mem_renderInt hc with hdigit | rfl
  · simp [isNumeral, hdigit]
  · decide

theorem renderInt_ne_renderFloat {n : ℤ} {x : Float} {d : Number.Dyadic}
    (hx : Binary64.ofFloat x = .finite d) : renderInt n ≠ renderFloat x := by
  intro h
  have hchars : ∀ c ∈ renderFloat x, c.isDigit = true ∨ c = '-' := fun c hc =>
    isDigit_or_minus_of_mem_renderInt (h ▸ hc)
  rcases marked_renderFloat hx with hmark | hmark
  · exact absurd (hchars _ hmark) (by decide)
  · exact absurd (hchars _ hmark) (by decide)

theorem renderInt_injective {m n : ℤ} (h : renderInt m = renderInt n) : m = n := by
  have hminus : ∀ {a : ℕ} {cs : List Char}, Nat.toDigits 10 a ≠ '-' :: cs := by
    intro a cs ha
    have : '-'.isDigit = true := isDigit_of_mem_toDigits (ha ▸ List.mem_cons_self)
    exact absurd this (by decide)
  rw [renderInt, renderInt] at h
  split at h <;> split at h
  · have := toDigits_injective (List.cons.inj h).2
    omega
  · exact absurd h.symm hminus
  · exact absurd h hminus
  · have := toDigits_injective h
    omega

/-! ### Values -/

/-- All numbers in a value are finite. -/
inductive Finite : Json → Prop
  | null : Finite .null
  | bool (b : Bool) : Finite (.bool b)
  | int (n : ℤ) : Finite (.int n)
  | float {x : Float} {d : Number.Dyadic} (hx : Binary64.ofFloat x = .finite d) : Finite (.float x)
  | str (s : String) : Finite (.str s)
  | arr {items : List Json} (h : ∀ j ∈ items, Finite j) : Finite (.arr items)
  | obj {fields : List (String × Json)} (h : ∀ f ∈ fields, Finite f.2) : Finite (.obj fields)

/-- The character that opens a value, unless it is a word or a number. -/
def opening? : Json → Option Char
  | .str _ => some '"'
  | .arr _ => some '['
  | .obj _ => some '\x7b'
  | _ => none

theorem isWord_render {j : Json} (hj : j.Finite) (hopen : j.opening? = none) :
    ∀ c ∈ render j, isWord c = true := by
  cases hj with
  | null => exact List.all_eq_true.mp rfl
  | bool b => cases b <;> exact List.all_eq_true.mp rfl
  | int n =>
    rw [render]
    exact fun c hc => isWord_of_isNumeral (isNumeral_renderInt n c hc)
  | float hx =>
    rw [render]
    exact fun c hc => isWord_of_isNumeral (isNumeral_renderFloat hx c hc)
  | str | arr | obj => simp [opening?] at hopen

theorem render_ne_nil {j : Json} (hj : j.Finite) : render j ≠ [] := by
  cases hj with
  | null => simp [render]
  | bool b => cases b <;> simp [render]
  | int n =>
    rw [render, renderInt]
    split <;> simp [Nat.toDigits_ne_nil]
  | float hx =>
    rw [render]
    intro hnil
    simpa [hnil] using marked_renderFloat hx
  | str => simp [render, renderString]
  | arr | obj => simp [render]

/-- The first character tells whether a value is a word or a number, and what else it is. -/
theorem opening?_eq {j : Json} (hj : j.Finite) :
    j.opening? = (render j).head?.filter (!isWord ·) := by
  cases hopen : j.opening? with
  | none =>
    have hword := isWord_render hj hopen
    cases hcs : render j with
    | nil => rfl
    | cons c cs =>
      have : isWord c = true := hword c (hcs ▸ List.mem_cons_self)
      simp [Option.filter, this]
  | some c =>
    cases hj with
    | null | bool | int | float => simp [opening?] at hopen
    | str s =>
      obtain rfl : '"' = c := by simpa [opening?] using hopen
      rfl
    | arr =>
      obtain rfl : '[' = c := by simpa [opening?] using hopen
      rfl
    | obj =>
      obtain rfl : '\x7b' = c := by simpa [opening?] using hopen
      rfl

theorem head?_render_append {j : Json} (hj : j.Finite) (rest : List Char) :
    (render j ++ rest).head? = (render j).head? := by
  cases hcs : render j with
  | nil => exact absurd hcs (render_ne_nil hj)
  | cons c cs => rfl

theorem opening?_eq_of_append {j j' : Json} (hj : j.Finite) (hj' : j'.Finite)
    {rest rest' : List Char} (h : render j ++ rest = render j' ++ rest') :
    j.opening? = j'.opening? := by
  rw [opening?_eq hj, opening?_eq hj', ← head?_render_append hj rest,
    ← head?_render_append hj' rest', h]

def isNumber : Json → Bool
  | .int _ => true
  | .float _ => true
  | _ => false

/-- A word starts with a letter that is in no number. -/
theorem isNumber_eq {j : Json} (hj : j.Finite) (hopen : j.opening? = none) :
    j.isNumber = (render j).all isNumeral := by
  cases hj with
  | null => rw [render]; decide
  | bool b => cases b <;> rw [render] <;> decide
  | int n =>
    rw [render]
    exact (List.all_eq_true.mpr (isNumeral_renderInt n)).symm
  | float hx =>
    rw [render]
    exact (List.all_eq_true.mpr (isNumeral_renderFloat hx)).symm
  | str | arr | obj => simp [opening?] at hopen

theorem render_word_injective {j j' : Json} (hj : j.Finite) (hj' : j'.Finite)
    (hopen : j.opening? = none) (hopen' : j'.opening? = none) (h : render j = render j') :
    j = j' := by
  have hnumber : j.isNumber = j'.isNumber := by
    rw [isNumber_eq hj hopen, isNumber_eq hj' hopen', h]
  cases hj with
  | str | arr | obj => simp [opening?] at hopen
  | null =>
    cases hj' with
    | null => rfl
    | bool b => cases b <;> simp [render] at h
    | int | float => simp [isNumber] at hnumber
    | str | arr | obj => simp [opening?] at hopen'
  | bool b =>
    cases hj' with
    | null => cases b <;> simp [render] at h
    | bool b' => cases b <;> cases b' <;> simp [render] at h ⊢
    | int | float => simp [isNumber] at hnumber
    | str | arr | obj => simp [opening?] at hopen'
  | int n =>
    cases hj' with
    | null | bool => simp [isNumber] at hnumber
    | int n' => rw [renderInt_injective h]
    | float hx => exact absurd h (renderInt_ne_renderFloat hx)
    | str | arr | obj => simp [opening?] at hopen'
  | float hx =>
    cases hj' with
    | null | bool => simp [isNumber] at hnumber
    | int n' => exact absurd h.symm (renderInt_ne_renderFloat hx)
    | float hx' => rw [renderFloat_injective hx hx' h]
    | str | arr | obj => simp [opening?] at hopen'

/-! ### Arrays and objects -/

def renderField (field : String × Json) : List Char :=
  renderString field.1 ++ ':' :: render field.2

theorem renderItems_eq (items : List Json) :
    renderItems items = [','].intercalate (items.map render) := by
  induction items with
  | nil => rfl
  | cons j items ih =>
    cases items with
    | nil => simp [renderItems]
    | cons k items => rw [renderItems, ih] <;> simp [List.intercalate]

theorem renderFields_eq (fields : List (String × Json)) :
    renderFields fields = [','].intercalate (fields.map renderField) := by
  induction fields with
  | nil => rfl
  | cons field fields ih =>
    cases fields with
    | nil => simp [renderFields, renderField]
    | cons next fields => rw [renderFields, ih] <;> simp [List.intercalate, renderField]

theorem intercalate_cons (text : List Char) (texts : List (List Char)) :
    [','].intercalate (text :: texts) = text ++ texts.flatMap (',' :: ·) := by
  induction texts generalizing text with
  | nil => simp [List.intercalate]
  | cons next texts ih =>
    have := ih next
    simp only [List.intercalate, List.intersperse_cons_cons, List.flatten_cons] at this ⊢
    rw [this]
    simp

section Sequence

variable {α : Type} {f : α → List Char} {close : Char} {items items' : List α}
  {rest rest' : List Char}

theorem closed_sequence (hclose : Closed (close :: rest)) :
    Closed ((items.map f).flatMap (',' :: ·) ++ close :: rest) := by
  cases items with
  | nil => exact hclose
  | cons a items => simp [Closed]

/-- Items with commas before them, where each item can be told from what follows. -/
theorem flatMap_append_inj (hclose : Closed (close :: rest)) (hclose' : Closed (close :: rest'))
    (hcomma : close ≠ ',')
    (hf : ∀ a ∈ items, ∀ a' ∈ items', ∀ {rest rest' : List Char}, Closed rest → Closed rest' →
      f a ++ rest = f a' ++ rest' → a = a' ∧ rest = rest')
    (h : (items.map f).flatMap (',' :: ·) ++ close :: rest =
      (items'.map f).flatMap (',' :: ·) ++ close :: rest') :
    items = items' ∧ rest = rest' := by
  induction items generalizing items' with
  | nil =>
    cases items' with
    | nil => simpa using h
    | cons a' items' => exact absurd (List.cons.inj h).1 hcomma
  | cons a items ih =>
    cases items' with
    | nil => exact absurd (List.cons.inj h).1.symm hcomma
    | cons a' items' =>
      simp only [List.map_cons, List.flatMap_cons, List.cons_append, List.append_assoc,
        List.cons.injEq, true_and] at h
      obtain ⟨rfl, htail⟩ := hf a List.mem_cons_self a' List.mem_cons_self
        (closed_sequence hclose) (closed_sequence hclose') h
      obtain ⟨rfl, hrest⟩ := ih (fun b hb b' hb' => hf b (List.mem_cons_of_mem _ hb) b'
        (List.mem_cons_of_mem _ hb')) htail
      exact ⟨rfl, hrest⟩

theorem intercalate_append_inj (hclose : Closed (close :: rest))
    (hclose' : Closed (close :: rest')) (hcomma : close ≠ ',')
    (hstart : ∀ a, a ∈ items ∨ a ∈ items' → ∀ tail, (f a ++ tail).head? ≠ some close)
    (hf : ∀ a ∈ items, ∀ a' ∈ items', ∀ {rest rest' : List Char}, Closed rest → Closed rest' →
      f a ++ rest = f a' ++ rest' → a = a' ∧ rest = rest')
    (h : [','].intercalate (items.map f) ++ close :: rest =
      [','].intercalate (items'.map f) ++ close :: rest') :
    items = items' ∧ rest = rest' := by
  cases items with
  | nil =>
    cases items' with
    | nil => simpa [List.intercalate] using h
    | cons a' items' =>
      rw [List.map_cons, intercalate_cons, List.append_assoc] at h
      exact absurd (congrArg List.head? h).symm (hstart a' (.inr List.mem_cons_self) _)
  | cons a items =>
    cases items' with
    | nil =>
      rw [List.map_cons, intercalate_cons, List.append_assoc] at h
      exact absurd (congrArg List.head? h) (hstart a (.inl List.mem_cons_self) _)
    | cons a' items' =>
      rw [List.map_cons, List.map_cons, intercalate_cons, intercalate_cons, List.append_assoc,
        List.append_assoc] at h
      obtain ⟨rfl, htail⟩ := hf a List.mem_cons_self a' List.mem_cons_self
        (closed_sequence hclose) (closed_sequence hclose') h
      obtain ⟨rfl, hrest⟩ := flatMap_append_inj hclose hclose' hcomma
        (fun b hb b' hb' => hf b (List.mem_cons_of_mem _ hb) b' (List.mem_cons_of_mem _ hb')) htail
      exact ⟨rfl, hrest⟩

end Sequence

theorem head?_render_ne {j : Json} (hj : j.Finite) {close : Char} {tail : List Char}
    (hclose : Closed (close :: tail)) (rest : List Char) :
    (render j ++ rest).head? ≠ some close := by
  intro h
  have hopen := opening?_eq hj
  rw [← head?_render_append hj rest, h] at hopen
  simp only [Option.filter, not_isWord_of_closed hclose, Bool.not_false, if_true] at hopen
  rcases hclose close rfl with rfl | rfl | rfl <;> cases j <;> simp [opening?] at hopen

theorem render_word_append_inj {j j' : Json} (hj : j.Finite) (hj' : j'.Finite)
    (hopen : j.opening? = none) {rest rest' : List Char} (hrest : Closed rest)
    (hrest' : Closed rest') (h : render j ++ rest = render j' ++ rest') :
    j = j' ∧ rest = rest' := by
  have hopen' : j'.opening? = none := by rw [← opening?_eq_of_append hj hj' h, hopen]
  obtain ⟨hword, hrests⟩ := append_inj_of_isWord (isWord_render hj hopen)
    (isWord_render hj' hopen') hrest hrest' h
  exact ⟨render_word_injective hj hj' hopen hopen' hword, hrests⟩

theorem closed_bracket (rest : List Char) : Closed (']' :: rest) := by
  simp [Closed]

theorem closed_brace (rest : List Char) : Closed ('\x7d' :: rest) := by
  simp [Closed]

/-- What is written of a value and what follows it can be told apart. -/
theorem render_append_inj {j j' : Json} (hj : j.Finite) (hj' : j'.Finite) {rest rest' : List Char}
    (hrest : Closed rest) (hrest' : Closed rest') (h : render j ++ rest = render j' ++ rest') :
    j = j' ∧ rest = rest' := by
  -- The first character decides which kind of value the second text shows.
  induction hj generalizing j' rest rest' with
  | null => exact render_word_append_inj .null hj' rfl hrest hrest' h
  | bool b => exact render_word_append_inj (.bool b) hj' rfl hrest hrest' h
  | int n => exact render_word_append_inj (.int n) hj' rfl hrest hrest' h
  | float hx => exact render_word_append_inj (.float hx) hj' rfl hrest hrest' h
  | str s =>
    have hopen := opening?_eq_of_append (.str s) hj' h
    cases hj' with
    | null | bool | int | float | arr | obj => simp [opening?] at hopen
    | str s' =>
      rw [render, render] at h
      obtain ⟨rfl, hrests⟩ := renderString_append_inj h
      exact ⟨rfl, hrests⟩
  | @arr items hitems ih =>
    have hopen := opening?_eq_of_append (.arr hitems) hj' h
    cases hj' with
    | null | bool | int | float | str | obj => simp [opening?] at hopen
    | @arr items' hitems' =>
      simp only [render, renderItems_eq, List.cons_append, List.append_assoc, List.nil_append,
        List.cons.injEq, true_and] at h
      have hstart : ∀ j, j ∈ items ∨ j ∈ items' → ∀ tail, (render j ++ tail).head? ≠ some ']' :=
        fun j hmem => head?_render_ne (hmem.elim (hitems j) (hitems' j)) (closed_bracket [])
      obtain ⟨rfl, hrests⟩ := intercalate_append_inj (closed_bracket rest) (closed_bracket rest')
        (by decide) hstart
        (fun j hmem j' hmem' _ _ hrest hrest' => ih j hmem (hitems' j' hmem') hrest hrest') h
      exact ⟨rfl, hrests⟩
  | @obj fields hfields ih =>
    have hopen := opening?_eq_of_append (.obj hfields) hj' h
    cases hj' with
    | null | bool | int | float | str | arr => simp [opening?] at hopen
    | @obj fields' hfields' =>
      simp only [render, renderFields_eq, List.cons_append, List.append_assoc, List.nil_append,
        List.cons.injEq, true_and] at h
      have hstart : ∀ field, field ∈ fields ∨ field ∈ fields' →
          ∀ tail, (renderField field ++ tail).head? ≠ some '\x7d' := by
        intro field _ tail
        simp [renderField, renderString]
      refine (intercalate_append_inj (closed_brace rest) (closed_brace rest') (by decide) hstart
        ?_ h).imp_left (congrArg Json.obj)
      rintro ⟨name, j⟩ hmem ⟨name', j'⟩ hmem' rest rest' hrest hrest' hfield
      simp only [renderField, List.append_assoc, List.cons_append] at hfield
      obtain ⟨rfl, hvalue⟩ := renderString_append_inj hfield
      obtain ⟨rfl, hrests⟩ := ih (name, j) hmem (hfields' (name, j') hmem') hrest hrest'
        (List.cons.inj hvalue).2
      exact ⟨rfl, hrests⟩

/-- Values without infinite numbers are written differently unless they are the same. -/
theorem compress_injective {j j' : Json} (hj : j.Finite) (hj' : j'.Finite)
    (h : j.compress = j'.compress) : j = j' := by
  have hrender : render j = render j' := by
    rw [compress, compress] at h
    exact String.ofList_injective h
  have hnil : Closed [] := by simp [Closed]
  exact (render_append_inj hj hj' hnil hnil (by rw [hrender])).1

end Coupling.Json
