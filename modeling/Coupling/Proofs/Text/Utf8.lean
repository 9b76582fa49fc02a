import Coupling.Text.Utf8
import Mathlib.Data.List.Basic
import Mathlib.Data.Option.Basic

/-!
# Text as bytes

Reading bytes as text undoes writing them. What is read is the longest text that the bytes start
with, so bytes are refused exactly at the first one that no text can have there. The bytes of texts
are in the order of the texts.
-/

namespace Coupling.Text

/-! ### Bytes of a character -/

theorem encode_ofList (cs : List Char) :
    encode (String.ofList cs) = cs.flatMap String.utf8EncodeChar := by
  rw [encode, String.toList_ofList]

/-- The bytes of a code point, as numbers. -/
def units (v : Nat) : List Nat :=
  if v < 0x80 then [v]
  else if v < 0x800 then [0xc0 + v / 0x40, 0x80 + v % 0x40]
  else if v < 0x10000 then [0xe0 + v / 0x1000, 0x80 + v / 0x40 % 0x40, 0x80 + v % 0x40]
  else [0xf0 + v / 0x40000, 0x80 + v / 0x1000 % 0x40, 0x80 + v / 0x40 % 0x40, 0x80 + v % 0x40]

theorem isValidChar_toNat (c : Char) :
    c.toNat < 0xd800 ∨ 0xdfff < c.toNat ∧ c.toNat < 0x110000 := c.valid

theorem map_toNat_utf8EncodeChar (c : Char) :
    (String.utf8EncodeChar c).map UInt8.toNat = units c.toNat := by
  have hvalid := isValidChar_toNat c
  unfold units
  fun_cases String.utf8EncodeChar c with
  | case1 v hle =>
    have hv : v = c.toNat := rfl
    rw [if_pos (by omega)]
    simp only [List.map_cons, List.map_nil, UInt8.toNat_ofNat', List.cons.injEq, and_true]
    omega
  | case2 v hone hle =>
    have hv : v = c.toNat := rfl
    rw [if_neg (by omega), if_pos (by omega)]
    simp only [List.map_cons, List.map_nil, UInt8.toNat_ofNat', List.cons.injEq, and_true]
    omega
  | case3 v hone htwo hle =>
    have hv : v = c.toNat := rfl
    rw [if_neg (by omega), if_neg (by omega), if_pos (by omega)]
    simp only [List.map_cons, List.map_nil, UInt8.toNat_ofNat', List.cons.injEq, and_true]
    omega
  | case4 v hone htwo hthree =>
    have hv : v = c.toNat := rfl
    rw [if_neg (by omega), if_neg (by omega), if_neg (by omega)]
    simp only [List.map_cons, List.map_nil, UInt8.toNat_ofNat', List.cons.injEq, and_true]
    omega

theorem utf8EncodeChar_eq_iff {c : Char} {bytes : Bytes} :
    String.utf8EncodeChar c = bytes ↔ units c.toNat = bytes.map UInt8.toNat := by
  rw [← map_toNat_utf8EncodeChar]
  exact (List.map_injective_iff.mpr fun _ _ => UInt8.toNat_inj.mp).eq_iff.symm

/-- The first byte of a character tells how many follow. -/
theorem units_eq_cons {v x : Nat} {tail : List Nat} (h : units v = x :: tail) :
    (x < 0x80 ∧ tail.length = 0) ∨ (0xc0 ≤ x ∧ x < 0xe0 ∧ tail.length = 1) ∨
      (0xe0 ≤ x ∧ x < 0xf0 ∧ tail.length = 2) ∨ (0xf0 ≤ x ∧ tail.length = 3) := by
  unfold units at h
  split_ifs at h
  all_goals
    obtain ⟨hx, htail⟩ := List.cons.inj h
    have hlength := congrArg List.length htail
    simp only [List.length_cons, List.length_nil] at hlength
    omega

/-- A byte below those of longer characters stands for itself. -/
theorem mem_units_of_lt {v x : Nat} (hx : x < 0x80) : x ∈ units v ↔ v = x := by
  unfold units
  split_ifs <;> simp only [List.mem_cons, List.not_mem_nil, or_false] <;> omega

theorem mem_utf8EncodeChar_iff {c : Char} {b : UInt8} (hb : b.toNat < 0x80) :
    b ∈ String.utf8EncodeChar c ↔ c.toNat = b.toNat := by
  rw [← mem_units_of_lt hb, ← map_toNat_utf8EncodeChar, List.mem_map]
  constructor
  · exact fun h => ⟨b, h, rfl⟩
  · rintro ⟨b', hmem, heq⟩
    exact UInt8.toNat_inj.mp heq ▸ hmem

theorem zero_notMem_encode {s : String} (hs : '\x00' ∉ s.toList) : 0 ∉ encode s := by
  rw [encode, List.mem_flatMap]
  rintro ⟨c, hc, hzero⟩
  rw [mem_utf8EncodeChar_iff (by decide)] at hzero
  have heq : c = '\x00' := Char.toNat_inj.mp hzero
  exact hs (heq ▸ hc)

/-! ### Reading one character -/

private theorem ofNat_eq_iff {n : Nat} (h : n.isValidChar) {c : Char} :
    Char.ofNat n = c ↔ n = c.toNat := by
  constructor
  · rintro rfl
    unfold Char.ofNat
    rw [dif_pos h]
    rfl
  · rintro rfl
    exact Char.ofNat_toNat c

theorem continuation?_eq_some {b : UInt8} {x : Nat} :
    continuation? b = some x ↔ 0x80 ≤ b.toNat ∧ b.toNat ≤ 0xbf ∧ x = b.toNat - 0x80 := by
  simp [continuation?, UInt8.le_iff_toNat_le, and_assoc, eq_comm]

theorem char2?_eq_some {b₀ b₁ : UInt8} {c : Char} :
    char2? b₀ b₁ = some c ↔ units c.toNat = [b₀.toNat, b₁.toNat] := by
  simp only [char2?, Option.guard_eq_some', Option.bind_eq_bind, Option.bind_eq_some_iff,
    continuation?_eq_some, UInt8.le_iff_toNat_le, Option.pure_def, Option.some.injEq,
    UInt8.reduceToNat]
  constructor
  · rintro ⟨_, h₀, x, ⟨hlow, hhigh, hx⟩, hc⟩
    rw [ofNat_eq_iff (.inl (by omega))] at hc
    rw [units, if_neg (by omega), if_pos (by omega)]
    simp only [List.cons.injEq, and_true]
    omega
  · intro h
    unfold units at h
    split_ifs at h <;> simp only [List.cons.injEq, reduceCtorEq, and_true, and_false] at h
    refine ⟨(), by omega, _, ⟨by omega, by omega, rfl⟩, ?_⟩
    rw [ofNat_eq_iff (.inl (by omega))]
    omega

theorem char3?_eq_some {b₀ b₁ b₂ : UInt8} {c : Char} :
    char3? b₀ b₁ b₂ = some c ↔ units c.toNat = [b₀.toNat, b₁.toNat, b₂.toNat] := by
  have hvalid := isValidChar_toNat c
  simp only [char3?, Option.guard_eq_some', Option.bind_eq_bind, Option.bind_eq_some_iff,
    continuation?_eq_some, UInt8.le_iff_toNat_le, ← UInt8.toNat_inj, Option.pure_def,
    Option.some.injEq, UInt8.reduceToNat]
  constructor
  · rintro ⟨_, h₀, _, hedges, x, ⟨hlow, hhigh, hx⟩, y, ⟨hlow', hhigh', hy⟩, hc⟩
    rw [ofNat_eq_iff (by simp only [Nat.isValidChar]; omega)] at hc
    rw [units, if_neg (by omega), if_neg (by omega), if_pos (by omega)]
    simp only [List.cons.injEq, and_true]
    omega
  · intro h
    unfold units at h
    split_ifs at h <;> simp only [List.cons.injEq, reduceCtorEq, and_true, and_false] at h
    refine ⟨(), by omega, (), by omega, _, ⟨by omega, by omega, rfl⟩, _,
      ⟨by omega, by omega, rfl⟩, ?_⟩
    rw [ofNat_eq_iff (by simp only [Nat.isValidChar]; omega)]
    omega

theorem char4?_eq_some {b₀ b₁ b₂ b₃ : UInt8} {c : Char} :
    char4? b₀ b₁ b₂ b₃ = some c ↔
      units c.toNat = [b₀.toNat, b₁.toNat, b₂.toNat, b₃.toNat] := by
  have hvalid := isValidChar_toNat c
  simp only [char4?, Option.guard_eq_some', Option.bind_eq_bind, Option.bind_eq_some_iff,
    continuation?_eq_some, UInt8.le_iff_toNat_le, ← UInt8.toNat_inj, Option.pure_def,
    Option.some.injEq, UInt8.reduceToNat]
  constructor
  · rintro ⟨_, h₀, _, hedges, x, ⟨hlow, hhigh, hx⟩, y, ⟨hlow', hhigh', hy⟩, z,
      ⟨hlow'', hhigh'', hz⟩, hc⟩
    rw [ofNat_eq_iff (by simp only [Nat.isValidChar]; omega)] at hc
    rw [units, if_neg (by omega), if_neg (by omega), if_neg (by omega)]
    simp only [List.cons.injEq, and_true]
    omega
  · intro h
    unfold units at h
    split_ifs at h <;> simp only [List.cons.injEq, reduceCtorEq, and_true, and_false] at h
    refine ⟨(), by omega, (), by omega, _, ⟨by omega, by omega, rfl⟩, _,
      ⟨by omega, by omega, rfl⟩, _, ⟨by omega, by omega, rfl⟩, ?_⟩
    rw [ofNat_eq_iff (by simp only [Nat.isValidChar]; omega)]
    omega

private theorem char2?_eq_none {b₀ : UInt8} (h : 0xe0 ≤ b₀.toNat) (b₁ : UInt8) :
    char2? b₀ b₁ = none := by
  rw [Option.eq_none_iff_forall_ne_some]
  intro c hc
  have hlead := units_eq_cons (char2?_eq_some.mp hc)
  simp only [List.length_cons, List.length_nil] at hlead
  omega

private theorem char3?_eq_none {b₀ : UInt8} (h : 0xf0 ≤ b₀.toNat) (b₁ b₂ : UInt8) :
    char3? b₀ b₁ b₂ = none := by
  rw [Option.eq_none_iff_forall_ne_some]
  intro c hc
  have hlead := units_eq_cons (char3?_eq_some.mp hc)
  simp only [List.length_cons, List.length_nil] at hlead
  omega

/-- The first character that is read is the one whose bytes come first. -/
theorem firstChar?_eq_some {b : UInt8} {rest : Bytes} {c : Char} {n : Nat} :
    firstChar? b rest = some (c, n) ↔
      ∃ tail, String.utf8EncodeChar c = b :: tail ∧ tail.length = n ∧ tail <+: rest := by
  have hb := b.toNat_lt
  simp only [utf8EncodeChar_eq_iff, List.map_cons]
  unfold firstChar?
  by_cases hlow : b.toNat < 0x80
  · rw [if_pos (by rw [UInt8.lt_iff_toNat_lt]; exact hlow), Option.some.injEq, Prod.mk.injEq,
      ofNat_eq_iff (.inl (by omega))]
    constructor
    · rintro ⟨hc, rfl⟩
      exact ⟨[], by rw [units, if_pos (by omega), hc]; rfl, rfl, List.nil_prefix⟩
    · rintro ⟨tail, hunits, rfl, _⟩
      have hlead := units_eq_cons hunits
      rw [List.length_map] at hlead
      have hc : c.toNat = b.toNat := (mem_units_of_lt hlow).mp (hunits ▸ List.mem_cons_self)
      exact ⟨hc.symm, by omega⟩
  rw [if_neg (by rw [UInt8.lt_iff_toNat_lt]; exact hlow)]
  constructor
  · intro h
    rcases rest with _ | ⟨b₁, rest⟩
    · simp at h
    simp only [Option.or_eq_some_iff, Option.map_eq_some_iff, Prod.mk.injEq, char2?_eq_some] at h
    rcases h with ⟨_, hunits, rfl, rfl⟩ | ⟨_, h⟩
    · exact ⟨[b₁], hunits, rfl, by simp⟩
    rcases rest with _ | ⟨b₂, rest⟩
    · simp at h
    simp only [Option.or_eq_some_iff, Option.map_eq_some_iff, Prod.mk.injEq, char3?_eq_some] at h
    rcases h with ⟨_, hunits, rfl, rfl⟩ | ⟨_, h⟩
    · exact ⟨[b₁, b₂], hunits, rfl, by simp⟩
    rcases rest with _ | ⟨b₃, rest⟩
    · simp at h
    simp only [Option.map_eq_some_iff, Prod.mk.injEq, char4?_eq_some] at h
    obtain ⟨_, hunits, rfl, rfl⟩ := h
    exact ⟨[b₁, b₂, b₃], hunits, rfl, by simp⟩
  · rintro ⟨tail, hunits, rfl, later, rfl⟩
    have hlead := units_eq_cons hunits
    rw [List.length_map] at hlead
    rcases hlead with ⟨hone, _⟩ | ⟨_, _, hlength⟩ | ⟨hthree, _, hlength⟩ | ⟨hfour, hlength⟩
    · exact absurd hone hlow
    · obtain ⟨b₁, rfl⟩ := List.length_eq_one_iff.mp hlength
      simp [char2?_eq_some.mpr hunits]
    · obtain ⟨b₁, b₂, rfl⟩ := List.length_eq_two.mp hlength
      simp [char2?_eq_none hthree, char3?_eq_some.mpr hunits]
    · obtain ⟨b₁, b₂, b₃, rfl⟩ := List.length_eq_three.mp hlength
      have hthree : 0xe0 ≤ b.toNat := by omega
      simp [char2?_eq_none hthree, char3?_eq_none hfour, char4?_eq_some.mpr hunits]

/-! ### Reading a whole text -/

theorem decodeFrom_eq_drop (skip : Nat) (bytes : Bytes) :
    decodeFrom skip bytes = decodePrefix (bytes.drop skip) := by
  induction bytes generalizing skip with
  | nil => cases skip <;> rfl
  | cons b rest ih =>
    cases skip with
    | zero => rfl
    | succ skip =>
      rw [decodeFrom, List.drop_succ_cons]
      exact ih skip

theorem decodePrefix_cons {b : UInt8} {tail : Bytes} {c : Char}
    (hc : String.utf8EncodeChar c = b :: tail) (later : Bytes) :
    decodePrefix (b :: (tail ++ later)) =
      (c :: (decodePrefix later).1, (decodePrefix later).2) := by
  have hfirst : firstChar? b (tail ++ later) = some (c, tail.length) :=
    firstChar?_eq_some.mpr ⟨tail, hc, rfl, List.prefix_append _ _⟩
  rw [decodePrefix, decodeFrom, hfirst]
  simp only [decodeFrom_eq_drop, List.drop_left]

theorem decodePrefix_append (cs : List Char) (rest : Bytes) :
    decodePrefix (cs.flatMap String.utf8EncodeChar ++ rest) =
      (cs ++ (decodePrefix rest).1, (decodePrefix rest).2) := by
  induction cs with
  | nil => rfl
  | cons c cs ih =>
    cases hc : String.utf8EncodeChar c with
    | nil => exact absurd hc String.utf8EncodeChar_ne_nil
    | cons b tail =>
      rw [List.flatMap_cons, hc, List.cons_append, List.cons_append, List.append_assoc,
        decodePrefix_cons hc, ih]
      rfl

/-- What is read and what is left over make up the bytes. -/
theorem flatMap_append_decodePrefix (bytes : Bytes) :
    (decodePrefix bytes).1.flatMap String.utf8EncodeChar ++ (decodePrefix bytes).2 = bytes := by
  -- A character takes one byte or more, so the bytes after it are fewer.
  induction hsize : bytes.length using Nat.strongRecOn generalizing bytes with
  | _ size ih =>
    cases bytes with
    | nil => rfl
    | cons b rest =>
      cases hfirst : firstChar? b rest with
      | none =>
        rw [decodePrefix, decodeFrom, hfirst]
        rfl
      | some pair =>
        obtain ⟨c, n⟩ := pair
        obtain ⟨tail, hc, rfl, later, rfl⟩ := firstChar?_eq_some.mp hfirst
        have hless : later.length < size := by
          rw [← hsize, List.length_cons, List.length_append]
          omega
        have hlater := ih later.length hless later rfl
        rw [decodePrefix_cons hc, List.flatMap_cons, List.append_assoc, hlater, hc]
        rfl

theorem decode?_eq_some_iff {bytes : Bytes} {cs : List Char} :
    decode? bytes = some cs ↔ cs.flatMap String.utf8EncodeChar = bytes := by
  unfold decode?
  constructor
  · intro h
    split at h
    · rename_i cs' hdecoded
      have hbytes := flatMap_append_decodePrefix bytes
      rwa [hdecoded, Option.some.inj h, List.append_nil] at hbytes
    · simp at h
  · rintro rfl
    have hall := decodePrefix_append cs []
    rw [List.append_nil] at hall
    rw [hall]
    simp [decodePrefix, decodeFrom]

theorem encode_injective {s t : String} (h : encode s = encode t) : s = t := by
  have hs : decode? (encode s) = some s.toList := decode?_eq_some_iff.mpr rfl
  have ht : decode? (encode t) = some t.toList := decode?_eq_some_iff.mpr rfl
  rw [h, ht, Option.some.injEq] at hs
  exact String.toList_injective hs.symm

/-! ### The longest text -/

/-- Bytes that are the bytes of a text. -/
def IsText (bytes : Bytes) : Prop := ∃ s, encode s = bytes

/-- The first `n` bytes are a text, and so are no more than these. -/
structure LongestText (bytes : Bytes) (n : Nat) : Prop where
  le_length : n ≤ bytes.length
  isText : IsText (bytes.take n)
  longest : ∀ m ≤ bytes.length, IsText (bytes.take m) → m ≤ n

theorem isText_iff {bytes : Bytes} :
    IsText bytes ↔ ∃ cs : List Char, cs.flatMap String.utf8EncodeChar = bytes := by
  constructor
  · rintro ⟨s, rfl⟩
    exact ⟨s.toList, rfl⟩
  · rintro ⟨cs, rfl⟩
    exact ⟨String.ofList cs, encode_ofList cs⟩

theorem longestText_decodePrefix (bytes : Bytes) :
    LongestText bytes (bytes.length - (decodePrefix bytes).2.length) := by
  have hsplit := flatMap_append_decodePrefix bytes
  have hsize := congrArg List.length hsplit
  rw [List.length_append] at hsize
  refine ⟨Nat.sub_le _ _, ?_, fun m hm htext => ?_⟩
  · refine isText_iff.mpr ⟨(decodePrefix bytes).1, ?_⟩
    have hlength : bytes.length - (decodePrefix bytes).2.length =
        ((decodePrefix bytes).1.flatMap String.utf8EncodeChar).length := by omega
    rw [hlength]
    nth_rewrite 3 [← hsplit]
    rw [List.take_left]
  · obtain ⟨ds, hds⟩ := isText_iff.mp htext
    have hall := decodePrefix_append ds (bytes.drop m)
    rw [hds, List.take_append_drop] at hall
    have hrest := congrArg List.length (flatMap_append_decodePrefix (bytes.drop m))
    rw [List.length_append, List.length_drop] at hrest
    have hleft : (decodePrefix bytes).2 = (decodePrefix (bytes.drop m)).2 := by rw [hall]
    rw [hleft]
    omega

/-! ### Order -/

/-- The bytes of a smaller code point come first, whatever follows. -/
theorem units_append_lt {v w : Nat} (h : v < w) (xs ys : List Nat) :
    units v ++ xs < units w ++ ys := by
  unfold units
  by_cases hlater : xs < ys
  all_goals
    split_ifs <;>
      simp only [List.cons_append, List.nil_append, List.cons_lt_cons_iff, hlater, and_true,
        and_false, or_false] <;>
      omega

theorem map_toNat_lt_iff {xs ys : Bytes} :
    xs.map UInt8.toNat < ys.map UInt8.toNat ↔ xs < ys := by
  induction xs generalizing ys with
  | nil => cases ys <;> simp
  | cons x xs ih =>
    cases ys with
    | nil => simp
    | cons y ys =>
      simp only [List.map_cons, List.cons_lt_cons_iff, ih, UInt8.toNat_inj, UInt8.lt_iff_toNat_lt]

theorem flatMap_lt_flatMap {cs ds : List Char} (h : cs < ds) :
    cs.flatMap String.utf8EncodeChar < ds.flatMap String.utf8EncodeChar := by
  induction cs generalizing ds with
  | nil =>
    cases ds with
    | nil => simp at h
    | cons d ds =>
      cases hd : String.utf8EncodeChar d with
      | nil => exact absurd hd String.utf8EncodeChar_ne_nil
      | cons b tail => simp [hd]
  | cons c cs ih =>
    cases ds with
    | nil => simp at h
    | cons d ds =>
      rw [List.cons_lt_cons_iff] at h
      rw [List.flatMap_cons, List.flatMap_cons]
      rcases h with h | ⟨rfl, h⟩
      · rw [← map_toNat_lt_iff, List.map_append, List.map_append, map_toNat_utf8EncodeChar,
          map_toNat_utf8EncodeChar]
        exact units_append_lt h _ _
      · exact List.append_left_lt (ih h)

/-- A smaller text has smaller bytes. -/
theorem encode_lt_encode {s t : String} (h : s.toList < t.toList) : encode s < encode t := by
  exact flatMap_lt_flatMap h

end Coupling.Text
