import Coupling.Proofs.Text.Utf8

/-!
# Bytes shown as text

Any bytes can be shown as a text. What is text is shown as it is, and what is not becomes marks. So
a text without marks shows one sequence of bytes only, while bytes that are not text may share
theirs with others. A byte below those of longer characters is shown by itself, wherever it stands,
and divides what is before it from what follows.
-/

namespace Coupling.Text

/-! ### One piece -/

theorem lossyFrom_eq_drop (skip : Nat) (bytes : Bytes) :
    lossyFrom skip bytes = lossy (bytes.drop skip) := by
  induction bytes generalizing skip with
  | nil => cases skip <;> rfl
  | cons b rest ih =>
    cases skip with
    | zero => rfl
    | succ skip =>
      rw [lossyFrom, List.drop_succ_cons]
      exact ih skip

theorem lossy_of_firstChar? {b : UInt8} {rest : Bytes} {c : Char} {n : Nat}
    (h : firstChar? b rest = some (c, n)) : lossy (b :: rest) = c :: lossy (rest.drop n) := by
  rw [lossy, lossyFrom, h]
  exact congrArg _ (lossyFrom_eq_drop n rest)

theorem lossy_of_stray {b : UInt8} {rest : Bytes} (h : firstChar? b rest = none) :
    lossy (b :: rest) = mark :: lossy (rest.drop (strayLength b rest)) := by
  rw [lossy, lossyFrom, h]
  exact congrArg _ (lossyFrom_eq_drop _ rest)

/-- The bytes of a character in front are shown as that character. -/
theorem lossy_utf8EncodeChar_append (c : Char) (later : Bytes) :
    lossy (String.utf8EncodeChar c ++ later) = c :: lossy later := by
  cases hc : String.utf8EncodeChar c with
  | nil => exact absurd hc String.utf8EncodeChar_ne_nil
  | cons b tail =>
    have hfirst : firstChar? b (tail ++ later) = some (c, tail.length) :=
      firstChar?_eq_some.mpr ⟨tail, hc, rfl, List.prefix_append _ _⟩
    rw [List.cons_append, lossy_of_firstChar? hfirst, List.drop_left]

theorem lossy_flatMap_append (cs : List Char) (later : Bytes) :
    lossy (cs.flatMap String.utf8EncodeChar ++ later) = cs ++ lossy later := by
  induction cs with
  | nil => rfl
  | cons c cs ih =>
    rw [List.flatMap_cons, List.append_assoc, lossy_utf8EncodeChar_append, ih, List.cons_append]

/-- The bytes of a text are shown as that text. -/
theorem lossy_encode (s : String) : lossy (encode s) = s.toList := by
  have h := lossy_flatMap_append s.toList []
  rwa [List.append_nil, show lossy [] = [] from rfl, List.append_nil] at h

theorem length_le_encode (s : String) : s.toList.length ≤ (encode s).length := by
  unfold encode
  induction s.toList with
  | nil => exact Nat.le_refl _
  | cons c cs ih =>
    have hc : 0 < (String.utf8EncodeChar c).length :=
      List.length_pos_iff.mpr String.utf8EncodeChar_ne_nil
    rw [List.flatMap_cons, List.length_append, List.length_cons]
    omega

/-- The first piece of some bytes: a character with its bytes, or bytes that are shown by a mark. -/
theorem exists_piece (b : UInt8) (rest : Bytes) :
    ∃ c piece later, b :: rest = piece ++ later ∧ later.length ≤ rest.length ∧
      lossy (b :: rest) = c :: lossy later ∧ (piece = String.utf8EncodeChar c ∨ c = mark) := by
  cases hfirst : firstChar? b rest with
  | none =>
    refine ⟨mark, b :: rest.take (strayLength b rest), rest.drop (strayLength b rest), ?_, ?_,
      lossy_of_stray hfirst, .inr rfl⟩
    · rw [List.cons_append, List.take_append_drop]
    · rw [List.length_drop]
      omega
  | some pair =>
    obtain ⟨c, n⟩ := pair
    obtain ⟨tail, hc, rfl, later, rfl⟩ := firstChar?_eq_some.mp hfirst
    refine ⟨c, b :: tail, later, rfl, ?_, ?_, .inl hc.symm⟩
    · rw [List.length_append]
      omega
    · rw [lossy_of_firstChar? hfirst, List.drop_left]

/-- A text without marks shows its own bytes only. -/
theorem flatMap_lossy {bytes : Bytes} (h : mark ∉ lossy bytes) :
    (lossy bytes).flatMap String.utf8EncodeChar = bytes := by
  -- The first piece is not empty, so what follows it is shorter.
  induction hsize : bytes.length using Nat.strongRecOn generalizing bytes with
  | _ size ih =>
    cases bytes with
    | nil => rfl
    | cons b rest =>
      obtain ⟨c, piece, later, hbytes, hlength, hlossy, hpiece⟩ := exists_piece b rest
      rw [hlossy, List.mem_cons, not_or] at h
      have hlater := ih later.length (by rw [← hsize, List.length_cons]; omega) h.2 rfl
      rw [hlossy, List.flatMap_cons, hlater, hbytes]
      rcases hpiece with rfl | rfl
      · rfl
      · exact absurd rfl h.1

/-! ### Bytes that stand for themselves -/

variable {b : UInt8}

theorem ofNat_toNat_of_lt (hb : b < 0x80) : (Char.ofNat b.toNat).toNat = b.toNat := by
  have hlt : b.toNat < 0x80 := UInt8.lt_iff_toNat_lt.mp hb
  have hvalid : b.toNat.isValidChar := .inl (by omega)
  unfold Char.ofNat
  rw [dif_pos hvalid]
  rfl

theorem utf8EncodeChar_of_lt (hb : b < 0x80) :
    String.utf8EncodeChar (Char.ofNat b.toNat) = [b] := by
  have hlt : b.toNat < 0x80 := UInt8.lt_iff_toNat_lt.mp hb
  rw [utf8EncodeChar_eq_iff, ofNat_toNat_of_lt hb, units, if_pos hlt]
  rfl

theorem lossy_cons_of_lt (hb : b < 0x80) (rest : Bytes) :
    lossy (b :: rest) = Char.ofNat b.toNat :: lossy rest := by
  have h := lossy_utf8EncodeChar_append (Char.ofNat b.toNat) rest
  rwa [utf8EncodeChar_of_lt hb] at h

theorem continuation?_of_lt (hb : b < 0x80) : continuation? b = none := by
  have hlt : b.toNat < 0x80 := UInt8.lt_iff_toNat_lt.mp hb
  rw [Option.eq_none_iff_forall_ne_some]
  intro x hx
  have := (continuation?_eq_some.mp hx).1
  omega

/-- What such a byte is in front of does not matter to a character before it. -/
theorem prefix_of_prefix_append_cons {piece front rest : Bytes} (hmem : b ∉ piece)
    (h : piece <+: front ++ b :: rest) : piece <+: front := by
  by_cases hlength : piece.length ≤ front.length
  · exact List.prefix_of_prefix_length_le h (List.prefix_append _ _) hlength
  · have hlonger : front ++ [b] <+: piece := by
      refine List.prefix_of_prefix_length_le ⟨rest, ?_⟩ h ?_
      · rw [List.append_assoc, List.singleton_append]
      · simp only [List.length_append, List.length_cons, List.length_nil]
        omega
    exact absurd (hlonger.subset (by simp)) hmem

theorem firstChar?_append_of_lt (hb : b < 0x80) (x : UInt8) (front rest : Bytes) :
    firstChar? x (front ++ b :: rest) = firstChar? x front := by
  ext ⟨c, n⟩
  rw [firstChar?_eq_some, firstChar?_eq_some]
  refine exists_congr fun tail => and_congr_right fun hc => and_congr_right fun _ => ⟨fun h => ?_,
    fun h => h.trans (List.prefix_append _ _)⟩
  refine prefix_of_prefix_append_cons (fun hmem => ?_) h
  have hchar : b ∈ String.utf8EncodeChar c := hc ▸ List.mem_cons_of_mem x hmem
  have hlt : b.toNat < 0x80 := UInt8.lt_iff_toNat_lt.mp hb
  rw [mem_utf8EncodeChar_iff hlt] at hchar
  have hunits := map_toNat_utf8EncodeChar c
  rw [hc, units, if_pos (by omega)] at hunits
  have hnil := congrArg List.length hunits
  rw [List.length_map, List.length_cons, List.length_singleton] at hnil
  rw [List.length_eq_zero_iff.mp (Nat.succ.inj hnil)] at hmem
  simp at hmem

theorem strayLength_append_of_lt (hb : b < 0x80) (x : UInt8) (front rest : Bytes) :
    strayLength x (front ++ b :: rest) = strayLength x front := by
  have hnone := continuation?_of_lt hb
  have hopens : opens x b = false := by simp [opens, hnone]
  rcases front with _ | ⟨b₁, _ | ⟨b₂, front⟩⟩
  · rw [List.nil_append]
    cases rest <;> simp [strayLength, hopens]
  · simp [strayLength, hnone]
  · rfl

theorem strayLength_le (x : UInt8) (front : Bytes) : strayLength x front ≤ front.length := by
  fun_cases strayLength x front <;> simp_all

theorem lossy_append_cons (hb : b < 0x80) (front rest : Bytes) :
    lossy (front ++ b :: rest) = lossy front ++ Char.ofNat b.toNat :: lossy rest := by
  induction hsize : front.length using Nat.strongRecOn generalizing front with
  | _ size ih =>
    cases front with
    | nil => exact lossy_cons_of_lt hb rest
    | cons x front =>
      have hshorter : ∀ n, (front.drop n).length < size := by
        intro n
        rw [← hsize, List.length_cons, List.length_drop]
        omega
      rw [List.cons_append]
      cases hfirst : firstChar? x front with
      | none =>
        rw [lossy_of_stray hfirst,
          lossy_of_stray (by rw [firstChar?_append_of_lt hb]; exact hfirst),
          strayLength_append_of_lt hb, List.drop_append_of_le_length (strayLength_le x front),
          ih _ (hshorter _) _ rfl, List.cons_append]
      | some pair =>
        obtain ⟨c, n⟩ := pair
        obtain ⟨tail, _, rfl, htail⟩ := firstChar?_eq_some.mp hfirst
        rw [lossy_of_firstChar? hfirst,
          lossy_of_firstChar? (by rw [firstChar?_append_of_lt hb]; exact hfirst),
          List.drop_append_of_le_length htail.length_le, ih _ (hshorter _) _ rfl, List.cons_append]

theorem ofNat_mem_lossy_iff (hb : b < 0x80) {bytes : Bytes} :
    Char.ofNat b.toNat ∈ lossy bytes ↔ b ∈ bytes := by
  have hlt : b.toNat < 0x80 := UInt8.lt_iff_toNat_lt.mp hb
  constructor
  · intro hmem
    induction hsize : bytes.length using Nat.strongRecOn generalizing bytes with
    | _ size ih =>
      cases bytes with
      | nil => simp [lossy, lossyFrom] at hmem
      | cons x rest =>
        obtain ⟨c, piece, later, hbytes, hlength, hlossy, hpiece⟩ := exists_piece x rest
        rw [hlossy, List.mem_cons] at hmem
        rw [hbytes]
        rcases hmem with rfl | hmem
        · rcases hpiece with rfl | hmark
          · rw [utf8EncodeChar_of_lt hb]
            simp
          · have hvalue := ofNat_toNat_of_lt hb
            rw [hmark, show mark.toNat = 0xfffd from rfl] at hvalue
            omega
        · have hsmaller : later.length < size := by
            rw [← hsize, List.length_cons]
            omega
          exact List.mem_append_right _ (ih _ hsmaller hmem rfl)
  · intro hmem
    obtain ⟨front, rest, rfl⟩ := List.append_of_mem hmem
    rw [lossy_append_cons hb]
    simp

/-! ### Bytes that are made a text -/

/-- The bytes of the text that shows some bytes. -/
def repaired (bytes : Bytes) : Bytes := (lossy bytes).flatMap String.utf8EncodeChar

theorem lossy_repaired (bytes : Bytes) : lossy (repaired bytes) = lossy bytes := by
  have h := lossy_flatMap_append (lossy bytes) []
  rwa [List.append_nil, show lossy [] = [] from rfl, List.append_nil] at h

/-- Bytes that are a text are not changed, and no others are made them unless there are marks. -/
theorem repaired_eq_iff {bytes bytes' : Bytes} (hmark : mark ∉ lossy bytes') :
    repaired bytes = bytes' ↔ bytes = bytes' := by
  constructor
  · intro h
    have hlossy : lossy bytes = lossy bytes' := by rw [← lossy_repaired bytes, h]
    rw [← h]
    exact (flatMap_lossy (hlossy ▸ hmark)).symm
  · rintro rfl
    exact flatMap_lossy hmark

theorem repaired_append_cons (hb : b < 0x80) (front rest : Bytes) :
    repaired (front ++ b :: rest) = repaired front ++ b :: repaired rest := by
  rw [repaired, lossy_append_cons hb, List.flatMap_append, List.flatMap_cons,
    utf8EncodeChar_of_lt hb]
  rfl

theorem mem_repaired_iff (hb : b < 0x80) {bytes : Bytes} : b ∈ repaired bytes ↔ b ∈ bytes := by
  rw [← ofNat_mem_lossy_iff hb, lossy_repaired, ofNat_mem_lossy_iff hb]

end Coupling.Text
