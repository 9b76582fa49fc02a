import Coupling.Cache.Results
import Coupling.Proofs.Paths.Shown
import Coupling.Proofs.Text.Separated
import Mathlib.Algebra.Group.Nat.Defs

/-!
# What a key tells

A key digests the text of a path up to a zero byte, the content of a file, and two numbers of fixed
width. No path has a zero byte, so the digested bytes belong to one text and one content only.
Nothing of the path but its text goes into the key.
-/

namespace Coupling

theorem Digest.length_littleEndian (width n : Nat) : (littleEndian width n).length = width := by
  induction width generalizing n with
  | zero => rfl
  | succ width ih => rw [littleEndian, List.length_cons, ih]

theorem Digest.littleEndian_injective {width m n : Nat} (hm : m < 256 ^ width)
    (hn : n < 256 ^ width) (h : littleEndian width m = littleEndian width n) : m = n := by
  induction width generalizing m n with
  | zero => omega
  | succ width ih =>
    rw [littleEndian, littleEndian, List.cons.injEq] at h
    have hlow : m % 256 = n % 256 := by
      have hbytes := congrArg UInt8.toNat h.1
      simpa using hbytes
    have hhigh : m / 256 = n / 256 := by
      rw [Nat.pow_succ] at hm hn
      exact ih (by omega) (by omega) h.2
    omega

/-! ### Digested bytes -/

namespace Cache.FileState

theorem zero_notMem_text {path : Path} (h : 0 ∉ path.bytes) : '\x00' ∉ path.text.toList :=
  mt (Path.mem_text_iff (b := 0) (by decide)).mp h

/-- The digested bytes determine the content and how the path is shown. -/
theorem canonical_injective {s t : FileState} (hs : 0 ∉ s.path.bytes) (ht : 0 ∉ t.path.bytes)
    (h : s.canonical = t.canonical) : s.path.text = t.path.text ∧ s.bytes = t.bytes := by
  simp only [canonical, List.append_assoc, List.cons_append] at h
  obtain ⟨hpath, hrest⟩ := Text.append_cons_inj (Text.zero_notMem_encode (zero_notMem_text hs))
    (Text.zero_notMem_encode (zero_notMem_text ht)) h
  rw [← List.append_assoc, ← List.append_assoc] at hrest
  obtain ⟨hrest, _⟩ := List.append_inj' hrest (by simp [Digest.length_littleEndian])
  obtain ⟨hbytes, _⟩ := List.append_inj' hrest (by simp [Digest.length_littleEndian])
  exact ⟨Text.encode_injective hpath, hbytes⟩

/-- The state with the path as it is shown. -/
def shown (s : FileState) : FileState := { s with path := s.path.shown }

/-- The state of a file as a disk has it, with numbers that fit their widths. -/
structure Proper (s : FileState) : Prop where
  size_eq : s.size = s.bytes.length
  size_lt : s.size < 2 ^ 64
  modified_lt : s.modified < 2 ^ 128

/-- Read from their end, the digested bytes of a file determine all that is shown of its state. -/
theorem Proper.shown_eq_of_canonical {s t : FileState} (hs : s.Proper) (ht : t.Proper)
    (h : s.canonical = t.canonical) : s.shown = t.shown := by
  have hwidth : (256 : Nat) ^ 16 = 2 ^ 128 ∧ (256 : Nat) ^ 8 = 2 ^ 64 := by decide
  rw [canonical, canonical] at h
  obtain ⟨hrest, hsize⟩ := List.append_inj' h (by simp only [Digest.length_littleEndian])
  obtain ⟨hrest, hmodified⟩ := List.append_inj' hrest (by simp only [Digest.length_littleEndian])
  have hsize := Digest.littleEndian_injective (hwidth.2 ▸ hs.size_lt) (hwidth.2 ▸ ht.size_lt) hsize
  have hmodified := Digest.littleEndian_injective (hwidth.1 ▸ hs.modified_lt)
    (hwidth.1 ▸ ht.modified_lt) hmodified
  -- The size is the length of the content, so the content ends where the path starts to.
  have hlength : s.bytes.length = t.bytes.length := by rw [← hs.size_eq, ← ht.size_eq, hsize]
  obtain ⟨hpath, hbytes⟩ := List.append_inj' hrest (by simp [hlength])
  have hpath := Path.shown_eq_iff.mpr (Text.encode_injective hpath)
  have hbytes := (List.cons.inj hbytes).2
  rw [shown, shown, hpath, hbytes, hmodified, hsize]

theorem stem_shown (path : Path) : stem path.shown = stem path := by
  rw [stem, stem, Paths.fileName?_shown]
  cases Paths.fileName? path with
  | none => rfl
  | some name => simp only [Option.map_some, Path.text_shown]

/-- A key knows a path by its text. -/
theorem key_shown (s : FileState) : s.shown.key = s.key := by
  have hcanonical : s.shown.canonical = s.canonical := by
    simp only [canonical, shown, Path.text_shown]
  have hstem : stem s.shown.path = stem s.path := stem_shown s.path
  rw [key, key, hcanonical, hstem]

end Cache.FileState

/-! ### Keys as names of files -/

namespace Paths

theorem slash_notMem_of_mem_segments {bytes segment : Text.Bytes}
    (h : segment ∈ segments bytes) : slash ∉ segment := by
  induction bytes generalizing segment with
  | nil =>
    rw [segments, List.mem_singleton] at h
    simp [h]
  | cons b bytes ih =>
    rw [segments] at h
    by_cases hb : b = slash
    · rw [if_pos hb, List.mem_cons] at h
      rcases h with rfl | h
      · simp
      · exact ih h
    · rw [if_neg hb] at h
      split at h
      · rw [List.mem_singleton] at h
        simp [h, Ne.symm hb]
      · rename_i s rest hsegments
        rw [List.mem_cons] at h
        rcases h with rfl | h
        · have := ih (hsegments ▸ List.mem_cons_self)
          simp [Ne.symm hb, this]
        · exact ih (hsegments ▸ List.mem_cons_of_mem s h)

theorem bytes_of_component? {segment : Text.Bytes} {name : Path}
    (h : component? segment = some (.normal name)) : name.bytes = segment := by
  unfold component? at h
  split at h
  · simp at h
  · split at h
    · simp at h
    · simp only [Option.some.injEq, Component.normal.injEq] at h
      rw [← h]

/-- A name in a path is one of the pieces between slashes. -/
theorem bytes_mem_of_mem_ofSegments {pieces : List Text.Bytes} {name : Path}
    (h : Component.normal name ∈ ofSegments pieces) : name.bytes ∈ pieces := by
  cases pieces with
  | nil => simp [ofSegments] at h
  | cons first rest =>
    rw [ofSegments, List.mem_append] at h
    rcases h with h | h
    · split at h
      · split at h <;> simp at h
      · split at h
        · simp at h
        · rw [Option.mem_toList] at h
          exact bytes_of_component? h ▸ List.mem_cons_self
    · obtain ⟨segment, hsegment, hnormal⟩ := List.mem_filterMap.mp h
      exact bytes_of_component? hnormal ▸ List.mem_cons_of_mem first hsegment

theorem slash_notMem_of_fileName? {path name : Path} (h : fileName? path = some name) :
    slash ∉ name.bytes := by
  have hmem : Component.normal name ∈ components path := by
    unfold fileName? at h
    split at h
    · rename_i name' hlast
      rw [Option.some.injEq] at h
      exact h ▸ List.mem_of_getLast? hlast
    · simp at h
  rw [components_eq] at hmem
  exact slash_notMem_of_mem_segments (bytes_mem_of_mem_ofSegments hmem)

theorem fileName?_of_isName {name : Path} (h : Disk.IsName name) :
    fileName? name = some name := by
  have hempty : name.bytes.isEmpty = false := by simpa using h.1
  simp [fileName?, components_eq, Disk.segments_of_notMem h.2.2.2, ofSegments, hempty, h.2.1,
    component?_of_isName h]

end Paths

theorem Digest.slash_notMem_hex (bytes : List UInt8) : '/' ∉ (hex bytes).toList := by
  have hdigit : ∀ n < 16, '/' ≠ hexDigit n := by decide
  rw [hex, String.toList_ofList, List.mem_flatMap]
  rintro ⟨b, _, hslash⟩
  have hb := b.toNat_lt
  simp only [hexByte, List.mem_cons, List.not_mem_nil, or_false] at hslash
  rcases hslash with hslash | hslash
  · exact hdigit _ (by omega) hslash
  · exact hdigit _ (by omega) hslash

namespace Cache.FileState

theorem slash_notMem_stem (path : Path) : '/' ∉ (stem path).toList := by
  unfold stem
  split
  · rename_i name hname
    rw [String.toList_ofList, List.mem_map]
    rintro ⟨c, hc, hslash⟩
    split at hslash
    · simp at hslash
    · exact Paths.slash_notMem_of_fileName? hname
        ((Path.mem_text_iff Paths.slash_lt).mp (hslash ▸ hc))
  · decide

/-- The file of an entry is named after its key. -/
theorem isName_key (s : FileState) : Disk.IsName (.ofText (s.key ++ ".json")) := by
  have hslash : '/' ∉ (s.key ++ ".json").toList := by
    simp only [key, String.toList_append, String.toList_ofList, List.mem_append, not_or]
    refine ⟨⟨⟨slash_notMem_stem s.path, by decide⟩, fun h => ?_⟩, by decide⟩
    exact Digest.slash_notMem_hex _ (List.mem_of_mem_take h)
  refine Disk.isName_ofText ?_ hslash
  rw [String.toList_append, List.length_append]
  exact Nat.le_add_left_of_le (by decide)

theorem extension?_key (s : FileState) :
    Paths.extension? (.ofText (s.key ++ ".json")) = some (.ofText "json") := by
  have hjson : Text.encode ".json" = Paths.dot :: Text.encode "json" := by decide
  have hbytes : Text.encode (s.key ++ ".json") =
      Text.encode s.key ++ Paths.dot :: Text.encode "json" := by
    rw [← hjson, Text.encode, String.toList_append, List.flatMap_append]
    rfl
  have hplain : (Text.encode "json").reverse.all (· ≠ Paths.dot) = true := by decide
  have hafter : (((Text.encode (s.key ++ ".json")).reverse.takeWhile
      (· ≠ Paths.dot))).reverse = Text.encode "json" := by
    rw [hbytes, List.reverse_append, List.reverse_cons, List.append_assoc,
      List.takeWhile_append_of_pos (List.all_eq_true.mp hplain)]
    simp
  have hkey : 0 < (Text.encode s.key).length := by
    simp only [key, Text.encode, String.toList_append, List.flatMap_append, List.length_append]
    exact Nat.add_pos_left (Nat.add_pos_right _ (by decide)) _
  rw [Paths.extension?, Paths.fileName?_of_isName s.isName_key]
  simp only [Option.bind_some, Path.ofText]
  rw [hafter, if_pos]
  rw [hbytes, List.length_append, List.length_cons]
  omega

end Cache.FileState

end Coupling
