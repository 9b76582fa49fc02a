import Coupling.Proofs.Disk.Locations
import Coupling.Proofs.Text.Lossy

/-!
# Paths as they are shown

Findings and keys know a path by its text. Slashes and dots are shown as they are, so the text has
the components of the path, each of them shown in its place.
-/

namespace Coupling

theorem Paths.slash_lt : slash < 0x80 := by decide

namespace Path

@[simp] theorem text_ofText (s : String) : (ofText s).text = s := by
  rw [text, ofText, Text.lossy_encode, String.ofList_toList]

@[simp] theorem ofText_inj {s t : String} : ofText s = ofText t ↔ s = t :=
  ⟨fun h => by rw [← text_ofText s, h, text_ofText], congrArg ofText⟩

/-- The path that is what it is shown as. -/
def shown (path : Path) : Path := ofText path.text

@[simp] theorem text_shown (path : Path) : path.shown.text = path.text := text_ofText _

theorem bytes_shown (path : Path) : path.shown.bytes = Text.repaired path.bytes := by
  rw [shown, ofText, text, Text.encode_ofList, Text.repaired]

theorem shown_eq_iff {path path' : Path} : path.shown = path'.shown ↔ path.text = path'.text :=
  ofText_inj

theorem mem_text_iff {path : Path} {b : UInt8} (hb : b < 0x80) :
    Char.ofNat b.toNat ∈ path.text.toList ↔ b ∈ path.bytes := by
  rw [text, String.toList_ofList, Text.ofNat_mem_lossy_iff hb]

end Path

theorem Disk.isName_ofText {s : String} (hlength : 3 ≤ s.toList.length) (hslash : '/' ∉ s.toList) :
    IsName (.ofText s) := by
  refine isName_of_length (Nat.le_trans hlength (Text.length_le_encode s)) fun hmem => ?_
  rw [← Path.mem_text_iff Paths.slash_lt, Path.text_ofText] at hmem
  exact hslash hmem

namespace Paths

open Text (Bytes repaired)

/-! ### Components -/

/-- The components of the pieces of a path. -/
def ofSegments : List Bytes → List Component
  | [] => []
  | first :: rest =>
    (if first.isEmpty then if rest.isEmpty then [] else [.root]
      else if first = [dot] then [.here]
      else (component? first).toList) ++ rest.filterMap component?

theorem components_eq (path : Path) : components path = ofSegments (segments path.bytes) := by
  unfold components
  cases segments path.bytes <;> rfl

theorem component?_of_isName {name : Path} (hname : Disk.IsName name) :
    component? name.bytes = some (.normal name) := by
  obtain ⟨hne, hdot, hup, _⟩ := hname
  rw [component?, if_neg (not_or.mpr ⟨hne, hdot⟩), if_neg hup]

def Component.shown : Component → Component
  | .root => .root
  | .here => .here
  | .up => .up
  | .normal name => .normal name.shown

theorem segments_repaired (bytes : Bytes) :
    segments (repaired bytes) = (segments bytes).map repaired := by
  -- The pieces before and after a slash are repaired separately.
  induction hsize : bytes.length using Nat.strongRecOn generalizing bytes with
  | _ size ih =>
    by_cases hslash : slash ∈ bytes
    · obtain ⟨front, rest, rfl⟩ := List.append_of_mem hslash
      rw [List.length_append, List.length_cons] at hsize
      rw [Text.repaired_append_cons slash_lt, Disk.segments_append_slash,
        Disk.segments_append_slash, List.map_append, ih front.length (by omega) front rfl,
        ih rest.length (by omega) rest rfl]
    · have hrepaired : slash ∉ repaired bytes := mt (Text.mem_repaired_iff slash_lt).mp hslash
      rw [Disk.segments_of_notMem hslash, Disk.segments_of_notMem hrepaired, List.map_singleton]

theorem repaired_eq_nil_iff {segment : Bytes} : repaired segment = [] ↔ segment = [] :=
  Text.repaired_eq_iff (by decide)

theorem repaired_eq_dot_iff {segment : Bytes} : repaired segment = [dot] ↔ segment = [dot] :=
  Text.repaired_eq_iff (by decide)

theorem component?_repaired (segment : Bytes) :
    component? (repaired segment) = (component? segment).map Component.shown := by
  have hup : repaired segment = [dot, dot] ↔ segment = [dot, dot] :=
    Text.repaired_eq_iff (by decide)
  simp only [component?, repaired_eq_nil_iff, repaired_eq_dot_iff, hup]
  split
  · rfl
  · split
    · rfl
    · have hname : (⟨repaired segment⟩ : Path) = (⟨segment⟩ : Path).shown := by
        rw [← Path.bytes_shown ⟨segment⟩]
      rw [hname]
      rfl

theorem ofSegments_repaired (pieces : List Bytes) :
    ofSegments (pieces.map repaired) = (ofSegments pieces).map Component.shown := by
  cases pieces with
  | nil => rfl
  | cons first rest =>
    have hrest : (rest.map repaired).filterMap component? =
        (rest.filterMap component?).map Component.shown := by
      rw [List.filterMap_map, List.map_filterMap]
      exact List.filterMap_congr fun segment _ => component?_repaired segment
    rw [List.map_cons, ofSegments, ofSegments, hrest, List.map_append]
    congr 1
    simp only [List.isEmpty_iff, repaired_eq_nil_iff, repaired_eq_dot_iff, List.map_eq_nil_iff,
      component?_repaired]
    split
    · split <;> rfl
    · split
      · rfl
      · cases component? first <;> rfl

/-- What is shown has the components of the path as they are shown. -/
theorem components_shown (path : Path) :
    components path.shown = (components path).map Component.shown := by
  rw [components_eq, components_eq, Path.bytes_shown, segments_repaired, ofSegments_repaired]

theorem fileName?_shown (path : Path) : fileName? path.shown = (fileName? path).map Path.shown := by
  rw [fileName?, fileName?, components_shown, List.getLast?_map]
  cases (components path).getLast? with
  | none => rfl
  | some last => cases last <;> rfl

end Paths

end Coupling
