import Coupling.Proofs.Cache.Frame
import Coupling.Proofs.Disk.Contents

/-!
# Stamps of files

A stamp is what tells the states of a file apart: path, content, time and size. A cache looks at the
stamp of a file and at nothing else of it, and of the path it sees the text. Asking the cache and
keeping results in it changes files in its directory only, and all others keep their stamps.
-/

namespace Coupling.Cache

structure Stamp where
  path : Path
  bytes : Text.Bytes
  modified : Int
  size : Nat
deriving DecidableEq

namespace Stamp

def at? (d : Disk) (path : Path) : Option Stamp :=
  match d.look path with
  | .ok (.file document modified) => some ⟨path, document.bytes, modified, document.bytes.length⟩
  | _ => none

/-- The part of a stamp that a key is made from. -/
def state (s : Stamp) : FileState := ⟨s.path.shown, s.bytes, s.modified.toNat, s.size⟩

/-- Since the epoch, a key tells times apart; and it tells paths apart that are shown as different
ones. -/
theorem state_injective {s t : Stamp} (hpath : s.path.text = t.path.text → s.path = t.path)
    (hs : 0 ≤ s.modified) (ht : 0 ≤ t.modified) (h : s.state = t.state) : s = t := by
  obtain ⟨path, bytes, modified, size⟩ := s
  obtain ⟨path', bytes', modified', size'⟩ := t
  simp only [state, FileState.mk.injEq, Path.shown_eq_iff] at h
  obtain ⟨htext, rfl, hmodified, rfl⟩ := h
  obtain rfl : path = path' := hpath htext
  have : modified = modified' := by
    simp only at hs ht
    omega
  rw [this]

variable {d d' : Disk} {path : Path} {s : Stamp}

theorem at?_eq_some : at? d path = some s ↔
    ∃ document modified, d.look path = .ok (.file document modified) ∧
      s = ⟨path, document.bytes, modified, document.bytes.length⟩ := by
  unfold at?
  split
  · rename_i document modified hlook
    simp [hlook, eq_comm]
  · rename_i hfile
    exact iff_of_false (by simp) fun ⟨document, modified, hlook, _⟩ => hfile document modified hlook

theorem path_of_at? (h : at? d path = some s) : s.path = path := by
  obtain ⟨_, _, _, rfl⟩ := at?_eq_some.mp h
  rfl

theorem text_of_at? (h : at? d path = some s) : s.state.path.text = path.text := by
  rw [state, Path.text_shown, path_of_at? h]

theorem size_of_at? (h : at? d path = some s) : s.size = s.bytes.length := by
  obtain ⟨_, _, _, rfl⟩ := at?_eq_some.mp h
  rfl

/-- A file with a stamp can be read, and its key is made from the stamp. -/
theorem read_of_at? (h : at? d path = some s) : ∃ document state, d.read path = .ok document ∧
    FileState.ofDisk? d path document.bytes = some state ∧ state.key = s.state.key := by
  obtain ⟨document, modified, hlook, rfl⟩ := at?_eq_some.mp h
  refine ⟨document, _, by rw [Disk.read, hlook], by rw [FileState.ofDisk?, hlook]; rfl, ?_⟩
  exact (FileState.key_shown _).symm

theorem read_of_at?_none (h : at? d path = none) : ∃ e, d.read path = .error e := by
  cases hread : d.read path with
  | error e => exact ⟨e, rfl⟩
  | ok document =>
    obtain ⟨modified, hlook, _⟩ := Disk.read_eq_ok hread
    simp [at?, hlook] at h

/-- Files outside of a directory keep their stamps when files in it change. -/
theorem at?_within {directory : Path} (h : d.Within directory d')
    (hout : (Disk.destination d.workDir path).dropLast ≠ Disk.destination d.workDir directory) :
    at? d' path = at? d path := by
  ext s
  rw [at?_eq_some, at?_eq_some]
  simp only [h.look_iff hout]

/-- Touching a file changes the time of its stamp. -/
theorem at?_touch (h : at? d path = some s)
    (modified : Int) :
    ((d.touch path modified).toOption.getD d).workDir = d.workDir ∧
      at? ((d.touch path modified).toOption.getD d) path =
        some { s with modified := modified } := by
  obtain ⟨document, modified', hlook, rfl⟩ := at?_eq_some.mp h
  obtain ⟨here, hlocate, hnode⟩ := Disk.look_eq_ok_iff.mp hlook
  have hread : d.read path = .ok document := by rw [Disk.read, hlook]
  have hwrite : d.write path document modified = .ok (d.put here (.file document modified)) := by
    simp only [Disk.write, hlocate, hnode]
  have htouch : (d.touch path modified).toOption.getD d =
      d.put here (.file document modified) := by
    simp only [Disk.touch, hread, hwrite, Except.toOption, Option.getD_some]
  obtain ⟨hworkDir, hput⟩ := Disk.write_eq_ok hwrite
  have hlocate' : (d.put here (.file document modified)).locate path = .ok here := by
    refine Disk.locate_mono hworkDir (fun there hthere => ?_) hlocate
    have hne : there ≠ Disk.destination d.workDir path :=
      fun heq => Disk.node?_of_write hwrite (heq ▸ hthere)
    rw [hput, if_neg hne, hthere]
  rw [htouch]
  refine ⟨hworkDir, at?_eq_some.mpr ⟨document, modified, ?_, rfl⟩⟩
  refine Disk.look_eq_ok_iff.mpr ⟨here, hlocate', ?_⟩
  rw [hput, if_pos (Disk.locate_eq_ok hlocate)]

end Stamp

end Coupling.Cache

namespace Coupling.ResultCache

open Cache

/-! ### What the cache does with a stamp -/

variable {c : ResultCache} {d : Disk} {path : Path}

theorem eq_of_create {d₀ : Disk} {directory : Path} {capacity : Nat}
    (h : create d directory capacity = .ok (c, d₀)) :
    c = ⟨directory, max capacity 1, ∅, [], 0, 0⟩ := by
  unfold create at h
  cases hmake : d.makeDirectories directory with
  | error e => simp [hmake, Except.map] at h
  | ok d' =>
    simp only [hmake, Except.map, Except.ok.injEq, Prod.mk.injEq] at h
    exact h.1.symm

theorem get_of_at?_none (h : Stamp.at? d path = none) : c.get d path = c.miss d := by
  obtain ⟨e, hread⟩ := Stamp.read_of_at?_none h
  rw [get, hread]

theorem get_of_memory {s : Stamp} {findings : List Finding} (h : Stamp.at? d path = some s)
    (hmemory : c.memory[s.state.key]? = some findings) : c.get d path = c.hit d findings := by
  obtain ⟨document, state, hread, hstate, hkey⟩ := Stamp.read_of_at? h
  simp only [get, hread, getBytes, hstate, hkey, hmemory]

theorem get_of_found {s : Stamp} {findings : List Finding} (h : Stamp.at? d path = some s)
    (hmemory : c.memory[s.state.key]? = none)
    (hstored : c.stored d s.state.key path = .found findings) :
    c.get d path = (c.remember s.state.key findings).hit d findings := by
  obtain ⟨document, state, hread, hstate, hkey⟩ := Stamp.read_of_at? h
  simp only [get, hread, getBytes, hstate, hkey, hmemory, hstored]

theorem get_of_absent {s : Stamp} (h : Stamp.at? d path = some s)
    (hmemory : c.memory[s.state.key]? = none) (hstored : c.stored d s.state.key path = .absent) :
    c.get d path = c.miss d := by
  obtain ⟨document, state, hread, hstate, hkey⟩ := Stamp.read_of_at? h
  simp only [get, hread, getBytes, hstate, hkey, hmemory, hstored]

theorem stored_of_entry {key : String} {bytes : Text.Bytes} {tree : Option Syntax.Tree}
    {findings : List Finding} (hread : d.read (c.entryPath key) = .ok ⟨bytes, tree⟩)
    (hentry : Entry.ofBytes? bytes = some ⟨path.text, findings⟩) :
    c.stored d key path = .found findings := by
  unfold stored
  rw [hread]
  dsimp only
  rw [hentry]
  exact if_pos rfl

theorem set_of_at?_none (h : Stamp.at? d path = none) (findings : List Finding) :
    c.set d path findings = (c, d) := by
  obtain ⟨e, hread⟩ := Stamp.read_of_at?_none h
  rw [set, hread]

theorem set_of_at?_some {s : Stamp} (h : Stamp.at? d path = some s) (findings : List Finding) :
    c.set d path findings = (c.remember s.state.key findings,
      (d.write (c.entryPath s.state.key)
        ⟨(Entry.mk path.text findings).toBytes, none⟩ 0).toOption.getD d) := by
  obtain ⟨document, state, hread, hstate, hkey⟩ := Stamp.read_of_at? h
  simp only [set, hread, setBytes, hstate, hkey]

/-! ### Changes in the directory -/

theorem frame_setBytes (c : ResultCache) (d : Disk) (path : Path) (bytes : Text.Bytes)
    (findings : List Finding) :
    (c.setBytes d path bytes findings).1.directory = c.directory ∧
      d.Within c.directory (c.setBytes d path bytes findings).2 := by
  unfold setBytes
  split
  · exact ⟨rfl, .refl _ d⟩
  · rename_i s _
    refine ⟨directory_remember .., ?_⟩
    dsimp only
    cases hwrite : d.write (c.entryPath s.key) ⟨(Entry.mk path.text findings).toBytes, none⟩ 0 with
    | error e => exact .refl _ d
    | ok d' => exact .write s.isName_key hwrite

theorem frame_set (c : ResultCache) (d : Disk) (path : Path) (findings : List Finding) :
    (c.set d path findings).1.directory = c.directory ∧
      d.Within c.directory (c.set d path findings).2 := by
  unfold set
  split
  · exact c.frame_setBytes d path _ findings
  · exact ⟨rfl, .refl _ d⟩

theorem frame_getBytes (c : ResultCache) (d : Disk) (path : Path) (bytes : Text.Bytes) :
    (c.getBytes d path bytes).cache.directory = c.directory ∧
      d.Within c.directory (c.getBytes d path bytes).disk := by
  unfold getBytes
  split
  · exact ⟨rfl, .refl _ d⟩
  · rename_i s _
    split
    · exact ⟨rfl, .refl _ d⟩
    · split
      · exact ⟨directory_remember .., .refl _ d⟩
      · exact ⟨rfl, .refl _ d⟩
      · simp only [miss]
        refine ⟨trivial, ?_⟩
        cases hremove : d.removeFile (c.entryPath s.key) with
        | error e => exact .refl _ d
        | ok d' => exact .removeFile s.isName_key hremove

theorem frame_get (c : ResultCache) (d : Disk) (path : Path) :
    (c.get d path).cache.directory = c.directory ∧ d.Within c.directory (c.get d path).disk := by
  unfold get
  split
  · exact c.frame_getBytes d path _
  · exact ⟨rfl, .refl _ d⟩

end Coupling.ResultCache
