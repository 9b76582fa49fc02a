import Coupling.Proofs.Cache.AsMap

/-!
# Damaged results

Anything may be in the directory of a cache. A look-up that memory cannot answer trusts a file there
only if it reads as an entry for the path that is asked about. All else is a miss, and of all files
only one that cannot be read as an entry goes away.
-/

namespace Coupling

/-- A file that can be read can be removed. -/
theorem Disk.removeFile_of_read {d : Disk} {path : Path} {document : Syntax.Document}
    (h : d.read path = .ok document) : ∃ d', d.removeFile path = .ok d' := by
  obtain ⟨modified, hlook, _⟩ := read_eq_ok h
  obtain ⟨here, hlocate, hnode⟩ := look_eq_ok_iff.mp hlook
  exact ⟨{ d with nodes := d.nodes.erase here }, by simp only [removeFile, hlocate, hnode]⟩

namespace ResultCache

open Cache

/-- What the file of a key reads as. -/
def entryAt? (c : ResultCache) (d : Disk) (key : String)
    (read? : Text.Bytes → Option Entry := Entry.ofBytes?) : Option Entry :=
  (d.read (c.entryPath key)).toOption.bind fun document => read? document.bytes

/-- The file of a key is there and does not read as an entry. -/
def IsDamaged (c : ResultCache) (d : Disk) (key : String)
    (read? : Text.Bytes → Option Entry := Entry.ofBytes?) : Prop :=
  ∃ document, d.read (c.entryPath key) = .ok document ∧ read? document.bytes = none

variable {c : ResultCache} {d : Disk} {path : Path} {bytes : Text.Bytes}
  {read? : Text.Bytes → Option Entry}

/-! ### Files of entries -/

theorem stored_eq_found_iff {key : String} {findings : List Finding} :
    c.stored d key path read? = .found findings ↔
      c.entryAt? d key read? = some ⟨path.text, findings⟩ := by
  unfold stored entryAt?
  cases hread : d.read (c.entryPath key) with
  | error e => cases e <;> simp [Except.toOption]
  | ok document =>
    simp only [Except.toOption, Option.bind_some]
    cases read? document.bytes with
    | none => simp
    | some e =>
      obtain ⟨path', findings'⟩ := e
      by_cases hpath : path' = path.text <;> simp [hpath]

theorem IsDamaged.stored_eq {key : String} (h : c.IsDamaged d key read?) :
    c.stored d key path read? = .damaged := by
  obtain ⟨document, hread, hentry⟩ := h
  simp only [stored, hread, hentry]

/-- What counts as damaged is damaged, or nothing that can be removed. -/
theorem removeFile_of_stored_damaged {key : String}
    (hstored : c.stored d key path read? = .damaged) (hdamaged : ¬ c.IsDamaged d key read?) :
    (d.removeFile (c.entryPath key)).toOption = none := by
  unfold stored at hstored
  cases hread : d.read (c.entryPath key) with
  | error e => exact Disk.removeFile_of_read_error hread
  | ok document =>
    cases hentry : read? document.bytes with
    | none => exact absurd ⟨document, hread, hentry⟩ hdamaged
    | some e =>
      simp only [hread, hentry] at hstored
      split at hstored <;> simp at hstored

/-! ### Look-ups -/

@[simp] theorem hits_remember (c : ResultCache) (key : String) (findings : List Finding) :
    (c.remember key findings).hits = c.hits := by
  simp only [remember]
  split <;> rfl

@[simp] theorem misses_remember (c : ResultCache) (key : String) (findings : List Finding) :
    (c.remember key findings).misses = c.misses := by
  simp only [remember]
  split <;> rfl

/-- A look-up is a miss, a hit in memory, or a hit on disk that memory takes over. -/
theorem getBytes_cases (c : ResultCache) (d : Disk) (path : Path) (bytes : Text.Bytes)
    (read? : Text.Bytes → Option Entry := Entry.ofBytes?) :
    ((c.getBytes d path bytes read?).found = none ∧
      (c.getBytes d path bytes read?).cache = { c with misses := c.misses + 1 }) ∨
    ∃ s findings, FileState.ofDisk? d path bytes = some s ∧
      (c.getBytes d path bytes read?).found = some findings ∧
      (c.getBytes d path bytes read?).disk = d ∧
      (c.memory[s.key]? = some findings ∧
          (c.getBytes d path bytes read?).cache = { c with hits := c.hits + 1 } ∨
        c.memory[s.key]? = none ∧ c.stored d s.key path read? = .found findings ∧
          (c.getBytes d path bytes read?).cache =
            { c.remember s.key findings with hits := c.hits + 1 }) := by
  cases hs : FileState.ofDisk? d path bytes with
  | none => exact .inl (by simp [getBytes, hs, miss])
  | some s =>
    cases hmemory : c.memory[s.key]? with
    | some findings => exact .inr ⟨s, findings, by simp [getBytes, hs, hmemory, hit]⟩
    | none =>
      cases hstored : c.stored d s.key path read? with
      | absent => exact .inl (by simp [getBytes, hs, hmemory, hstored, miss])
      | damaged => exact .inl (by simp [getBytes, hs, hmemory, hstored, miss])
      | found findings =>
        exact .inr ⟨s, findings, by simp [getBytes, hs, hmemory, hstored, hit]⟩

section Disk

variable {s : FileState} (hs : FileState.ofDisk? d path bytes = some s)
  (hmemory : c.memory[s.key]? = none)
include hs hmemory

theorem found_getBytes_of_entryAt? {findings : List Finding}
    (hentry : c.entryAt? d s.key read? = some ⟨path.text, findings⟩) :
    (c.getBytes d path bytes read?).found = some findings := by
  simp only [getBytes, hs, hmemory, stored_eq_found_iff.mpr hentry, hit]

theorem disk_getBytes_of_isDamaged (hdamaged : c.IsDamaged d s.key read?) :
    (c.getBytes d path bytes read?).disk.workDir = d.workDir ∧
      ∀ here, (c.getBytes d path bytes read?).disk.node? here =
        if here = Disk.destination d.workDir (c.entryPath s.key) then none else d.node? here := by
  have ⟨document, hread, _⟩ := hdamaged
  obtain ⟨d', hremove⟩ := Disk.removeFile_of_read hread
  have hdisk : (c.getBytes d path bytes read?).disk = d' := by
    simp only [getBytes, hs, hmemory, hdamaged.stored_eq, miss, hremove, Except.toOption,
      Option.getD_some]
  rw [hdisk]
  exact Disk.removeFile_eq_ok hremove

theorem disk_getBytes_of_not_isDamaged (hdamaged : ¬ c.IsDamaged d s.key read?) :
    (c.getBytes d path bytes read?).disk = d := by
  cases hstored : c.stored d s.key path read? with
  | absent => simp only [getBytes, hs, hmemory, hstored, miss]
  | found findings => simp only [getBytes, hs, hmemory, hstored, hit]
  | damaged =>
    have hstays := removeFile_of_stored_damaged hstored hdamaged
    simp only [getBytes, hs, hmemory, hstored, miss, hstays, Option.getD_none]

end Disk

/-- However entries are read: the answer of memory aside, a look-up finds the findings of the entry
for the path and counts a hit, or it counts a miss and leaves memory and disk as they are, but for a
file that does not read as an entry. -/
theorem only_sound_entries_served (read? : Text.Bytes → Option Entry)
    (hmemory : ∀ s, FileState.ofDisk? d path bytes = some s → c.memory[s.key]? = none) :
    (∀ findings, (c.getBytes d path bytes read?).found = some findings ↔
      ∃ s, FileState.ofDisk? d path bytes = some s ∧
        c.entryAt? d s.key read? = some ⟨path.text, findings⟩) ∧
    ((c.getBytes d path bytes read?).found ≠ none →
      (c.getBytes d path bytes read?).cache.hits = c.hits + 1 ∧
      (c.getBytes d path bytes read?).cache.misses = c.misses ∧
      (c.getBytes d path bytes read?).disk = d) ∧
    ((c.getBytes d path bytes read?).found = none →
      (c.getBytes d path bytes read?).cache = { c with misses := c.misses + 1 } ∧
      (∀ s, FileState.ofDisk? d path bytes = some s → c.IsDamaged d s.key read? →
        (c.getBytes d path bytes read?).disk.workDir = d.workDir ∧
        ∀ here, (c.getBytes d path bytes read?).disk.node? here =
          if here = Disk.destination d.workDir (c.entryPath s.key) then none else d.node? here) ∧
      ((∀ s, FileState.ofDisk? d path bytes = some s → ¬ c.IsDamaged d s.key read?) →
        (c.getBytes d path bytes read?).disk = d)) := by
  have hcases := c.getBytes_cases d path bytes read?
  refine ⟨fun findings => ⟨fun hfound => ?_, ?_⟩, fun hfound => ?_, fun hfound => ⟨?_, ?_, ?_⟩⟩
  · obtain ⟨hnone, _⟩ | ⟨s, findings', hs, hsome, _, hwhere⟩ := hcases
    · simp [hnone] at hfound
    · obtain rfl : findings' = findings := Option.some.inj (hsome.symm.trans hfound)
      obtain ⟨hknown, _⟩ | ⟨_, hstored, _⟩ := hwhere
      · simp [hmemory s hs] at hknown
      · exact ⟨s, hs, stored_eq_found_iff.mp hstored⟩
  · rintro ⟨s, hs, hentry⟩
    exact found_getBytes_of_entryAt? hs (hmemory s hs) hentry
  · obtain ⟨hnone, _⟩ | ⟨s, findings, _, _, hdisk, ⟨_, hcache⟩ | ⟨_, _, hcache⟩⟩ := hcases
    · exact absurd hnone hfound
    · rw [hcache]
      exact ⟨rfl, rfl, hdisk⟩
    · rw [hcache]
      exact ⟨rfl, c.misses_remember s.key findings, hdisk⟩
  · obtain ⟨_, hcache⟩ | ⟨s, findings, _, hsome, _⟩ := hcases
    · exact hcache
    · simp [hsome] at hfound
  · intro s hs hdamaged
    exact disk_getBytes_of_isDamaged hs (hmemory s hs) hdamaged
  · intro hsound
    cases hs : FileState.ofDisk? d path bytes with
    | none => simp only [getBytes, hs, miss]
    | some s => exact disk_getBytes_of_not_isDamaged hs (hmemory s hs) (hsound s hs)

/-! ### A spoiled file -/

namespace Spoiled

def state : FileState := ⟨"old.py", [120, 10], 0, 2⟩

/-- A disk with a file and something in place of the entry for it. -/
def disk (bytes : Text.Bytes) : Disk :=
  (Touched.disk 0).put ["work", "cache", state.key ++ ".json"] (.file ⟨bytes, none⟩ 0)

/-- Bytes of no entry. -/
def garbage : Text.Bytes := [123, 255]

theorem node?_disk (bytes : Text.Bytes) (name : Path) :
    (disk bytes).node? ["work", name] = (Touched.disk 0).node? ["work", name] :=
  Disk.node?_put_of_ne _ (by simp) _

theorem locate_eq (bytes : Text.Bytes) {name : Path} (hname : Disk.IsName name) :
    (disk bytes).locate name = .ok ["work", name] := by
  have hwork : (disk bytes).node? ["work"] = (Touched.disk 0).node? ["work"] :=
    Disk.node?_put_of_ne _ (by simp) _
  exact Disk.locate_of_isName hname hwork

theorem opens (bytes : Text.Bytes) : (disk bytes).Opens "cache" :=
  ⟨_, locate_eq bytes (Disk.isName_ofText (by decide) (by decide)), node?_disk bytes "cache"⟩

theorem read_eq (bytes : Text.Bytes) :
    (disk bytes).read (Touched.cache.entryPath state.key) = .ok ⟨bytes, none⟩ :=
  Disk.read_join_of_file (opens bytes) state.isName_key
    ((Disk.node?_put _ (by simp) _ _).trans (if_pos rfl))

theorem ofDisk?_eq (bytes : Text.Bytes) :
    FileState.ofDisk? (disk bytes) "old.py" [120, 10] = some state := by
  have hname : Disk.IsName "old.py" := Disk.isName_ofText (by decide) (by decide)
  have hlook : (disk bytes).look "old.py" = .ok (Touched.content 0) :=
    Disk.look_eq_ok_iff.mpr ⟨_, locate_eq bytes hname, node?_disk bytes "old.py"⟩
  rw [FileState.ofDisk?, hlook]
  rfl

theorem entryAt?_eq (bytes : Text.Bytes) :
    Touched.cache.entryAt? (disk bytes) state.key = Entry.ofBytes? bytes := by
  rw [entryAt?, read_eq]
  rfl

theorem isDamaged_iff (bytes : Text.Bytes) :
    Touched.cache.IsDamaged (disk bytes) state.key ↔ Entry.ofBytes? bytes = none := by
  simp only [IsDamaged, read_eq, Except.ok.injEq, exists_eq_left']

/-- Looks for the file with something in place of its entry. -/
def look (bytes : Text.Bytes) : Answer :=
  Touched.cache.getBytes (disk bytes) "old.py" [120, 10]

/-- An entry is found, one for another path stays without being found, and garbage goes away. -/
theorem only_sound_entries_served_spoiled :
    ((look (Entry.mk "old.py" []).toBytes).found = some [] ∧
      (look (Entry.mk "old.py" []).toBytes).cache.hits = 1) ∧
    ((look (Entry.mk "a.py" []).toBytes).found = none ∧
      (look (Entry.mk "a.py" []).toBytes).disk = disk (Entry.mk "a.py" []).toBytes) ∧
    (look garbage).found = none ∧ (look garbage).cache.misses = 1 ∧
      (look garbage).disk.node?
        (Disk.destination ["work"] (Touched.cache.entryPath state.key)) = none := by
  have hserved (bytes : Text.Bytes) := only_sound_entries_served Entry.ofBytes?
    (fun s (_ : FileState.ofDisk? (disk bytes) "old.py" [120, 10] = some s) =>
      (by simp [Touched.cache] : Touched.cache.memory[s.key]? = none))
  have hfound (bytes : Text.Bytes) (findings : List Finding) : (look bytes).found = some findings ↔
      Entry.ofBytes? bytes = some ⟨"old.py", findings⟩ := by
    simp [look, (hserved bytes).1, ofDisk?_eq, entryAt?_eq]
  have hreads : ∀ text ∈ ["old.py", "a.py"],
      Entry.ofBytes? (Entry.mk text []).toBytes = some ⟨text, []⟩ := by decide +kernel
  have hbroken : Entry.ofBytes? garbage = none := by decide +kernel
  refine ⟨?_, ?_, ?_⟩
  · have hsome := (hfound _ _).mpr (hreads "old.py" (by simp))
    refine ⟨hsome, ?_⟩
    rw [look, ((hserved _).2.1 (ne_of_eq_of_ne hsome (by simp))).1]
    rfl
  · have hnone : (look (Entry.mk "a.py" []).toBytes).found = none := by
      simp [Option.eq_none_iff_forall_ne_some, hfound, hreads]
    refine ⟨hnone, ((hserved _).2.2 hnone).2.2 fun s hs => ?_⟩
    obtain rfl := Option.some.inj ((ofDisk?_eq _).symm.trans hs)
    simp [isDamaged_iff, hreads]
  · have hnone : (look garbage).found = none := by
      simp [Option.eq_none_iff_forall_ne_some, hfound, hbroken]
    obtain ⟨hcache, hdisk, _⟩ := (hserved garbage).2.2 hnone
    refine ⟨hnone, by rw [look, hcache]; rfl, ?_⟩
    have hgone := (hdisk state (ofDisk?_eq garbage) ((isDamaged_iff garbage).mpr hbroken)).2
    exact (hgone _).trans (if_pos rfl)

end Spoiled

end ResultCache

end Coupling
