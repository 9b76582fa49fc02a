import Coupling.Proofs.Cache.Damage

/-!
# Results that stay in the directory

Memory loses results, and a new cache starts without any; what counts in the long run are the
entries in the directory. A cache whose memory repeats entries of its directory finds a result
exactly if the directory has it. Asking leaves all entries as they are, and keeping a result changes
the entries of one key.
-/

namespace Coupling

namespace Cache

/-- The entry for a state in a directory. -/
def entryIn? (directory : Path) (d : Disk) (s : FileState) : Option Entry :=
  match d.child? directory (entryName s) with
  | some (.file document _) => Entry.ofBytes? document.bytes
  | _ => none

variable {directory : Path} {d d' : Disk} {s t : FileState}

theorem entryIn?_of_key (h : s.key = t.key) : entryIn? directory d s = entryIn? directory d t := by
  rw [entryIn?, entryIn?, entryName, entryName, h]

theorem entryIn?_of_child?
    (h : d'.child? directory (entryName s) = d.child? directory (entryName s)) :
    entryIn? directory d' s = entryIn? directory d s := by
  rw [entryIn?, entryIn?, h]

theorem entryIn?_of_file {bytes : Text.Bytes} {tree : Option Syntax.Tree} {modified : Int}
    (h : d.child? directory (entryName s) = some (.file ⟨bytes, tree⟩ modified)) :
    entryIn? directory d s = Entry.ofBytes? bytes := by
  rw [entryIn?, h]

theorem entryName_ne (h : s.key ≠ t.key) : entryName s ≠ entryName t :=
  mt key_of_entryName h

end Cache

namespace ResultCache

open Cache

variable {directory : Path} {c : ResultCache} {d : Disk} {path : Path} {bytes : Text.Bytes}
  {s state : FileState}

theorem entryAt?_eq_entryIn? (hdirectory : c.directory = directory) (hopens : d.Opens directory)
    (s : FileState) : c.entryAt? d s.key = entryIn? directory d s := by
  have hlook := Disk.look_join hopens s.isName_key
  rw [entryAt?, entryPath, hdirectory, Disk.read, hlook, entryIn?, entryName]
  cases d.child? directory (.ofText (s.key ++ ".json")) with
  | none => rfl
  | some node => cases node <;> rfl

theorem entryAt?_of_stored_damaged {key : String} (h : c.stored d key path = .damaged) :
    c.entryAt? d key = none := by
  unfold stored at h
  unfold entryAt?
  cases hread : d.read (c.entryPath key) with
  | error e => rfl
  | ok document =>
    cases hentry : Entry.ofBytes? document.bytes with
    | none => simp [Except.toOption, hentry]
    | some e =>
      simp only [hread, hentry] at h
      split at h <;> simp at h

/-- A look-up for a file may at most remove the file. -/
theorem look_getBytes {node : DiskNode} (h : d.look path = .ok node) (c : ResultCache)
    (bytes : Text.Bytes) :
    (c.getBytes d path bytes).disk.look path = .ok node ∨
      (c.getBytes d path bytes).disk.look path = .error .notFound := by
  unfold getBytes
  split
  · exact .inl h
  · rename_i s _
    split
    · exact .inl h
    · split
      · exact .inl h
      · exact .inl h
      · simp only [miss]
        cases hremove : d.removeFile (c.entryPath s.key) with
        | error e => exact .inl h
        | ok d' => exact Disk.look_removeFile hremove h

/-- A cache with a directory in which files can be written, and with nothing in memory that the
directory does not have. -/
structure Backed (directory : Path) (met : FileState → Prop) (c : ResultCache) (d : Disk) :
    Prop extends d.Writable directory where
  directory_eq : c.directory = directory
  memory : ∀ {key : String} {findings : List Finding}, c.memory[key]? = some findings →
    ∃ s, met s ∧ s.key = key ∧ entryIn? directory d s = some ⟨s.path.text, findings⟩

namespace Backed

variable {met : FileState → Prop}

/-- Memory takes over an entry. -/
theorem remember (h : c.Backed directory met d) (hmet : met s) {findings : List Finding}
    (hentry : entryIn? directory d s = some ⟨s.path.text, findings⟩) :
    (c.remember s.key findings).Backed directory met d := by
  refine { h with directory_eq := ?_, memory := fun hmemory => ?_ }
  · rw [directory_remember, h.directory_eq]
  · rcases mem_remember hmemory with ⟨rfl, rfl⟩ | ⟨_, hmemory⟩
    · exact ⟨s, hmet, rfl, hentry⟩
    · exact h.memory hmemory

/-- Changes of a disk that keep the entries. -/
theorem of_entryIn? (h : c.Backed directory met d) {d' : Disk} (hd' : d'.Writable directory)
    (hentries : ∀ t, entryIn? directory d' t = entryIn? directory d t) :
    c.Backed directory met d' := by
  refine { h with toWritable := hd', memory := fun hmemory => ?_ }
  obtain ⟨t, ht, hkey, hentry⟩ := h.memory hmemory
  exact ⟨t, ht, hkey, (hentries t).trans hentry⟩

/-- Removing what is no entry leaves the entries as they are. -/
theorem removeFile (h : c.Backed directory met d) (hentry : entryIn? directory d s = none) :
    c.Backed directory met ((d.removeFile (c.entryPath s.key)).toOption.getD d) ∧
      ∀ t, entryIn? directory ((d.removeFile (c.entryPath s.key)).toOption.getD d) t =
        entryIn? directory d t := by
  obtain rfl := h.directory_eq
  obtain ⟨hwithin, hchild⟩ := Disk.removeFile_join h.opens s.isName_key (h.files _)
  have hentries : ∀ t, entryIn? c.directory
      ((d.removeFile (c.entryPath s.key)).toOption.getD d) t = entryIn? c.directory d t := by
    intro t
    by_cases hkey : t.key = s.key
    · have hnone := (hchild (entryName s)).trans (if_pos rfl)
      rw [entryIn?_of_key hkey, entryIn?_of_key hkey, hentry, entryIn?, entryPath, hnone]
    · exact entryIn?_of_child? ((hchild (entryName t)).trans (if_neg (entryName_ne hkey)))
  refine ⟨h.of_entryIn? ⟨hwithin.opens h.opens, fun name => ?_⟩ hentries, hentries⟩
  rw [entryPath, hchild]
  split
  · simp
  · exact h.files name

/-- A look-up finds the entry for the path, and leaves all entries as they are. -/
theorem getBytes (h : c.Backed directory met d)
    (happart : ∀ s t, met s → met t → s.key = t.key → s.path.text = t.path.text)
    (hstate : FileState.ofDisk? d path bytes = some state) (hkey : state.key = s.key)
    (hpath : s.path.text = path.text) (hmet : met s) :
    (∀ findings, (c.getBytes d path bytes).found = some findings ↔
      entryIn? directory d s = some ⟨path.text, findings⟩) ∧
    (c.getBytes d path bytes).cache.Backed directory met (c.getBytes d path bytes).disk ∧
    ∀ t, entryIn? directory (c.getBytes d path bytes).disk t = entryIn? directory d t := by
  have hentry := entryAt?_eq_entryIn? h.directory_eq h.opens s
  cases hmemory : c.memory[s.key]? with
  | some findings =>
    obtain ⟨t, ht, hkey', hknown⟩ := h.memory hmemory
    rw [entryIn?_of_key hkey', happart t s ht hmet hkey', hpath] at hknown
    simp only [ResultCache.getBytes, hstate, hkey, hmemory, hit, hknown,
      Option.some.injEq, Entry.mk.injEq, true_and]
    exact ⟨fun _ => trivial, { h with }, fun _ => trivial⟩
  | none =>
    have hstored : ∀ findings, c.stored d s.key path = .found findings ↔
        entryIn? directory d s = some ⟨path.text, findings⟩ := by
      intro findings
      rw [stored_eq_found_iff, hentry]
    cases hanswer : c.stored d s.key path with
    | absent =>
      simp only [hanswer, reduceCtorEq, false_iff] at hstored
      simp only [ResultCache.getBytes, hstate, hkey, hmemory, hanswer, miss, reduceCtorEq,
        false_iff]
      exact ⟨hstored, { h with }, fun _ => trivial⟩
    | damaged =>
      obtain ⟨hbacked, hentries⟩ :=
        h.removeFile (hentry.symm.trans (entryAt?_of_stored_damaged hanswer))
      simp only [hanswer, reduceCtorEq, false_iff] at hstored
      simp only [ResultCache.getBytes, hstate, hkey, hmemory, hanswer, miss, reduceCtorEq,
        false_iff]
      exact ⟨hstored, { hbacked with }, hentries⟩
    | found findings =>
      have hfound := (hstored findings).mp hanswer
      have hremembered := h.remember hmet (hpath.symm ▸ hfound)
      simp only [ResultCache.getBytes, hstate, hkey, hmemory, hanswer, hit, hfound,
        Option.some.injEq, Entry.mk.injEq, true_and]
      exact ⟨fun _ => trivial, { hremembered with }, fun _ => trivial⟩

/-- Keeping a result makes the entry for its state, and leaves those under other keys alone. -/
theorem setBytes (h : c.Backed directory met d)
    (hstate : FileState.ofDisk? d path bytes = some state) (hkey : state.key = s.key)
    (hpath : s.path.text = path.text) (hmet : met s) {findings : List Finding}
    (hreadable :
      Entry.ofBytes? (Entry.mk path.text findings).toBytes = some ⟨path.text, findings⟩) :
    (c.setBytes d path bytes findings).1.Backed directory met
      (c.setBytes d path bytes findings).2 ∧
    entryIn? directory (c.setBytes d path bytes findings).2 s = some ⟨path.text, findings⟩ ∧
    ∀ t, t.key ≠ s.key → entryIn? directory (c.setBytes d path bytes findings).2 t =
      entryIn? directory d t := by
  obtain rfl := h.directory_eq
  obtain ⟨d', hwrite, hchild⟩ := Disk.write_join h.opens s.isName_key (h.files _)
    ⟨(Entry.mk path.text findings).toBytes, none⟩ 0
  have hkept : c.setBytes d path bytes findings = (c.remember s.key findings, d') := by
    simp only [ResultCache.setBytes, hstate, hkey, entryPath, hwrite, Except.toOption,
      Option.getD_some]
  have hself : entryIn? c.directory d' s = some ⟨path.text, findings⟩ :=
    (entryIn?_of_file ((hchild (entryName s)).trans (if_pos rfl))).trans hreadable
  have hothers : ∀ t, t.key ≠ s.key → entryIn? c.directory d' t = entryIn? c.directory d t :=
    fun t hkey => entryIn?_of_child? ((hchild (entryName t)).trans (if_neg (entryName_ne hkey)))
  rw [hkept]
  refine ⟨⟨⟨(Disk.Within.write s.isName_key hwrite).opens h.opens, fun name => ?_⟩,
    directory_remember .., fun hmemory => ?_⟩, hself, hothers⟩
  · rw [hchild]
    split
    · simp
    · exact h.files name
  · rcases mem_remember hmemory with ⟨rfl, rfl⟩ | ⟨hne, hmemory⟩
    · exact ⟨s, hmet, rfl, hpath.symm ▸ hself⟩
    · obtain ⟨t, ht, hkey, hentry⟩ := h.memory hmemory
      exact ⟨t, ht, hkey, (hothers t (hkey.trans_ne hne)).trans hentry⟩

end Backed

end ResultCache

end Coupling
