import Coupling.Disk.Change
import Mathlib.Data.List.Basic

/-!
# Where paths lead and what operations touch

A path leads to one location, which depends on the working directory only and not on what is on the
disk. Writing and removing a file touch the location of its path, and making directories touches no
file.
-/

namespace Coupling.Disk

open Text (Bytes)

/-! ### Destinations -/

/-- Where the bytes of a path lead. -/
def lead (workDir : Location) : Bytes → Location
  | [] => workDir
  | b :: rest =>
    if b = Paths.slash then (Paths.segments rest).foldl step []
    else (Paths.segments (b :: rest)).foldl step workDir

/-- The location to which a path leads if it leads anywhere. -/
def destination (workDir : Location) (path : Path) : Location := lead workDir path.bytes

theorem lead_slash (workDir : Location) (rest : Bytes) :
    lead workDir (Paths.slash :: rest) = (Paths.segments rest).foldl step [] := by
  rw [lead, if_pos rfl]

theorem lead_of_ne (workDir : Location) {b : UInt8} (hb : b ≠ Paths.slash) (rest : Bytes) :
    lead workDir (b :: rest) = (Paths.segments (b :: rest)).foldl step workDir := by
  rw [lead, if_neg hb]

theorem follow_eq_ok {d : Disk} {here there : Location} {segments : List Bytes}
    (h : d.follow here segments = .ok there) : there = segments.foldl step here := by
  induction segments generalizing here with
  | nil =>
    rw [follow, Except.ok.injEq] at h
    exact h.symm
  | cons segment rest ih =>
    rw [follow] at h
    split at h
    · simp at h
    · simp at h
    · exact ih h

theorem locate_eq_ok {d : Disk} {path : Path} {here : Location} (h : d.locate path = .ok here) :
    here = destination d.workDir path := by
  unfold locate at h
  unfold destination
  split at h
  · simp at h
  · rename_i b rest hbytes
    rw [hbytes]
    by_cases hb : b = Paths.slash
    · rw [if_pos hb] at h
      rw [hb, lead_slash]
      exact follow_eq_ok h
    · rw [if_neg hb] at h
      rw [lead_of_ne d.workDir hb]
      exact follow_eq_ok h

theorem look_eq_ok {d : Disk} {path : Path} {node : DiskNode} (h : d.look path = .ok node) :
    d.node? (destination d.workDir path) = some node := by
  unfold look at h
  cases hlocate : d.locate path with
  | error e => simp [hlocate] at h
  | ok here =>
    rw [← locate_eq_ok hlocate]
    simp only [hlocate] at h
    cases hnode : d.node? here with
    | none => simp [hnode] at h
    | some node' => simp_all

theorem read_eq_ok {d : Disk} {path : Path} {document : Syntax.Document}
    (h : d.read path = .ok document) :
    ∃ modified, d.look path = .ok (.file document modified) ∧
      d.node? (destination d.workDir path) = some (.file document modified) := by
  unfold read at h
  cases hlook : d.look path with
  | error e => simp [hlook] at h
  | ok node =>
    cases node with
    | directory => simp [hlook] at h
    | file document' modified =>
      simp only [hlook, Except.ok.injEq] at h
      subst h
      exact ⟨modified, rfl, look_eq_ok hlook⟩

/-! ### Names below a directory -/

/-- Bytes that name something in a directory. -/
def IsName (name : Path) : Prop :=
  name.bytes ≠ [] ∧ name.bytes ≠ [Paths.dot] ∧ name.bytes ≠ [Paths.dot, Paths.dot] ∧
    Paths.slash ∉ name.bytes

instance (name : Path) : Decidable (IsName name) := inferInstanceAs (Decidable (_ ∧ _))

theorem isName_of_length {name : Path} (hlength : 3 ≤ name.bytes.length)
    (hslash : Paths.slash ∉ name.bytes) : IsName name := by
  refine ⟨?_, ?_, ?_, hslash⟩ <;> intro hbytes <;> simp [hbytes] at hlength

theorem step_of_isName {name : Path} (hname : IsName name) (here : Location) :
    step here name.bytes = here ++ [name] := by
  obtain ⟨hne, hdot, hup, _⟩ := hname
  simp [step, hne, hdot, hup]

theorem segments_of_notMem {bytes : Bytes} (h : Paths.slash ∉ bytes) :
    Paths.segments bytes = [bytes] := by
  induction bytes with
  | nil => rfl
  | cons b bytes ih =>
    rw [List.mem_cons, not_or] at h
    rw [Paths.segments, if_neg (Ne.symm h.1), ih h.2]

theorem segments_append_slash (bytes name : Bytes) :
    Paths.segments (bytes ++ Paths.slash :: name) =
      Paths.segments bytes ++ Paths.segments name := by
  induction bytes with
  | nil => simp [Paths.segments]
  | cons b bytes ih =>
    rw [List.cons_append, Paths.segments, Paths.segments, ih]
    by_cases hslash : b = Paths.slash
    · rw [if_pos hslash, if_pos hslash, List.cons_append]
    · rw [if_neg hslash, if_neg hslash]
      cases hsegments : Paths.segments bytes with
      | nil =>
        cases bytes with
        | nil => simp [Paths.segments] at hsegments
        | cons x xs =>
          rw [Paths.segments] at hsegments
          split at hsegments
          · simp at hsegments
          · split at hsegments <;> simp at hsegments
      | cons s rest => rfl

theorem foldl_step_append_name {name : Path} (hname : IsName name) (bytes : Bytes)
    (here : Location) :
    (Paths.segments (bytes ++ Paths.slash :: name.bytes)).foldl step here =
      (Paths.segments bytes).foldl step here ++ [name] := by
  rw [segments_append_slash, segments_of_notMem hname.2.2.2, List.foldl_append]
  exact step_of_isName hname _

theorem lead_append_name {name : Path} (hname : IsName name) (workDir : Location)
    {bytes : Bytes} (hbytes : bytes ≠ []) :
    lead workDir (bytes ++ Paths.slash :: name.bytes) = lead workDir bytes ++ [name] := by
  rcases bytes with _ | ⟨b, rest⟩
  · exact absurd rfl hbytes
  by_cases hb : b = Paths.slash
  · subst hb
    rw [List.cons_append, lead_slash, lead_slash]
    exact foldl_step_append_name hname rest []
  · rw [List.cons_append, lead_of_ne workDir hb, lead_of_ne workDir hb, ← List.cons_append]
    exact foldl_step_append_name hname (b :: rest) workDir

/-- A slash at the end of a path leads nowhere else. -/
theorem lead_append_slash (workDir : Location) {bytes : Bytes} (hbytes : bytes ≠ []) :
    lead workDir (bytes ++ [Paths.slash]) = lead workDir bytes := by
  have hsegments : ∀ (rest : Bytes) (here : Location),
      (Paths.segments (rest ++ [Paths.slash])).foldl step here =
        (Paths.segments rest).foldl step here := by
    intro rest here
    rw [segments_append_slash, List.foldl_append]
    simp [Paths.segments, step]
  rcases bytes with _ | ⟨b, rest⟩
  · exact absurd rfl hbytes
  by_cases hb : b = Paths.slash
  · subst hb
    rw [List.cons_append, lead_slash, lead_slash]
    exact hsegments rest []
  · rw [List.cons_append, lead_of_ne workDir hb, lead_of_ne workDir hb, ← List.cons_append]
    exact hsegments (b :: rest) workDir

theorem lead_of_isName {name : Path} (hname : IsName name) (workDir : Location) :
    lead workDir name.bytes = workDir ++ [name] := by
  cases hbytes : name.bytes with
  | nil => exact absurd hbytes hname.1
  | cons b rest =>
    have hb : b ≠ Paths.slash := fun hb => hname.2.2.2 (hbytes ▸ hb ▸ List.mem_cons_self)
    rw [lead_of_ne workDir hb, ← hbytes, segments_of_notMem hname.2.2.2]
    exact step_of_isName hname workDir

/-- Joining a name to a path leads one level down. -/
theorem destination_join {name : Path} (hname : IsName name) (workDir : Location)
    (base : Path) :
    destination workDir (Paths.join base name) = destination workDir base ++ [name] := by
  have hhead : name.bytes.head? ≠ some Paths.slash := fun hhead =>
    hname.2.2.2 (List.mem_of_head? hhead)
  unfold Paths.join
  rw [if_neg hhead]
  by_cases hempty : base.bytes = []
  · rw [if_pos (.inl hempty)]
    simp only [destination, hempty, List.nil_append]
    exact lead_of_isName hname workDir
  by_cases hlast : base.bytes.getLast? = some Paths.slash
  · rw [if_pos (.inr hlast)]
    obtain ⟨bytes, hbytes⟩ := List.getLast?_eq_some_iff.mp hlast
    simp only [destination, hbytes, List.append_assoc, List.singleton_append]
    by_cases hnil : bytes = []
    · rw [hnil, List.nil_append, List.nil_append, lead_slash, lead_slash,
        segments_of_notMem hname.2.2.2]
      exact step_of_isName hname []
    · rw [lead_append_name hname workDir hnil, lead_append_slash workDir hnil]
  · rw [if_neg (not_or.mpr ⟨hempty, hlast⟩)]
    exact lead_append_name hname workDir hempty

/-! ### What operations touch -/

theorem node?_put (d : Disk) {here : Location} (hhere : here ≠ []) (node : DiskNode)
    (there : Location) :
    (d.put here node).node? there = if there = here then some node else d.node? there := by
  unfold node? put
  by_cases hnil : there = []
  · have hne : there ≠ here := fun heq => hhere (heq.symm.trans hnil)
    rw [if_pos hnil, if_pos hnil, if_neg hne]
  · rw [if_neg hnil, if_neg hnil, Std.TreeMap.getElem?_insert]
    by_cases heq : there = here
    · rw [if_pos heq, if_pos (by simp [heq])]
    · rw [if_neg heq, if_neg (by simpa using Ne.symm heq)]

/-- Writing a file touches the location of its path. -/
theorem write_eq_ok {d d' : Disk} {path : Path} {document : Syntax.Document} {modified : Int}
    (h : d.write path document modified = .ok d') :
    d'.workDir = d.workDir ∧ ∀ there, d'.node? there =
      if there = destination d.workDir path then some (.file document modified)
      else d.node? there := by
  unfold write at h
  cases hlocate : d.locate path with
  | error e => simp [hlocate] at h
  | ok here =>
    rw [← locate_eq_ok hlocate]
    have hhere : here ≠ [] := by
      intro hnil
      simp [hlocate, hnil, node?] at h
    have hput : d' = d.put here (.file document modified) := by
      simp only [hlocate] at h
      split at h
      · simp at h
      · exact (Except.ok.inj h).symm
    subst hput
    exact ⟨rfl, node?_put d hhere _⟩

/-- Removing a file touches the location of its path. -/
theorem removeFile_eq_ok {d d' : Disk} {path : Path} (h : d.removeFile path = .ok d') :
    d'.workDir = d.workDir ∧ ∀ there, d'.node? there =
      if there = destination d.workDir path then none else d.node? there := by
  unfold removeFile at h
  cases hlocate : d.locate path with
  | error e => simp [hlocate] at h
  | ok here =>
    rw [← locate_eq_ok hlocate]
    have hhere : here ≠ [] := by
      intro hnil
      simp [hlocate, hnil, node?] at h
    have herase : d' = { d with nodes := d.nodes.erase here } := by
      simp only [hlocate] at h
      split at h
      · simp at h
      · simp at h
      · exact (Except.ok.inj h).symm
    subst herase
    refine ⟨rfl, fun there => ?_⟩
    unfold node?
    by_cases hnil : there = []
    · have hne : there ≠ here := fun heq => hhere (heq.symm.trans hnil)
      rw [if_pos hnil, if_neg hne, if_pos hnil]
    · rw [if_neg hnil, if_neg hnil, Std.TreeMap.getElem?_erase]
      by_cases heq : there = here
      · rw [if_pos heq, if_pos (by simp [heq])]
      · rw [if_neg heq, if_neg (by simpa using Ne.symm heq)]

theorem removeFile_of_read_error {d : Disk} {path : Path} {e : DiskError}
    (h : d.read path = .error e) : (d.removeFile path).toOption = none := by
  unfold read look at h
  unfold removeFile
  cases hlocate : d.locate path with
  | error e' => rfl
  | ok here =>
    simp only [hlocate] at h ⊢
    cases hnode : d.node? here with
    | none => rfl
    | some node =>
      cases node with
      | directory => rfl
      | file document modified => simp [hnode] at h

/-- Two disks with the same files. -/
structure SameFiles (d d' : Disk) : Prop where
  workDir_eq : d'.workDir = d.workDir
  file_iff : ∀ {there document modified}, d'.node? there = some (.file document modified) ↔
    d.node? there = some (.file document modified)

theorem SameFiles.refl (d : Disk) : d.SameFiles d := ⟨rfl, Iff.rfl⟩

theorem makeFrom_sameFiles {d d' : Disk} {here : Location} {segments : List Bytes}
    (h : d.makeFrom here segments = .ok d') : d.SameFiles d' := by
  induction segments generalizing d here with
  | nil =>
    rw [makeFrom, Except.ok.injEq] at h
    exact h ▸ .refl d
  | cons segment rest ih =>
    simp only [makeFrom] at h
    split at h
    · exact ih h
    · simp at h
    · rename_i hnone
      have hnext : step here segment ≠ [] := by
        intro hnil
        simp [hnil, node?] at hnone
      have hlater := ih h
      refine ⟨hlater.workDir_eq, fun {there document modified} => hlater.file_iff.trans ?_⟩
      rw [node?_put d hnext]
      by_cases hthere : there = step here segment
      · rw [if_pos hthere, hthere, hnone]
        simp
      · rw [if_neg hthere]

/-- Making directories touches no file. -/
theorem makeDirectories_sameFiles {d d' : Disk} {path : Path}
    (h : d.makeDirectories path = .ok d') : d.SameFiles d' := by
  unfold makeDirectories at h
  split at h
  · exact Except.ok.inj h ▸ .refl d
  · split at h
    · exact makeFrom_sameFiles h
    · exact makeFrom_sameFiles h

end Coupling.Disk
