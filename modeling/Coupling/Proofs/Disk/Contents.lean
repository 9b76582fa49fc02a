import Coupling.Proofs.Disk.Locations

/-!
# Directories as maps

A path that leads to a directory can be followed one name further. So a directory is a map from
names to what is on the disk, and writing or removing a file in it changes the map at one name.
-/

namespace Coupling.Disk

open Text (Bytes)

/-- A path that leads to a directory. -/
def Opens (d : Disk) (directory : Path) : Prop :=
  ∃ here, d.locate directory = .ok here ∧ d.node? here = some .directory

/-- What a directory holds under a name. -/
def child? (d : Disk) (directory name : Path) : Option DiskNode :=
  d.node? (destination d.workDir directory ++ [name])

theorem Opens.locate_eq {d : Disk} {directory : Path} (h : d.Opens directory) :
    d.locate directory = .ok (destination d.workDir directory) := by
  obtain ⟨here, hlocate, _⟩ := h
  rw [hlocate, locate_eq_ok hlocate]

theorem Opens.node?_eq {d : Disk} {directory : Path} (h : d.Opens directory) :
    d.node? (destination d.workDir directory) = some .directory := by
  obtain ⟨here, hlocate, hnode⟩ := h
  rwa [← locate_eq_ok hlocate]

theorem look_eq_ok_iff {d : Disk} {path : Path} {node : DiskNode} :
    d.look path = .ok node ↔ ∃ here, d.locate path = .ok here ∧ d.node? here = some node := by
  unfold look
  cases d.locate path with
  | error e => simp
  | ok here => cases hnode : d.node? here <;> simp [hnode]

/-! ### One name further -/

theorem follow_append (d : Disk) (here : Location) (front rest : List Bytes) :
    d.follow here (front ++ rest) =
      match d.follow here front with
      | .error e => .error e
      | .ok there => d.follow there rest := by
  induction front generalizing here with
  | nil => rfl
  | cons segment front ih =>
    rw [List.cons_append, follow, follow]
    cases d.node? here with
    | none => rfl
    | some node =>
      cases node with
      | file document modified => rfl
      | directory => exact ih _

theorem follow_singleton {d : Disk} {here there : Location} {segment : Bytes} :
    d.follow here [segment] = .ok there ↔
      d.node? here = some .directory ∧ there = step here segment := by
  rw [follow]
  cases d.node? here with
  | none => simp
  | some node =>
    cases node with
    | file document modified => simp
    | directory => simp [follow, eq_comm]

theorem follow_append_name {d : Disk} {here there : Location} {front : List Bytes}
    {name : Path} (hname : IsName name) (hfront : d.follow here front = .ok there)
    (hnode : d.node? there = some .directory) :
    d.follow here (front ++ [name.bytes]) = .ok (there ++ [name]) := by
  rw [follow_append, hfront]
  exact follow_singleton.mpr ⟨hnode, (step_of_isName hname there).symm⟩

theorem follow_of_append_slash {d : Disk} {here there : Location} {front : List Bytes}
    (h : d.follow here (front ++ [[]]) = .ok there) : d.follow here front = .ok there := by
  rw [follow_append] at h
  cases hfront : d.follow here front with
  | error e => simp [hfront] at h
  | ok there' =>
    simp only [hfront] at h
    rw [(follow_singleton.mp h).2]
    rfl

/-- Where the bytes of a path start and what they pass. -/
def route (d : Disk) : Bytes → Location × List Bytes
  | [] => (d.workDir, [[]])
  | b :: rest =>
    if b = Paths.slash then ([], Paths.segments rest) else (d.workDir, Paths.segments (b :: rest))

theorem route_slash (d : Disk) (rest : Bytes) :
    d.route (Paths.slash :: rest) = ([], Paths.segments rest) := by
  rw [route, if_pos rfl]

theorem route_of_ne (d : Disk) {b : UInt8} (hb : b ≠ Paths.slash) (rest : Bytes) :
    d.route (b :: rest) = (d.workDir, Paths.segments (b :: rest)) := by
  rw [route, if_neg hb]

theorem locate_of_ne_nil (d : Disk) {path : Path} (h : path.bytes ≠ []) :
    d.locate path = d.follow (d.route path.bytes).1 (d.route path.bytes).2 := by
  unfold locate
  split
  · contradiction
  · rename_i b rest hbytes
    rw [hbytes]
    by_cases hb : b = Paths.slash
    · rw [if_pos hb, hb, route_slash]
    · rw [if_neg hb, route_of_ne d hb]

theorem route_append_slash (d : Disk) {bytes : Bytes} (hbytes : bytes ≠ []) (rest : Bytes) :
    d.route (bytes ++ Paths.slash :: rest) =
      ((d.route bytes).1, (d.route bytes).2 ++ Paths.segments rest) := by
  rcases bytes with _ | ⟨b, front⟩
  · exact absurd rfl hbytes
  by_cases hb : b = Paths.slash
  · rw [hb, List.cons_append, route_slash, route_slash, segments_append_slash]
  · rw [List.cons_append, route_of_ne d hb, route_of_ne d hb, ← List.cons_append,
      segments_append_slash]

theorem locate_of_isName {d : Disk} {name : Path} (hname : IsName name)
    (hnode : d.node? d.workDir = some .directory) :
    d.locate name = .ok (d.workDir ++ [name]) := by
  have hroute : d.route name.bytes = (d.workDir, [name.bytes]) := by
    cases hbytes : name.bytes with
    | nil => exact absurd hbytes hname.1
    | cons b rest =>
      have hb : b ≠ Paths.slash := fun hb => hname.2.2.2 (hbytes ▸ hb ▸ List.mem_cons_self)
      rw [route_of_ne d hb, ← hbytes, segments_of_notMem hname.2.2.2]
  rw [locate_of_ne_nil d hname.1, hroute]
  exact follow_singleton.mpr ⟨hnode, (step_of_isName hname d.workDir).symm⟩

theorem locate_join {d : Disk} {directory name : Path} (h : d.Opens directory)
    (hname : IsName name) :
    d.locate (Paths.join directory name) = .ok (destination d.workDir directory ++ [name]) := by
  have hnode := h.node?_eq
  have hlocate := h.locate_eq
  have hne : directory.bytes ≠ [] := by
    intro hnil
    simp [locate, hnil] at hlocate
  have hslash : Paths.slash ∉ name.bytes := hname.2.2.2
  have hsegments : Paths.segments name.bytes = [name.bytes] := segments_of_notMem hslash
  rw [locate_of_ne_nil d hne] at hlocate
  unfold Paths.join
  rw [if_neg fun hhead => hslash (List.mem_of_head? hhead)]
  by_cases hlast : directory.bytes.getLast? = some Paths.slash
  · rw [if_pos (.inr hlast), locate_of_ne_nil d (by simp [hne])]
    obtain ⟨bytes, hbytes⟩ := List.getLast?_eq_some_iff.mp hlast
    rw [hbytes] at hlocate
    simp only [hbytes, List.append_assoc, List.singleton_append]
    by_cases hnil : bytes = []
    · -- The path is the root.
      have hroot : destination d.workDir directory = [] := by
        rw [destination, hbytes, hnil, List.nil_append, lead_slash]
        rfl
      rw [hroot] at hnode ⊢
      rw [hnil, List.nil_append, route_slash, hsegments]
      have hstart : d.follow [] [] = .ok [] := rfl
      exact follow_append_name hname hstart hnode
    · rw [route_append_slash d hnil] at hlocate ⊢
      rw [hsegments]
      exact follow_append_name hname (follow_of_append_slash hlocate) hnode
  · rw [if_neg (not_or.mpr ⟨hne, hlast⟩), locate_of_ne_nil d (by simp),
      route_append_slash d hne, hsegments]
    exact follow_append_name hname hlocate hnode

theorem look_join {d : Disk} {directory name : Path} (h : d.Opens directory)
    (hname : IsName name) :
    d.look (Paths.join directory name) =
      match d.child? directory name with
      | some node => .ok node
      | none => .error .notFound := by
  rw [look, locate_join h hname]
  rfl

theorem read_join_of_none {d : Disk} {directory name : Path} (h : d.Opens directory)
    (hname : IsName name) (hnone : d.child? directory name = none) :
    d.read (Paths.join directory name) = .error .notFound := by
  rw [read, look_join h hname, hnone]

theorem read_join_of_file {d : Disk} {directory name : Path} (h : d.Opens directory)
    (hname : IsName name) {document : Syntax.Document} {modified : Int}
    (hfile : d.child? directory name = some (.file document modified)) :
    d.read (Paths.join directory name) = .ok document := by
  rw [read, look_join h hname, hfile]

/-! ### Directories that are there -/

theorem makeFrom_of_follow {d : Disk} {here there : Location} {segments : List Bytes}
    (h : d.follow here segments = .ok there) (hnode : d.node? there = some .directory) :
    d.makeFrom here segments = .ok d := by
  induction segments generalizing here with
  | nil => rfl
  | cons segment rest ih =>
    rw [follow] at h
    split at h
    · simp at h
    · simp at h
    · have hnext : d.node? (step here segment) = some .directory := by
        cases rest with
        | nil =>
          rw [follow, Except.ok.injEq] at h
          rwa [h]
        | cons segment' rest =>
          rw [follow] at h
          split at h
          · simp at h
          · simp at h
          · assumption
      simp only [makeFrom, hnext]
      exact ih h

theorem makeDirectories_of_ne_nil (d : Disk) {path : Path} (h : path.bytes ≠ []) :
    d.makeDirectories path = d.makeFrom (d.route path.bytes).1 (d.route path.bytes).2 := by
  unfold makeDirectories
  split
  · contradiction
  · rename_i b rest hbytes
    rw [hbytes]
    by_cases hb : b = Paths.slash
    · rw [if_pos hb, hb, route_slash]
    · rw [if_neg hb, route_of_ne d hb]

/-- A directory that is there need not be made. -/
theorem Opens.makeDirectories_eq {d : Disk} {directory : Path} (h : d.Opens directory) :
    d.makeDirectories directory = .ok d := by
  obtain ⟨here, hlocate, hnode⟩ := h
  have hne : directory.bytes ≠ [] := by
    intro hnil
    simp [locate, hnil] at hlocate
  rw [locate_of_ne_nil d hne] at hlocate
  rw [makeDirectories_of_ne_nil d hne]
  exact makeFrom_of_follow hlocate hnode

/-! ### Names -/

theorem mem_namesIn {d : Disk} {here : Location} {name : Path} :
    name ∈ d.namesIn here ↔ (d.node? (here ++ [name])).isSome := by
  have hnode : (d.node? (here ++ [name])).isSome ↔ here ++ [name] ∈ d.nodes := by
    rw [node?, if_neg (by simp), Std.TreeMap.isSome_getElem?_iff_mem]
  rw [hnode, namesIn, List.mem_filterMap]
  constructor
  · rintro ⟨location, hlocation, hname⟩
    split at hname
    · rename_i hhere
      obtain ⟨front, rfl⟩ := List.getLast?_eq_some_iff.mp hname
      rw [List.dropLast_concat] at hhere
      rw [← hhere]
      exact Std.TreeMap.mem_keys.mp hlocation
    · simp at hname
  · intro hmem
    exact ⟨here ++ [name], Std.TreeMap.mem_keys.mpr hmem, by simp⟩

theorem Opens.list_eq {d : Disk} {directory : Path} (h : d.Opens directory) :
    d.list directory = .ok (d.namesIn (destination d.workDir directory)) := by
  rw [list, h.locate_eq]
  simp only [h.node?_eq]

theorem list_eq_ok {d : Disk} {directory : Path} {names : List Path}
    (h : d.list directory = .ok names) :
    d.Opens directory ∧ ∀ name, name ∈ names ↔ (d.child? directory name).isSome := by
  have hopens : d.Opens directory := by
    unfold list at h
    cases hlocate : d.locate directory with
    | error e => simp [hlocate] at h
    | ok here =>
      refine ⟨here, hlocate, ?_⟩
      simp only [hlocate] at h
      split at h
      · simp at h
      · simp at h
      · assumption
  rw [hopens.list_eq, Except.ok.injEq] at h
  exact ⟨hopens, fun name => h ▸ mem_namesIn⟩

/-! ### Changes in a directory -/

/-- A path is followed the same way on a disk that has the same directories and more. -/
theorem follow_mono {d d' : Disk}
    (h : ∀ there, d.node? there = some .directory → d'.node? there = some .directory)
    {here there : Location} {segments : List Bytes}
    (hfollow : d.follow here segments = .ok there) : d'.follow here segments = .ok there := by
  induction segments generalizing here with
  | nil => exact hfollow
  | cons segment rest ih =>
    rw [follow] at hfollow ⊢
    split at hfollow
    · simp at hfollow
    · simp at hfollow
    · rename_i hnode
      rw [h here hnode]
      exact ih hfollow

theorem locate_mono {d d' : Disk} (hworkDir : d'.workDir = d.workDir)
    (h : ∀ there, d.node? there = some .directory → d'.node? there = some .directory)
    {path : Path} {here : Location} (hlocate : d.locate path = .ok here) :
    d'.locate path = .ok here := by
  unfold locate at hlocate ⊢
  split at hlocate
  · simp at hlocate
  · by_cases hb : ‹UInt8› = Paths.slash
    · rw [if_pos hb] at hlocate ⊢
      exact follow_mono h hlocate
    · rw [if_neg hb] at hlocate ⊢
      rw [hworkDir]
      exact follow_mono h hlocate

theorem Opens.mono {d d' : Disk} {directory : Path} (hd : d.Opens directory)
    (hworkDir : d'.workDir = d.workDir)
    (h : ∀ there, d.node? there = some .directory → d'.node? there = some .directory) :
    d'.Opens directory := by
  obtain ⟨here, hlocate, hnode⟩ := hd
  exact ⟨here, locate_mono hworkDir h hlocate, h here hnode⟩

/-- A change at one name of a directory. -/
theorem child?_of_node? {d d' : Disk} {directory name : Path} {node : Option DiskNode}
    (hworkDir : d'.workDir = d.workDir)
    (hnode : ∀ there, d'.node? there =
      if there = destination d.workDir directory ++ [name] then node else d.node? there)
    (other : Path) :
    d'.child? directory other = if other = name then node else d.child? directory other := by
  rw [child?, child?, hworkDir, hnode]
  simp only [List.append_cancel_left_eq, List.cons.injEq, and_true]

theorem node?_of_write {d d' : Disk} {path : Path} {document : Syntax.Document} {modified : Int}
    (h : d.write path document modified = .ok d') :
    d.node? (destination d.workDir path) ≠ some .directory := by
  intro hdirectory
  unfold write at h
  cases hlocate : d.locate path with
  | error e => simp [hlocate] at h
  | ok here => simp [hlocate, locate_eq_ok hlocate, hdirectory] at h

theorem node?_of_removeFile {d d' : Disk} {path : Path} (h : d.removeFile path = .ok d') :
    d.node? (destination d.workDir path) ≠ some .directory := by
  intro hdirectory
  unfold removeFile at h
  cases hlocate : d.locate path with
  | error e => simp [hlocate] at h
  | ok here => simp [hlocate, locate_eq_ok hlocate, hdirectory] at h

/-- What a path leads to stays or goes when a file is removed. -/
theorem look_removeFile {d d' : Disk} {removed path : Path} (h : d.removeFile removed = .ok d')
    {node : DiskNode} (hlook : d.look path = .ok node) :
    d'.look path = .ok node ∨ d'.look path = .error .notFound := by
  obtain ⟨hworkDir, hnode⟩ := removeFile_eq_ok h
  obtain ⟨here, hlocate, hhere⟩ := look_eq_ok_iff.mp hlook
  have hlocate' : d'.locate path = .ok here := by
    refine locate_mono hworkDir (fun there hthere => ?_) hlocate
    have hne : there ≠ destination d.workDir removed :=
      fun heq => node?_of_removeFile h (heq ▸ hthere)
    rw [hnode, if_neg hne, hthere]
  by_cases hplace : here = destination d.workDir removed
  · exact .inr (by simp only [look, hlocate', hnode, if_pos hplace])
  · exact .inl (by simp only [look, hlocate', hnode, if_neg hplace, hhere])

/-- A change of the files in a directory. -/
structure Within (directory : Path) (d d' : Disk) : Prop where
  workDir_eq : d'.workDir = d.workDir
  directory_iff : ∀ {there}, d'.node? there = some .directory ↔ d.node? there = some .directory
  node?_eq : ∀ {there}, there.dropLast ≠ destination d.workDir directory →
    d'.node? there = d.node? there

namespace Within

variable {d d' d'' : Disk} {directory name path : Path}

theorem refl (directory : Path) (d : Disk) : d.Within directory d :=
  ⟨rfl, Iff.rfl, fun _ => rfl⟩

theorem trans (h : d.Within directory d') (h' : d'.Within directory d'') :
    d.Within directory d'' := by
  refine ⟨h'.workDir_eq.trans h.workDir_eq, h'.directory_iff.trans h.directory_iff, ?_⟩
  intro there hthere
  rw [h'.node?_eq (by rwa [h.workDir_eq]), h.node?_eq hthere]

theorem opens (h : d.Within directory d') (hd : d.Opens directory) : d'.Opens directory :=
  hd.mono h.workDir_eq fun _ => h.directory_iff.mpr

theorem of_node? {node : Option DiskNode}
    (hold : d.node? (destination d.workDir directory ++ [name]) ≠ some .directory)
    (hnew : node ≠ some .directory) (hworkDir : d'.workDir = d.workDir)
    (hnode : ∀ there, d'.node? there =
      if there = destination d.workDir directory ++ [name] then node else d.node? there) :
    d.Within directory d' := by
  refine ⟨hworkDir, fun {there} => ?_, fun {there} hthere => ?_⟩
  · rw [hnode]
    split
    · rename_i heq
      subst heq
      exact iff_of_false hnew hold
    · rfl
  · have hne : there ≠ destination d.workDir directory ++ [name] :=
      fun heq => hthere (by rw [heq, List.dropLast_concat])
    rw [hnode, if_neg hne]

theorem write (hname : IsName name) {document : Syntax.Document} {modified : Int}
    (h : d.write (Paths.join directory name) document modified = .ok d') :
    d.Within directory d' := by
  obtain ⟨hworkDir, hnode⟩ := write_eq_ok h
  have hold := node?_of_write h
  rw [destination_join hname] at hnode hold
  exact .of_node? hold (by simp) hworkDir hnode

theorem removeFile (hname : IsName name)
    (h : d.removeFile (Paths.join directory name) = .ok d') : d.Within directory d' := by
  obtain ⟨hworkDir, hnode⟩ := removeFile_eq_ok h
  have hold := node?_of_removeFile h
  rw [destination_join hname] at hnode hold
  exact .of_node? hold (by simp) hworkDir hnode

theorem locate_iff (h : d.Within directory d') {there : Location} :
    d'.locate path = .ok there ↔ d.locate path = .ok there :=
  ⟨locate_mono h.workDir_eq.symm fun _ => h.directory_iff.mp,
    locate_mono h.workDir_eq fun _ => h.directory_iff.mpr⟩

/-- Files elsewhere are found as before. -/
theorem look_iff (h : d.Within directory d')
    (hout : (destination d.workDir path).dropLast ≠ destination d.workDir directory)
    {node : DiskNode} : d'.look path = .ok node ↔ d.look path = .ok node := by
  rw [look_eq_ok_iff, look_eq_ok_iff]
  refine exists_congr fun here => ?_
  rw [h.locate_iff]
  refine and_congr_right fun hlocate => ?_
  rw [h.node?_eq (by rwa [locate_eq_ok hlocate])]

end Within

/-- A path that does not pass through the files of a directory. -/
def Avoids (d : Disk) (directory path : Path) : Prop :=
  ∀ front, front <+: (d.route path.bytes).2 →
    (front.foldl step (d.route path.bytes).1).dropLast ≠ destination d.workDir directory

theorem follow_congr {d d' : Disk} {here : Location} {segments : List Bytes}
    (h : ∀ front, front <+: segments →
      d'.node? (front.foldl step here) = d.node? (front.foldl step here)) :
    d'.follow here segments = d.follow here segments := by
  induction segments generalizing here with
  | nil => rfl
  | cons segment rest ih =>
    have hhere : d'.node? here = d.node? here := h [] List.nil_prefix
    have hrest : d'.follow (step here segment) rest = d.follow (step here segment) rest :=
      ih fun front hfront => h (segment :: front) ((List.prefix_cons_inj segment).mpr hfront)
    rw [follow, follow, hhere, hrest]

/-- What a path leads to, and why it leads nowhere, is the same after changes elsewhere. -/
theorem Within.look_eq {d d' : Disk} {directory path : Path} (h : d.Within directory d')
    (havoids : d.Avoids directory path) : d'.look path = d.look path := by
  by_cases hempty : path.bytes = []
  · simp only [look, locate, hempty]
  have hroute : d'.route path.bytes = d.route path.bytes := by
    unfold route
    rw [h.workDir_eq]
  have hnode : ∀ front, front <+: (d.route path.bytes).2 →
      d'.node? (front.foldl step (d.route path.bytes).1) =
        d.node? (front.foldl step (d.route path.bytes).1) :=
    fun front hfront => h.node?_eq (havoids front hfront)
  rw [look, look, locate_of_ne_nil d' hempty, locate_of_ne_nil d hempty, hroute,
    follow_congr hnode]
  cases hfollow : d.follow (d.route path.bytes).1 (d.route path.bytes).2 with
  | error e => rfl
  | ok there =>
    obtain rfl := follow_eq_ok hfollow
    simp only [hnode _ List.prefix_rfl]

theorem Avoids.of_workDir_eq {d d' : Disk} {directory path : Path}
    (h : d.Avoids directory path) (hworkDir : d'.workDir = d.workDir) :
    d'.Avoids directory path := by
  unfold Avoids route at h ⊢
  rwa [hworkDir]

/-- Writing a file into a directory, unless its name is that of a directory. -/
theorem write_join {d : Disk} {directory name : Path} (h : d.Opens directory)
    (hname : IsName name) (hchild : d.child? directory name ≠ some .directory)
    (document : Syntax.Document) (modified : Int) :
    ∃ d', d.write (Paths.join directory name) document modified = .ok d' ∧
      ∀ other, d'.child? directory other =
        if other = name then some (.file document modified) else d.child? directory other := by
  have hwrite : ∃ d', d.write (Paths.join directory name) document modified = .ok d' := by
    rw [write, locate_join h hname]
    dsimp only
    split
    · rename_i hnode
      exact absurd hnode hchild
    · exact ⟨_, rfl⟩
  obtain ⟨d', hd'⟩ := hwrite
  obtain ⟨hworkDir, hnode⟩ := write_eq_ok hd'
  rw [destination_join hname] at hnode
  exact ⟨d', hd', child?_of_node? hworkDir hnode⟩

/-- Removing a file of a directory, if it is there. -/
theorem removeFile_join {d : Disk} {directory name : Path} (h : d.Opens directory)
    (hname : IsName name) (hchild : d.child? directory name ≠ some .directory) :
    d.Within directory ((d.removeFile (Paths.join directory name)).toOption.getD d) ∧
      ∀ other, ((d.removeFile (Paths.join directory name)).toOption.getD d).child? directory other =
        if other = name then none else d.child? directory other := by
  cases hremove : d.removeFile (Paths.join directory name) with
  | error e =>
    refine ⟨.refl directory d, fun other => ?_⟩
    have hnone : d.child? directory name = none := by
      rw [removeFile, locate_join h hname] at hremove
      rw [child?] at hchild ⊢
      dsimp only at hremove
      split at hremove
      · assumption
      · rename_i hnode
        exact absurd hnode hchild
      · simp at hremove
    split
    · rename_i heq
      rw [heq]
      exact hnone
    · rfl
  | ok d' =>
    obtain ⟨hworkDir, hnode⟩ := removeFile_eq_ok hremove
    rw [destination_join hname] at hnode
    exact ⟨.removeFile hname hremove, child?_of_node? hworkDir hnode⟩

theorem foldl_removeFile {d : Disk} {directory : Path} {names : List Path}
    (h : d.Opens directory) (hnames : ∀ name ∈ names, IsName name)
    (hchild : ∀ name ∈ names, d.child? directory name ≠ some .directory) :
    let d' := names.foldl
      (fun d name => (d.removeFile (Paths.join directory name)).toOption.getD d) d
    d.Within directory d' ∧ ∀ other, d'.child? directory other =
      if other ∈ names then none else d.child? directory other := by
  induction names generalizing d with
  | nil => exact ⟨.refl directory d, fun other => by simp⟩
  | cons name names ih =>
    obtain ⟨hwithin, hremoved⟩ := removeFile_join h (hnames name List.mem_cons_self)
      (hchild name List.mem_cons_self)
    have hrest : ∀ other ∈ names,
        ((d.removeFile (Paths.join directory name)).toOption.getD d).child? directory other ≠
          some .directory := by
      intro other hother
      rw [hremoved]
      split
      · simp
      · exact hchild other (List.mem_cons_of_mem name hother)
    obtain ⟨hwithin', hremoved'⟩ := ih (hwithin.opens h)
      (fun other hother => hnames other (List.mem_cons_of_mem name hother)) hrest
    refine ⟨hwithin.trans hwithin', fun other => ?_⟩
    rw [List.foldl_cons, hremoved', hremoved]
    by_cases hmem : other ∈ names
    · simp [hmem]
    · by_cases heq : other = name <;> simp [hmem, heq]

/-! ### Changes elsewhere -/

/-- A directory in which a file can be written under any name. -/
structure Writable (directory : Path) (d : Disk) : Prop where
  opens : d.Opens directory
  files : ∀ name, d.child? directory name ≠ some .directory

/-- A directory is as it was before a change. -/
structure Spares (directory : Path) (d d' : Disk) : Prop where
  opens : d.Opens directory → d'.Opens directory
  child?_eq : ∀ name, d'.child? directory name = d.child? directory name

theorem Spares.writable {d d' : Disk} {directory : Path} (h : d.Spares directory d')
    (hd : d.Writable directory) : d'.Writable directory where
  opens := h.opens hd.opens
  files name := h.child?_eq name ▸ hd.files name

/-- Writing a file outside of a directory. -/
theorem Spares.write {d d' : Disk} {directory path : Path} {document : Syntax.Document}
    {modified : Int} (h : d.write path document modified = .ok d')
    (hout : ¬ destination d.workDir directory <+: destination d.workDir path) :
    d.Spares directory d' := by
  obtain ⟨hworkDir, hnode⟩ := write_eq_ok h
  refine ⟨fun hd => hd.mono hworkDir fun there hthere => ?_, fun name => ?_⟩
  · have hne : there ≠ destination d.workDir path :=
      fun heq => node?_of_write h (heq ▸ hthere)
    rw [hnode, if_neg hne, hthere]
  have hne : destination d.workDir directory ++ [name] ≠ destination d.workDir path :=
    fun heq => hout (heq ▸ List.prefix_append _ _)
  rw [child?, hworkDir, hnode, if_neg hne, child?]

theorem Spares.touch {d : Disk} {directory path : Path}
    (hout : ¬ destination d.workDir directory <+: destination d.workDir path) (modified : Int) :
    d.Spares directory ((d.touch path modified).toOption.getD d) := by
  cases htouch : d.touch path modified with
  | error e => exact ⟨id, fun _ => rfl⟩
  | ok d' =>
    unfold Disk.touch at htouch
    cases hread : d.read path with
    | error e => simp [hread] at htouch
    | ok document =>
      simp only [hread] at htouch
      exact .write htouch hout

theorem node?_put_of_ne (d : Disk) {here there : Location} (h : there ≠ here) (node : DiskNode) :
    (d.put here node).node? there = d.node? there := by
  have hcompare : ¬ compare here there = .eq := by simpa using Ne.symm h
  simp only [node?, put, Std.TreeMap.getElem?_insert, if_neg hcompare]

theorem node?_without (d : Disk) {here there : Location} (h : ¬ here <+: there) :
    (d.without here).node? there = d.node? there := by
  unfold node? without
  split
  · rfl
  · have hkept : List.isPrefixOf here there = false := by
      rw [← Bool.not_eq_true, List.isPrefixOf_iff_prefix]
      exact h
    simp only [Std.TreeMap.getElem?_filter']
    cases d.nodes[there]? with
    | none => rfl
    | some node => simp [hkept]

/-- Renaming touches what is at and below the two places. -/
theorem node?_moved (d : Disk) {source target there : Location} (hsource : ¬ source <+: there)
    (htarget : ¬ target <+: there) : (d.moved source target).node? there = d.node? there := by
  have hput : ∀ (inside : List (Location × DiskNode)) (d : Disk),
      (inside.foldl (fun d pair => d.put (target ++ pair.1.drop source.length) pair.2) d).node?
        there = d.node? there := by
    intro inside
    induction inside with
    | nil => exact fun d => rfl
    | cons pair inside ih =>
      intro d
      have hne : there ≠ target ++ pair.1.drop source.length :=
        fun heq => htarget (heq ▸ List.prefix_append _ _)
      rw [List.foldl_cons, ih]
      exact d.node?_put_of_ne hne pair.2
  exact (hput _ _).trans (d.node?_without hsource)

theorem workDir_moved (d : Disk) (source target : Location) :
    (d.moved source target).workDir = d.workDir := by
  have hput : ∀ (inside : List (Location × DiskNode)) (d : Disk),
      (inside.foldl (fun d pair => d.put (target ++ pair.1.drop source.length) pair.2) d).workDir =
        d.workDir := by
    intro inside
    induction inside with
    | nil => exact fun d => rfl
    | cons pair inside ih => exact fun d => ih _
  exact hput _ _

theorem rename_eq_ok {d d' : Disk} {old new : Path} (h : d.rename old new = .ok d') :
    d' = d ∨ d' = d.moved (destination d.workDir old) (destination d.workDir new) := by
  unfold rename at h
  cases hold : d.locate old with
  | error e => simp [hold, bind, Except.bind] at h
  | ok source =>
    cases hnew : d.locate new with
    | error e =>
      simp only [hold, hnew, bind, Except.bind] at h
      split at h <;> simp at h
    | ok target =>
      rw [← locate_eq_ok hold, ← locate_eq_ok hnew]
      simp only [hold, hnew, bind, Except.bind] at h
      split at h
      · split at h
        · exact .inl (Except.ok.inj h).symm
        · split at h
          · simp [throw, throwThe, MonadExceptOf.throw] at h
          · split at h
            · simp at h
            · exact .inr (Except.ok.inj h).symm
      · simp at h

/-- Renaming what is neither above a directory nor in it. -/
theorem Spares.rename {d d' : Disk} {directory old new : Path}
    (h : d.rename old new = .ok d') (hopens : d'.Opens directory)
    (hout : ∀ path ∈ [old, new], ¬ destination d.workDir directory <+: destination d.workDir path)
    (habove : ∀ path ∈ [old, new],
      ¬ destination d.workDir path <+: destination d.workDir directory) :
    d.Spares directory d' := by
  refine ⟨fun _ => hopens, fun name => ?_⟩
  have hnot : ∀ path ∈ [old, new],
      ¬ destination d.workDir path <+: destination d.workDir directory ++ [name] := by
    intro path hpath hbelow
    rcases List.prefix_concat_iff.mp hbelow with heq | hbelow
    · exact hout path hpath (heq ▸ List.prefix_append _ _)
    · exact habove path hpath hbelow
  rcases rename_eq_ok h with rfl | rfl
  · rfl
  · rw [child?, workDir_moved, node?_moved d (hnot old (by simp)) (hnot new (by simp)), child?]

end Coupling.Disk
