import Coupling.Proofs.Cache.Sound
import Coupling.Proofs.Cache.Stamps

/-!
# The cache as a map

A cache keeps some results in memory and all of them in its directory. Seen from outside it is a
map without bounds from the states of files to findings: whatever was asked, kept, forgotten and
edited before, a look-up finds what was kept last for the present state of the file. The states are
those that keys are made from, in which all times before the epoch are one and all paths that are
shown alike are one.
-/

namespace Coupling.Cache

/-! ### What happens to a cache -/

inductive Act where
  | get (path : Path)
  | set (path : Path) (findings : List Finding)
  | clear
  /-- Something else changes the disk. -/
  | edit (change : Disk → Disk)

/-- An act, the disk before it and what a look-up found. -/
structure Moment where
  disk : Disk
  act : Act
  found : Option (List Finding)

/-- The file that a cache is asked about. -/
def Moment.stamp? (m : Moment) : Option Stamp :=
  match m.act with
  | .get path => Stamp.at? m.disk path
  | .set path _ => Stamp.at? m.disk path
  | .clear => none
  | .edit _ => none

/-- A cache in use, with what happened so far, the last first. -/
structure Use where
  cache : ResultCache
  disk : Disk
  past : List Moment := []

namespace Use

def perform (u : Use) : Act → ResultCache.Answer
  | .get path => u.cache.get u.disk path
  | .set path findings =>
    ⟨none, (u.cache.set u.disk path findings).1, (u.cache.set u.disk path findings).2⟩
  | .clear => ⟨none, (u.cache.clear u.disk).1, (u.cache.clear u.disk).2⟩
  | .edit change => ⟨none, u.cache, change u.disk⟩

def next (u : Use) (act : Act) : Use :=
  let answer := u.perform act
  ⟨answer.cache, answer.disk, ⟨u.disk, act, answer.found⟩ :: u.past⟩

def play (u : Use) (acts : List Act) : Use := acts.foldl next u

end Use

/-! ### Maps -/

section Held

variable {κ : Type} [DecidableEq κ] (view : Stamp → κ)

/-- What a map under views of stamps holds after some moments: the findings that were kept last
under a key, if nothing was forgotten since. -/
def held : List Moment → κ → Option (List Finding)
  | [], _ => none
  | m :: past, k =>
    match m.act with
    | .set path findings =>
      if (Stamp.at? m.disk path).map view = some k then some findings else held past k
    | .clear => none
    | .get _ => held past k
    | .edit _ => held past k

/-- Every look-up finds what the map holds at that moment. -/
def AnswersAs : List Moment → Prop
  | [] => True
  | m :: past =>
    (∀ path, m.act = .get path →
      m.found = (Stamp.at? m.disk path).bind fun s => held view past (view s)) ∧ AnswersAs past

/-- Files outside of a directory keep their stamps up to the given disk, but for edits. -/
def KeepsStamps (directory : Path) : Disk → List Moment → Prop
  | _, [] => True
  | d, m :: past =>
    ((∀ change, m.act ≠ .edit change) → ∀ path,
      ¬ Disk.destination m.disk.workDir directory <+: Disk.destination m.disk.workDir path →
        Stamp.at? d path = Stamp.at? m.disk path) ∧ KeepsStamps directory m.disk past

variable {view}

theorem held_set (d : Disk) (path : Path) (findings : List Finding)
    (found : Option (List Finding)) (past : List Moment) :
    held view (⟨d, .set path findings, found⟩ :: past) =
      match (Stamp.at? d path).map view with
      | some k => Function.update (held view past) k (some findings)
      | none => held view past := by
  funext k
  simp only [held]
  cases (Stamp.at? d path).map view with
  | none => simp
  | some k' => simp [Function.update_apply, eq_comm]

end Held

/-! ### Moments that can be told apart -/

/-- A state that a cache is asked about. -/
def Met (moments : List Moment) (s : FileState) : Prop :=
  ∃ m ∈ moments, ∃ t, m.stamp? = some t ∧ t.state = s

/-- Edits leave the directory of results alone, the digests of the files that a cache is asked about
do not collide, times and sizes fit their widths, and entries are read as they were written. -/
structure Regular (directory : Path) (moments : List Moment) : Prop where
  spared : ∀ m ∈ moments, ∀ change, m.act = .edit change →
    m.disk.Spares directory (change m.disk)
  told_apart : ∀ s t, Met moments s → Met moments t → s.key = t.key → s.canonical = t.canonical
  modified_lt : ∀ s, Met moments s → s.modified < 2 ^ 128
  size_lt : ∀ s, Met moments s → s.size < 2 ^ 64
  readable : ∀ m ∈ moments, ∀ path findings, m.act = .set path findings →
    Entry.ofBytes? (Entry.mk path.text findings).toBytes = some ⟨path.text, findings⟩

theorem Met.shown_eq {moments : List Moment} {s : FileState} (h : Met moments s) :
    s.shown = s := by
  obtain ⟨m, _, t, _, rfl⟩ := h
  simp only [FileState.shown, Stamp.state, Path.shown, Path.text_ofText]

theorem Met.size_eq {moments : List Moment} {s : FileState} (h : Met moments s) :
    s.size = s.bytes.length := by
  obtain ⟨m, _, t, ht, rfl⟩ := h
  have hsize : t.size = t.bytes.length := by
    unfold Moment.stamp? at ht
    split at ht
    · exact Stamp.size_of_at? ht
    · exact Stamp.size_of_at? ht
    · simp at ht
    · simp at ht
  exact hsize

theorem Regular.eq_of_key {directory : Path} {moments : List Moment}
    (h : Regular directory moments) {s t : FileState} (hs : Met moments s) (ht : Met moments t)
    (hkey : s.key = t.key) : s = t := by
  rw [← hs.shown_eq, ← ht.shown_eq]
  exact FileState.Proper.shown_eq_of_canonical ⟨hs.size_eq, h.size_lt s hs, h.modified_lt s hs⟩
    ⟨ht.size_eq, h.size_lt t ht, h.modified_lt t ht⟩ (h.told_apart s t hs ht hkey)

/-! ### Memory and directory -/

/-- The name of the file of an entry. -/
def entryName (s : FileState) : Path := .ofText (s.key ++ ".json")

theorem key_of_entryName {s t : FileState} (h : entryName s = entryName t) : s.key = t.key :=
  (String.append_left_inj _).mp (Path.ofText_inj.mp h)

/-- The file of an entry. -/
def entryNode (s : FileState) (findings : List Finding) : DiskNode :=
  .file ⟨(Entry.mk s.path.text findings).toBytes, none⟩ 0

/-- A cache that stands for a map: memory holds a part of the map, and the files in the directory
are the entries of the map. -/
structure Mirrors (directory : Path) (moments : List Moment)
    (map : FileState → Option (List Finding)) (c : ResultCache) (d : Disk) : Prop where
  directory_eq : c.directory = directory
  opens : d.Opens directory
  memory : ∀ {key : String} {findings : List Finding}, c.memory[key]? = some findings →
    ∃ s, Met moments s ∧ s.key = key ∧ map s = some findings
  child?_eq : ∀ s, Met moments s → d.child? directory (entryName s) = (map s).map (entryNode s)
  met : ∀ name, (d.child? directory name).isSome → ∃ s, Met moments s ∧ name = entryName s
  readable : ∀ {s : FileState} {findings : List Finding}, map s = some findings →
    Entry.ofBytes? (Entry.mk s.path.text findings).toBytes = some ⟨s.path.text, findings⟩

namespace Mirrors

variable {directory : Path} {moments : List Moment} {map : FileState → Option (List Finding)}
  {c : ResultCache} {d : Disk}

theorem stored_eq_absent (h : Mirrors directory moments map c d) {s : FileState}
    (hs : Met moments s) (hmap : map s = none) : c.stored d s.key s.path = .absent := by
  have hchild := h.child?_eq s hs
  rw [hmap] at hchild
  have hread : d.read (c.entryPath s.key) = .error .notFound := by
    rw [ResultCache.entryPath, h.directory_eq]
    exact Disk.read_join_of_none h.opens s.isName_key hchild
  unfold ResultCache.stored
  rw [hread]

theorem stored_eq_found (h : Mirrors directory moments map c d) {s : FileState}
    (hs : Met moments s) {findings : List Finding} (hmap : map s = some findings) :
    c.stored d s.key s.path = .found findings := by
  have hchild := h.child?_eq s hs
  rw [hmap] at hchild
  have hread :
      d.read (c.entryPath s.key) = .ok ⟨(Entry.mk s.path.text findings).toBytes, none⟩ := by
    rw [ResultCache.entryPath, h.directory_eq]
    exact Disk.read_join_of_file h.opens s.isName_key hchild
  exact ResultCache.stored_of_entry hread (h.readable hmap)

/-- Remembering what the map holds. -/
theorem remember (h : Mirrors directory moments map c d) {s : FileState} (hs : Met moments s)
    {findings : List Finding} (hmap : map s = some findings) :
    Mirrors directory moments map (c.remember s.key findings) d := by
  refine { h with directory_eq := ?_, memory := fun hmemory => ?_ }
  · rw [ResultCache.directory_remember, h.directory_eq]
  · rcases ResultCache.mem_remember hmemory with ⟨rfl, rfl⟩ | ⟨_, hmemory⟩
    · exact ⟨s, hs, rfl, hmap⟩
    · exact h.memory hmemory

/-- A look-up finds what the map holds. -/
theorem get (h : Mirrors directory moments map c d) (hall : Regular directory moments)
    {path : Path} (hmet : ∀ s, Stamp.at? d path = some s → Met moments s.state) :
    (c.get d path).found = ((Stamp.at? d path).bind fun s => map s.state) ∧
      Mirrors directory moments map (c.get d path).cache (c.get d path).disk := by
  cases hstamp : Stamp.at? d path with
  | none =>
    rw [ResultCache.get_of_at?_none hstamp]
    exact ⟨rfl, { h with }⟩
  | some s =>
    have hs := hmet s hstamp
    have hstored : c.stored d s.state.key path = c.stored d s.state.key s.state.path := by
      rw [ResultCache.stored, ResultCache.stored, Stamp.text_of_at? hstamp]
    rw [Option.bind_some]
    cases hmemory : c.memory[s.state.key]? with
    | some findings =>
      obtain ⟨t, ht, hkey, hmap⟩ := h.memory hmemory
      rw [ResultCache.get_of_memory hstamp hmemory, ← hall.eq_of_key ht hs hkey, hmap]
      exact ⟨rfl, { h with }⟩
    | none =>
      cases hmap : map s.state with
      | none =>
        rw [ResultCache.get_of_absent hstamp hmemory (hstored.trans (h.stored_eq_absent hs hmap))]
        exact ⟨rfl, { h with }⟩
      | some findings =>
        rw [ResultCache.get_of_found hstamp hmemory (hstored.trans (h.stored_eq_found hs hmap))]
        exact ⟨rfl, { h.remember hs hmap with }⟩

theorem child?_ne_directory (h : Mirrors directory moments map c d) {s : FileState}
    (hs : Met moments s) : d.child? directory (entryName s) ≠ some .directory := by
  rw [h.child?_eq s hs]
  cases map s <;> simp [entryNode]

/-- Keeping findings updates the map. -/
theorem set (h : Mirrors directory moments map c d) (hall : Regular directory moments)
    {path : Path} {s : Stamp} (hstamp : Stamp.at? d path = some s) (hs : Met moments s.state)
    {findings : List Finding}
    (hreadable :
      Entry.ofBytes? (Entry.mk path.text findings).toBytes = some ⟨path.text, findings⟩) :
    Mirrors directory moments (Function.update map s.state (some findings))
      (c.set d path findings).1 (c.set d path findings).2 := by
  rw [← Stamp.text_of_at? hstamp] at hreadable
  obtain ⟨d', hwrite, hchild⟩ := Disk.write_join h.opens s.state.isName_key
    (h.child?_ne_directory hs) ⟨(Entry.mk s.state.path.text findings).toBytes, none⟩ 0
  rw [ResultCache.set_of_at?_some hstamp, ResultCache.entryPath, h.directory_eq,
    ← Stamp.text_of_at? hstamp, hwrite]
  have hwithin := Disk.Within.write s.state.isName_key hwrite
  refine ⟨?_, hwithin.opens h.opens, fun {key found} hmemory => ?_, fun t ht => ?_,
    fun name hname => ?_, fun {t found} hmap => ?_⟩
  · rw [ResultCache.directory_remember, h.directory_eq]
  · rcases ResultCache.mem_remember hmemory with ⟨rfl, rfl⟩ | ⟨hne, hmemory⟩
    · exact ⟨s.state, hs, rfl, Function.update_self ..⟩
    · obtain ⟨t, ht, hkey, hmap⟩ := h.memory hmemory
      have hts : t ≠ s.state := fun heq => hne (by rw [← hkey, heq])
      exact ⟨t, ht, hkey, by rw [Function.update_of_ne hts, hmap]⟩
  · -- Only the entry of this state is written, since no other one has its key.
    refine (hchild (entryName t)).trans ?_
    by_cases hts : t = s.state
    · rw [hts, Function.update_self]
      exact if_pos rfl
    · have hne : entryName t ≠ entryName s.state := fun hname =>
        hts (hall.eq_of_key ht hs (key_of_entryName hname))
      rw [Function.update_of_ne hts, ← h.child?_eq t ht]
      exact if_neg hne
  · have hname : (d'.child? directory name).isSome := hname
    rw [hchild] at hname
    split at hname
    · rename_i heq
      exact ⟨s.state, hs, heq⟩
    · exact h.met name hname
  · by_cases hts : t = s.state
    · subst hts
      rw [Function.update_self, Option.some.injEq] at hmap
      exact hmap ▸ hreadable
    · rw [Function.update_of_ne hts] at hmap
      exact h.readable hmap

/-- All names in the directory are those of entries, so all of them are removed. -/
theorem child?_clear (h : Mirrors directory moments map c d) :
    d.Within directory (c.clear d).2 ∧ ∀ name, (c.clear d).2.child? directory name = none := by
  have hlist := h.opens.list_eq
  generalize d.namesIn (Disk.destination d.workDir directory) = names at hlist
  obtain ⟨_, hmem⟩ := Disk.list_eq_ok hlist
  have hnames : ∀ name ∈ names, ∃ s, Met moments s ∧ name = entryName s :=
    fun name hname => h.met name ((hmem name).mp hname)
  have hfilter :
      names.filter (fun name => Paths.extension? name == some (.ofText "json")) = names := by
    rw [List.filter_eq_self]
    intro name hname
    obtain ⟨s, _, rfl⟩ := hnames name hname
    simp [entryName, s.extension?_key]
  have hisName : ∀ name ∈ names, Disk.IsName name := by
    intro name hname
    obtain ⟨s, _, rfl⟩ := hnames name hname
    exact s.isName_key
  have hfile : ∀ name ∈ names, d.child? directory name ≠ some .directory := by
    intro name hname
    obtain ⟨s, hs, rfl⟩ := hnames name hname
    exact h.child?_ne_directory hs
  obtain ⟨hwithin, hchild⟩ := Disk.foldl_removeFile h.opens hisName hfile
  have hdisk : (c.clear d).2 = names.foldl
      (fun d name => (d.removeFile (Paths.join directory name)).toOption.getD d) d := by
    simp only [ResultCache.clear, ResultCache.clearDirectory, h.directory_eq, hlist, hfilter]
  rw [hdisk]
  refine ⟨hwithin, fun name => ?_⟩
  rw [hchild]
  split
  · rfl
  · rename_i hname
    rwa [hmem, Option.not_isSome_iff_eq_none] at hname

theorem clear (h : Mirrors directory moments map c d) :
    Mirrors directory moments (fun _ => none) (c.clear d).1 (c.clear d).2 := by
  obtain ⟨hwithin, hnone⟩ := h.child?_clear
  refine ⟨h.directory_eq, hwithin.opens h.opens, fun hmemory => ?_, fun s _ => hnone _,
    fun name hname => ?_, fun hmap => ?_⟩
  · simp [ResultCache.clear] at hmemory
  · rw [hnone] at hname
    simp at hname
  · simp at hmap

theorem edit (h : Mirrors directory moments map c d) {d' : Disk} (hd' : d.Spares directory d') :
    Mirrors directory moments map c d' := by
  refine { h with
    opens := hd'.opens h.opens, child?_eq := fun s hs => ?_, met := fun name hname => ?_ }
  · rw [hd'.child?_eq, h.child?_eq s hs]
  · rw [hd'.child?_eq] at hname
    exact h.met name hname

end Mirrors

/-! ### Runs -/

theorem Use.past_next (u : Use) (act : Act) :
    (u.next act).past = ⟨u.disk, act, (u.perform act).found⟩ :: u.past := rfl

theorem Use.past_subset_play (u : Use) (acts : List Act) : u.past ⊆ (u.play acts).past := by
  induction acts generalizing u with
  | nil => exact List.Subset.refl _
  | cons act acts ih => exact List.Subset.trans (List.subset_cons_self _ _) (ih (u.next act))

section Run

variable {directory : Path} {moments : List Moment} {u : Use}

/-- Apart from edits, files in the directory are all that changes. -/
theorem Mirrors.within_next {map : FileState → Option (List Finding)}
    (hu : Mirrors directory moments map u.cache u.disk) {act : Act}
    (hact : ∀ change, act ≠ .edit change) : u.disk.Within directory (u.next act).disk := by
  cases act with
  | get path => exact hu.directory_eq ▸ (u.cache.frame_get u.disk path).2
  | set path findings => exact hu.directory_eq ▸ (u.cache.frame_set u.disk path findings).2
  | clear => exact hu.child?_clear.1
  | edit change => exact absurd rfl (hact change)

/-- One act: the cache answers as the map does and stands for what the map is then. -/
theorem Mirrors.next (hall : Regular directory moments)
    (hu : Mirrors directory moments (held Stamp.state u.past) u.cache u.disk) (act : Act)
    (hmem : ⟨u.disk, act, (u.perform act).found⟩ ∈ moments) :
    (∀ path, act = .get path → (u.perform act).found =
      (Stamp.at? u.disk path).bind fun s => held Stamp.state u.past s.state) ∧
      Mirrors directory moments (held Stamp.state (u.next act).past) (u.next act).cache
        (u.next act).disk := by
  have hmet : ∀ path s, (∃ findings, act = .set path findings) ∨ act = .get path →
      Stamp.at? u.disk path = some s → Met moments s.state := by
    rintro path s hact hs
    refine ⟨_, hmem, s, ?_, rfl⟩
    rcases hact with ⟨findings, rfl⟩ | rfl <;> exact hs
  cases act with
  | get path =>
    obtain ⟨hfound, hcache⟩ := hu.get hall (hmet path · (.inr rfl))
    refine ⟨fun path' hpath => ?_, hcache⟩
    obtain rfl := Act.get.inj hpath
    exact hfound
  | set path findings =>
    refine ⟨fun path' hpath => by simp at hpath, ?_⟩
    rw [Use.past_next, held_set]
    cases hstamp : Stamp.at? u.disk path with
    | none =>
      have hnext : u.cache.set u.disk path findings = (u.cache, u.disk) :=
        ResultCache.set_of_at?_none hstamp findings
      simp only [Use.next, Use.perform, hnext]
      exact hu
    | some s =>
      exact hu.set hall hstamp (hmet path s (.inl ⟨findings, rfl⟩) hstamp)
        (hall.readable _ hmem path findings rfl)
  | clear =>
    refine ⟨fun path' hpath => by simp at hpath, ?_⟩
    exact hu.clear
  | edit change =>
    refine ⟨fun path' hpath => by simp at hpath, ?_⟩
    exact hu.edit (hall.spared _ hmem change rfl)

/-- A cache in use that answered as a map did and stands for what the map is now. -/
structure Use.Faithful (directory : Path) (moments : List Moment) (u : Use) : Prop where
  mirrors : Mirrors directory moments (held Stamp.state u.past) u.cache u.disk
  answers : AnswersAs Stamp.state u.past
  keeps : KeepsStamps directory u.disk u.past

theorem Use.Faithful.next (hall : Regular directory moments) (hu : u.Faithful directory moments)
    (act : Act) (hmem : ⟨u.disk, act, (u.perform act).found⟩ ∈ moments) :
    (u.next act).Faithful directory moments := by
  obtain ⟨hfound, hmirrors⟩ := hu.mirrors.next hall act hmem
  refine ⟨hmirrors, ⟨hfound, hu.answers⟩, fun hact path hout => ?_, hu.keeps⟩
  have hparent : (Disk.destination u.disk.workDir path).dropLast ≠
      Disk.destination u.disk.workDir directory :=
    fun heq => hout (heq ▸ List.dropLast_prefix _)
  exact Stamp.at?_within (hu.mirrors.within_next hact) hparent

theorem Use.Faithful.play (hall : Regular directory moments) (hu : u.Faithful directory moments)
    (acts : List Act) (hmoments : (u.play acts).past ⊆ moments) :
    (u.play acts).Faithful directory moments := by
  induction acts generalizing u with
  | nil => exact hu
  | cons act acts ih =>
    have hmem : ⟨u.disk, act, (u.perform act).found⟩ ∈ moments :=
      hmoments (Use.past_subset_play (u.next act) acts List.mem_cons_self)
    exact ih (hu.next hall act hmem) hmoments

/-- A new cache with an empty directory stands for the empty map. -/
theorem Use.faithful_of_create {d d₀ : Disk} {c : ResultCache} {capacity : Nat}
    (h : ResultCache.create d directory capacity = .ok (c, d₀))
    (hempty : d₀.list directory = .ok []) :
    (Use.mk c d₀ []).Faithful directory moments := by
  obtain ⟨hopens, hnames⟩ := Disk.list_eq_ok hempty
  have hnone : ∀ name, d₀.child? directory name = none := by
    intro name
    rw [← Option.not_isSome_iff_eq_none, ← hnames]
    exact List.not_mem_nil
  obtain rfl := ResultCache.eq_of_create h
  refine ⟨⟨rfl, hopens, fun hmemory => ?_, fun s _ => hnone _, fun name hname => ?_,
    fun hmap => ?_⟩, trivial, trivial⟩
  · simp at hmemory
  · simp [hnone] at hname
  · simp [held] at hmap

/-! ### Times since the epoch -/

/-- No file that a cache is asked about was changed last before the epoch. -/
def SinceEpoch (moments : List Moment) : Prop :=
  ∀ m ∈ moments, ∀ s, m.stamp? = some s → 0 ≤ s.modified

/-- Different paths that a cache is asked about are shown as different ones. -/
def ShownApart (moments : List Moment) : Prop :=
  ∀ m ∈ moments, ∀ m' ∈ moments, ∀ s ∈ m.stamp?, ∀ t ∈ m'.stamp?,
    s.path.text = t.path.text → s.path = t.path

/-- Nothing is lost of a stamp if its state is taken. -/
def Exact (moments : List Moment) : Prop :=
  ∀ m ∈ moments, ∀ m' ∈ moments, ∀ s ∈ m.stamp?, ∀ t ∈ m'.stamp?, s.state = t.state → s = t

theorem SinceEpoch.exact {moments : List Moment} (h : SinceEpoch moments)
    (happart : ShownApart moments) : Exact moments :=
  fun m hm m' hm' s hs t ht =>
    Stamp.state_injective (happart m hm m' hm' s hs t ht) (h m hm s hs) (h m' hm' t ht)

theorem held_state_eq {past : List Moment} {s : Stamp}
    (hs : ∀ m ∈ past, ∀ t ∈ m.stamp?, t.state = s.state → t = s) :
    held Stamp.state past s.state = held id past s := by
  induction past with
  | nil => rfl
  | cons m past ih =>
    have hrest := ih fun m' hm' => hs m' (List.mem_cons_of_mem m hm')
    cases hact : m.act with
    | get path => simpa only [held, hact] using hrest
    | clear => simp only [held, hact]
    | edit change => simpa only [held, hact] using hrest
    | set path findings =>
      have hsame : (Stamp.at? m.disk path).map Stamp.state = some s.state ↔
          (Stamp.at? m.disk path).map id = some s := by
        cases hstamp : Stamp.at? m.disk path with
        | none => simp
        | some t =>
          have ht := hs m List.mem_cons_self t (by rw [Moment.stamp?, hact]; exact hstamp)
          simp only [Option.map_some, Option.some.injEq, id]
          exact ⟨ht, congrArg Stamp.state⟩
      simp only [held, hact, hsame, hrest]

theorem AnswersAs.of_state {past : List Moment} (hpast : Exact past)
    (h : AnswersAs Stamp.state past) : AnswersAs id past := by
  induction past with
  | nil => trivial
  | cons m past ih =>
    have hrest : Exact past := fun m' hm' m'' hm'' =>
      hpast m' (List.mem_cons_of_mem m hm') m'' (List.mem_cons_of_mem m hm'')
    refine ⟨fun path hact => ?_, ih hrest h.2⟩
    rw [h.1 path hact]
    cases hstamp : Stamp.at? m.disk path with
    | none => rfl
    | some s =>
      have hs : m.stamp? = some s := by
        rw [Moment.stamp?, hact]
        exact hstamp
      exact held_state_eq fun m' hm' t ht =>
        hpast m' (List.mem_cons_of_mem m hm') m List.mem_cons_self t ht s hs

end Run

/-- Whatever happens to a new cache, every look-up finds what a map would hold under the state of
the file, in which all times before the epoch are one and the path is the one that is shown. If no
file was changed last before the epoch and no two paths are shown alike, this is what a map would
hold under path, content, time and size. Files outside of the directory are only changed by edits.
-/
theorem answers_as_map {d d₀ : Disk} {directory : Path} {capacity : Nat} {c : ResultCache}
    (hcreate : ResultCache.create d directory capacity = .ok (c, d₀))
    (hempty : d₀.list directory = .ok []) (acts : List Act)
    (hregular : Regular directory (Use.play ⟨c, d₀, []⟩ acts).past) :
    AnswersAs Stamp.state (Use.play ⟨c, d₀, []⟩ acts).past ∧
      (SinceEpoch (Use.play ⟨c, d₀, []⟩ acts).past →
        ShownApart (Use.play ⟨c, d₀, []⟩ acts).past →
        AnswersAs id (Use.play ⟨c, d₀, []⟩ acts).past) ∧
      KeepsStamps directory (Use.play ⟨c, d₀, []⟩ acts).disk
        (Use.play ⟨c, d₀, []⟩ acts).past := by
  have hstart : (Use.mk c d₀ []).Faithful directory (Use.play ⟨c, d₀, []⟩ acts).past :=
    Use.faithful_of_create hcreate hempty
  have hplay := hstart.play hregular acts (List.Subset.refl _)
  exact ⟨hplay.answers, fun hepoch hshown => hplay.answers.of_state (hepoch.exact hshown),
    hplay.keeps⟩

/-! ### A file that is touched -/

namespace Touched

def content (t : Int) : DiskNode := .file ⟨[120, 10], none⟩ t

/-- A disk with a file and an empty directory. -/
def disk (t : Int) : Disk :=
  ((Disk.blank ["work"]).put ["work", "old.py"] (content t)).put ["work", "cache"] .directory

/-- A cache that remembers one result. -/
def cache : ResultCache := ⟨"cache", 1, ∅, [], 0, 0⟩

def stamp (t : Int) : Stamp := ⟨"a.py", [120, 10], t, 2⟩

def finding : Finding := ⟨"1", .name, .low, "a.py", ⟨1, 0⟩, "x", "", 1.0, []⟩

/-- The names of the file, the present one last. -/
def files : List Path := ["old.py", "a.py"]

def rename (d : Disk) : Disk := (d.rename "old.py" "a.py").toOption.getD d

def touch (t : Int) (d : Disk) : Disk := (d.touch "a.py" t).toOption.getD d

/-- A file gets its name, results are kept for it at two times, and the first time comes back. -/
def acts (t t' : Int) : List Act :=
  [.edit rename, .set "a.py" [finding], .edit (touch t'), .get "a.py", .set "a.py" [],
    .edit (touch t), .get "a.py", .clear]

def use (t t' : Int) : Use := Use.play ⟨cache, disk t, []⟩ (acts t t')

theorem create_eq (t : Int) : ResultCache.create (disk t) "cache" 0 = .ok (cache, disk t) := by
  rfl

theorem list_eq (t : Int) : (disk t).list "cache" = .ok [] := by
  rfl

theorem reads_back : ∀ findings ∈ [[finding], []],
    Entry.ofBytes? (Entry.mk "a.py" findings).toBytes = some ⟨"a.py", findings⟩ := by
  simp only [Entry.toBytes, Json.compress, Text.encode_ofList]
  decide +kernel

/-- The file has a stamp, and its disk has the directory of the cache next to it. -/
structure Shows (u : Use) (t : Int) : Prop where
  directory_eq : u.cache.directory = "cache"
  workDir_eq : u.disk.workDir = ["work"]
  at?_eq : Stamp.at? u.disk "a.py" = some (stamp t)

theorem moved_eq (t : Int) :
    rename (disk t) = ((disk t).without ["work", "old.py"]).put ["work", "a.py"] (content t) := by
  rfl

theorem node?_rename (t : Int) :
    (rename (disk t)).node? ["work"] = some .directory ∧
      (rename (disk t)).node? ["work", "cache"] = some .directory ∧
      (rename (disk t)).node? ["work", "a.py"] = some (content t) := by
  rw [moved_eq]
  refine ⟨?_, ?_, ?_⟩
  · rw [Disk.node?_put_of_ne _ (by decide), Disk.node?_without _ (by decide)]
    rfl
  · rw [Disk.node?_put_of_ne _ (by decide), Disk.node?_without _ (by decide)]
    rfl
  · rw [Disk.node?_put _ (by decide), if_pos rfl]

theorem shows_rename (t : Int) : Shows (Use.next ⟨cache, disk t, []⟩ (.edit rename)) t := by
  obtain ⟨hwork, _, hfile⟩ := node?_rename t
  have hname : Disk.IsName "a.py" := Disk.isName_ofText (by decide) (by decide)
  have hlook : (rename (disk t)).look "a.py" = .ok (content t) :=
    Disk.look_eq_ok_iff.mpr ⟨_, Disk.locate_of_isName hname hwork, hfile⟩
  exact ⟨rfl, rfl, Stamp.at?_eq_some.mpr ⟨_, t, hlook, rfl⟩⟩

theorem spares_rename (t : Int) : (disk t).Spares "cache" (rename (disk t)) := by
  obtain ⟨hwork, hcache, _⟩ := node?_rename t
  have hrename : (disk t).rename "old.py" "a.py" = .ok (rename (disk t)) := by rfl
  have hname : Disk.IsName "cache" := Disk.isName_ofText (by decide) (by decide)
  refine .rename hrename ⟨_, Disk.locate_of_isName hname hwork, hcache⟩ ?_ ?_
  · change ∀ path ∈ files, ¬ Disk.destination ["work"] "cache" <+: Disk.destination ["work"] path
    decide +kernel
  · change ∀ path ∈ files, ¬ Disk.destination ["work"] path <+: Disk.destination ["work"] "cache"
    decide +kernel

variable {u : Use} {t : Int}

/-- The directory of the cache is not the one of the file. -/
theorem Shows.outside (h : Shows u t) :
    (Disk.destination u.disk.workDir "a.py").dropLast ≠
      Disk.destination u.disk.workDir u.cache.directory := by
  rw [h.workDir_eq, h.directory_eq]
  decide +kernel

theorem Shows.get (h : Shows u t) : Shows (u.next (.get "a.py")) t := by
  obtain ⟨hdirectory, hwithin⟩ := u.cache.frame_get u.disk "a.py"
  exact ⟨hdirectory.trans h.directory_eq, hwithin.workDir_eq.trans h.workDir_eq,
    (Stamp.at?_within hwithin h.outside).trans h.at?_eq⟩

theorem Shows.set (h : Shows u t) (findings : List Finding) :
    Shows (u.next (.set "a.py" findings)) t := by
  obtain ⟨hdirectory, hwithin⟩ := u.cache.frame_set u.disk "a.py" findings
  exact ⟨hdirectory.trans h.directory_eq, hwithin.workDir_eq.trans h.workDir_eq,
    (Stamp.at?_within hwithin h.outside).trans h.at?_eq⟩

theorem Shows.touch (h : Shows u t) (t' : Int) : Shows (u.next (.edit (touch t'))) t' := by
  obtain ⟨hworkDir, hstamp⟩ := Stamp.at?_touch h.at?_eq t'
  exact ⟨h.directory_eq, hworkDir.trans h.workDir_eq, hstamp⟩

theorem Shows.spares (h : Shows u t) (t' : Int) :
    u.disk.Spares "cache" (Touched.touch t' u.disk) := by
  refine .touch ?_ t'
  rw [h.workDir_eq]
  decide +kernel

/-- What happens, the last first. -/
theorem past_eq (t t' : Int) : ∃ d₁ d₂ d₃ d₄ d₅ d₆ d₇ found found', (use t t').past =
    [⟨d₇, .clear, none⟩, ⟨d₆, .get "a.py", found'⟩, ⟨d₅, .edit (touch t), none⟩,
      ⟨d₄, .set "a.py" [], none⟩, ⟨d₃, .get "a.py", found⟩, ⟨d₂, .edit (touch t'), none⟩,
      ⟨d₁, .set "a.py" [finding], none⟩, ⟨disk t, .edit rename, none⟩] ∧
    (Stamp.at? d₁ "a.py" = some (stamp t) ∧ Stamp.at? d₃ "a.py" = some (stamp t') ∧
      Stamp.at? d₄ "a.py" = some (stamp t') ∧ Stamp.at? d₆ "a.py" = some (stamp t)) ∧
    d₂.Spares "cache" (touch t' d₂) ∧ d₅.Spares "cache" (touch t d₅) := by
  have h₁ := shows_rename t
  have h₂ := h₁.set [finding]
  have h₃ := h₂.touch t'
  have h₄ := h₃.get
  have h₅ := h₄.set []
  have h₆ := h₅.touch t
  exact ⟨_, _, _, _, _, _, _, _, _, rfl,
    ⟨h₁.at?_eq, h₃.at?_eq, h₄.at?_eq, h₆.at?_eq⟩, h₂.spares t', h₅.spares t⟩

theorem stamp_of_mem {t t' : Int} {m : Moment} (hm : m ∈ (use t t').past) {s : Stamp}
    (hs : m.stamp? = some s) : s = stamp t ∨ s = stamp t' := by
  obtain ⟨d₁, d₂, d₃, d₄, d₅, d₆, d₇, found, found', hpast, ⟨hd₁, hd₃, hd₄, hd₆⟩, _, _⟩ :=
    past_eq t t'
  rw [hpast] at hm
  simp only [List.mem_cons, List.not_mem_nil, or_false] at hm
  rcases hm with rfl | rfl | rfl | rfl | rfl | rfl | rfl | rfl <;> simp_all [Moment.stamp?]

theorem regular {t t' : Int} (ht : t < 2 ^ 128) (ht' : t' < 2 ^ 128)
    (hkeys : (stamp t).state.key = (stamp t').state.key → (stamp t).state = (stamp t').state) :
    Regular "cache" (use t t').past := by
  obtain ⟨d₁, d₂, d₃, d₄, d₅, d₆, d₇, found, found', hpast, _, hd₂, hd₅⟩ := past_eq t t'
  have hmet : ∀ s, Met (use t t').past s → s = (stamp t).state ∨ s = (stamp t').state := by
    rintro s ⟨m, hm, s, hs, rfl⟩
    rcases stamp_of_mem hm hs with rfl | rfl
    · exact .inl rfl
    · exact .inr rfl
  refine ⟨?_, ?_, ?_, ?_, ?_⟩
  · intro m hm change hact
    rw [hpast] at hm
    simp only [List.mem_cons, List.not_mem_nil, or_false] at hm
    rcases hm with rfl | rfl | rfl | rfl | rfl | rfl | rfl | rfl <;> simp at hact <;> subst hact
    · exact hd₅
    · exact hd₂
    · exact spares_rename t
  · intro s s' hs hs' hkey
    rcases hmet s hs with rfl | rfl <;> rcases hmet s' hs' with rfl | rfl
    · rfl
    · rw [hkeys hkey]
    · rw [hkeys hkey.symm]
    · rfl
  · intro s hs
    rcases hmet s hs with rfl | rfl <;> simp only [Stamp.state, stamp] <;> omega
  · intro s hs
    rcases hmet s hs with rfl | rfl <;> simp [Stamp.state, stamp]
  · intro m hm path findings hact
    rw [hpast] at hm
    simp only [List.mem_cons, List.not_mem_nil, or_false] at hm
    rcases hm with rfl | rfl | rfl | rfl | rfl | rfl | rfl | rfl <;> simp at hact <;>
      obtain ⟨rfl, rfl⟩ := hact <;> rw [Path.text_ofText]
    · exact reads_back _ (by simp)
    · exact reads_back _ (by simp)

/-- What the two look-ups find if they answer as a map does. -/
theorem found_of_answers {κ : Type} [DecidableEq κ] {view : Stamp → κ} {t t' : Int}
    (h : AnswersAs view (use t t').past) :
    (use t t').past.map Moment.found = [none,
      some (if view (stamp t) = view (stamp t') then [] else [finding]), none, none,
      if view (stamp t) = view (stamp t') then some [finding] else none, none, none, none] := by
  obtain ⟨d₁, d₂, d₃, d₄, d₅, d₆, d₇, found, found', hpast, ⟨hd₁, hd₃, hd₄, hd₆⟩, _, _⟩ :=
    past_eq t t'
  rw [hpast] at h ⊢
  have hfirst := h.2.2.2.2.1 "a.py" rfl
  have hsecond := h.2.1 "a.py" rfl
  simp only [held, hd₁, hd₃, hd₄, hd₆, Option.bind_some, Option.map_some, Option.some.injEq]
    at hfirst hsecond
  by_cases hview : view (stamp t) = view (stamp t')
  · simp [hfirst, hsecond, hview]
  · simp [hfirst, hsecond, hview, Ne.symm hview]

/-- A touch from one time before the epoch to another one goes unseen. -/
theorem touch_unseen_before_epoch :
    ResultCache.create (disk (-5)) "cache" 0 = .ok (cache, disk (-5)) ∧
      (disk (-5)).list "cache" = .ok [] ∧ Regular "cache" (use (-5) (-3)).past ∧
      ¬ AnswersAs id (use (-5) (-3)).past := by
  have hregular : Regular "cache" (use (-5) (-3)).past :=
    regular (by decide) (by decide) fun _ => rfl
  have hstart : (Use.mk cache (disk (-5)) []).Faithful "cache" (use (-5) (-3)).past :=
    Use.faithful_of_create (create_eq (-5)) (list_eq (-5))
  have hanswers : AnswersAs Stamp.state (use (-5) (-3)).past :=
    (hstart.play hregular (acts (-5) (-3)) (List.Subset.refl _)).answers
  refine ⟨create_eq (-5), list_eq (-5), hregular, fun hexact => ?_⟩
  have hfound := (found_of_answers hanswers).symm.trans (found_of_answers hexact)
  revert hfound
  simp [stamp, Stamp.state]

theorem answers_as_map_touched :
    ResultCache.create (disk 1) "cache" 0 = .ok (cache, disk 1) ∧
      (disk 1).list "cache" = .ok [] ∧ Regular "cache" (use 1 3).past ∧
      SinceEpoch (use 1 3).past ∧ ShownApart (use 1 3).past ∧ AnswersAs id (use 1 3).past ∧
      KeepsStamps "cache" (use 1 3).disk (use 1 3).past ∧
      (use 1 3).past.map Moment.found =
        [none, some [finding], none, none, none, none, none, none] := by
  have hkeys : (stamp 1).state.key ≠ (stamp 3).state.key := by decide +kernel
  have hregular : Regular "cache" (use 1 3).past :=
    regular (by decide) (by decide) fun hkey => absurd hkey hkeys
  have hepoch : SinceEpoch (use 1 3).past := by
    intro m hm s hs
    rcases stamp_of_mem hm hs with rfl | rfl <;> decide
  have hshown : ShownApart (use 1 3).past := by
    intro m hm m' hm' s hs s' hs' _
    rcases stamp_of_mem hm hs with rfl | rfl <;> rcases stamp_of_mem hm' hs' with rfl | rfl <;> rfl
  obtain ⟨_, hexact, hkeeps⟩ := answers_as_map (create_eq 1) (list_eq 1) (acts 1 3) hregular
  refine ⟨create_eq 1, list_eq 1, hregular, hepoch, hshown, hexact hepoch hshown, hkeeps, ?_⟩
  rw [found_of_answers (hexact hepoch hshown)]
  simp [stamp]

end Touched

end Coupling.Cache
