import Coupling.Proofs.Batch.Visits
import Coupling.Proofs.Cache.Frame
import Coupling.Proofs.Settings.Encoding

/-!
# Results that answer right

Workers with different limits keep their results below one directory, and find there what others
left. A result is right if an analysis would find the same. Every result in the directory and in the
memory of a worker is right, and this stays so with each file that a worker takes up, as long as the
digests of the files it meets do not collide.
-/

namespace Coupling

namespace Visit

/-- The state of the file, if a cache was asked about it. -/
def state? (v : Visit) : Option Cache.FileState :=
  match v.disk.read v.path with
  | .error _ => none
  | .ok doc =>
    if v.outcome.hit.isSome then Cache.FileState.ofDisk? v.disk v.path doc.bytes else none

/-- The entry that a cache keeps of a file. -/
def entry (v : Visit) : Cache.Entry := ⟨v.path.text, v.outcome.findings⟩

/-- The cache did not know the file, and its result is kept. -/
def IsKept (v : Visit) : Prop :=
  v.outcome.hit = some false ∧ v.outcome.findings.any (·.kind == .processingError) = false

theorem path_of_state? {v : Visit} {s : Cache.FileState} (h : v.state? = some s) :
    s.path = v.path := by
  unfold state? at h
  split at h
  · simp at h
  · split at h
    · rw [Cache.FileState.ofDisk?, Option.map_eq_some_iff] at h
      obtain ⟨node, _, rfl⟩ := h
      rfl
    · simp at h

end Visit

namespace Site

variable (S : Site)

/-- The tree of a file; results are no sources and have none. -/
def tree (here : Location) (bytes : Text.Bytes) : Option Syntax.Tree :=
  if S.Inside here then none else S.grammar bytes

/-- What an analysis finds in some bytes at a path. -/
def analysis (l : Limits) (path : Path) (bytes : Text.Bytes) : Except Fault (List Finding) :=
  (⟨bytes, S.tree (Disk.destination S.workDir path) bytes⟩ : Syntax.Document).analyze l path.text

/-- Paths that are both sources or both results. -/
def SameSide (path path' : Path) : Prop :=
  S.Inside (Disk.destination S.workDir path) ↔ S.Inside (Disk.destination S.workDir path')

/-- Files that have the same content and are shown alike. -/
structure Alike (s t : Cache.FileState) : Prop where
  text_eq : s.path.text = t.path.text
  bytes_eq : s.bytes = t.bytes
  sameSide : S.SameSide s.path t.path

variable {S} in
/-- An analysis knows a path by its text. -/
theorem Alike.analysis_eq {s t : Cache.FileState} (h : S.Alike s t) (l : Limits) :
    S.analysis l s.path s.bytes = S.analysis l t.path t.bytes := by
  have htree : S.tree (Disk.destination S.workDir s.path) s.bytes =
      S.tree (Disk.destination S.workDir t.path) t.bytes := by
    rw [tree, tree, h.bytes_eq]
    exact if_congr h.sameSide rfl rfl
  rw [analysis, analysis, htree, h.text_eq, h.bytes_eq]

/-- Files that are told apart by their keys, limits that are told apart by their directories, and
entries that are read as they were written. -/
structure ToldApart (visits : List Visit) : Prop where
  file : ∀ v ∈ visits, ∀ v' ∈ visits, ∀ s ∈ v.state?, ∀ s' ∈ v'.state?, s.key = s'.key →
    S.Alike s s'
  limits_eq : ∀ v ∈ visits, ∀ v' ∈ visits, v.state?.isSome → v'.state?.isSome →
    Batch.directoryName v.limits = Batch.directoryName v'.limits → v.limits = v'.limits
  entry_eq : ∀ v ∈ visits, v.IsKept → Cache.Entry.ofBytes? v.entry.toBytes = some v.entry

/-- The place of a result. -/
def entryLocation (l : Limits) (s : Cache.FileState) : Location :=
  S.root ++ [.ofText (Batch.directoryName l), .ofText (s.key ++ ".json")]

theorem inside_entryLocation (l : Limits) (s : Cache.FileState) : S.Inside (S.entryLocation l s) :=
  ⟨List.prefix_append _ _, by simp [entryLocation]⟩

variable {S} in
/-- The place of a result names the limits and the key. -/
theorem names_of_entryLocation {l l' : Limits} {s t : Cache.FileState}
    (h : S.entryLocation l s = S.entryLocation l' t) :
    Batch.directoryName l = Batch.directoryName l' ∧ s.key = t.key := by
  rw [entryLocation, entryLocation, List.append_cancel_left_eq] at h
  obtain ⟨hdirectory, hrest⟩ := List.cons.inj h
  have hfile := Path.ofText_inj.mp (List.cons.inj hrest).1
  exact ⟨Path.ofText_inj.mp hdirectory, String.append_left_inj _ |>.mp hfile⟩

/-- A file that holds the right result of a visit. -/
def Holds (v : Visit) (here : Location) (doc : Syntax.Document) : Prop :=
  ∃ s, v.state? = some s ∧ v.IsKept ∧ here = S.entryLocation v.limits s ∧
    doc = ⟨v.entry.toBytes, none⟩ ∧
    S.analysis v.limits s.path s.bytes = .ok v.outcome.findings

/-- Sources have their trees, and the files in the directory of results are right results. -/
structure Sound (visits : List Visit) (d : Disk) : Prop where
  workDir_eq : d.workDir = S.workDir
  source : ∀ {here doc modified}, d.node? here = some (.file doc modified) → ¬ S.Inside here →
    doc.tree = S.grammar doc.bytes
  result : ∀ {here doc modified}, d.node? here = some (.file doc modified) → S.Inside here →
    ∃ v ∈ visits, S.Holds v here doc

/-- A cache for some limits that remembers right results of visits. -/
structure Remembers (visits : List Visit) (l : Limits) (c : ResultCache) : Prop where
  directory_eq :
    Disk.destination S.workDir c.directory = S.root ++ [.ofText (Batch.directoryName l)]
  right : ∀ {key : String} {findings : List Finding}, c.memory[key]? = some findings →
    ∃ v ∈ visits, ∃ s, v.state? = some s ∧ s.key = key ∧
      S.analysis l s.path s.bytes = .ok findings

end Site

/-! ### Memory -/

theorem getElem?_foldl_erase (keys : List String) (memory : Std.TreeMap String (List Finding))
    (key : String) : (keys.foldl (·.erase ·) memory)[key]? =
      if key ∈ keys then none else memory[key]? := by
  induction keys generalizing memory with
  | nil => simp
  | cons k keys ih =>
    rw [List.foldl_cons, ih, Std.TreeMap.getElem?_erase]
    by_cases hk : key = k
    · simp [hk]
    · simp [hk, Ne.symm hk]

theorem ResultCache.mem_remember {c : ResultCache} {key key' : String}
    {findings findings' : List Finding}
    (h : (c.remember key findings).memory[key']? = some findings') :
    key' = key ∧ findings' = findings ∨ key' ≠ key ∧ c.memory[key']? = some findings' := by
  have hinsert : (c.memory.insert key findings)[key']? = some findings' := by
    simp only [remember] at h
    split at h
    · exact h
    · rw [getElem?_foldl_erase] at h
      exact (Option.ite_none_left_eq_some.mp h).2
  rw [Std.TreeMap.getElem?_insert] at hinsert
  split at hinsert
  · rename_i heq
    exact .inl ⟨(Std.LawfulEqCmp.eq_of_compare heq).symm, (Option.some.inj hinsert).symm⟩
  · rename_i hne
    exact .inr ⟨fun heq => hne (by simp [heq]), hinsert⟩

/-! ### Asking and keeping -/

namespace Site

variable {S : Site} {visits : List Visit} {l : Limits} {c : ResultCache} {d : Disk}
  {path : Path} {bytes : Text.Bytes}

theorem Remembers.destination_entryPath (hc : S.Remembers visits l c) (s : Cache.FileState) :
    Disk.destination S.workDir (c.entryPath s.key) = S.entryLocation l s := by
  rw [ResultCache.entryPath, Disk.destination_join s.isName_key, hc.directory_eq, entryLocation,
    List.append_assoc]
  rfl

theorem Remembers.remember (hc : S.Remembers visits l c) {v : Visit} (hv : v ∈ visits)
    {s : Cache.FileState} (hs : v.state? = some s) {findings : List Finding}
    (hright : S.analysis l s.path s.bytes = .ok findings) :
    S.Remembers visits l (c.remember s.key findings) := by
  refine ⟨by rw [ResultCache.directory_remember, hc.directory_eq], fun hmem => ?_⟩
  rcases ResultCache.mem_remember hmem with ⟨rfl, rfl⟩ | ⟨_, hmem⟩
  · exact ⟨v, hv, s, hs, rfl, hright⟩
  · exact hc.right hmem

/-- What is read at the place of a result is the entry of a visit with that key. -/
theorem Sound.entry_of_read (hd : S.Sound visits d) (hc : S.Remembers visits l c)
    (happart : S.ToldApart visits) {s : Cache.FileState} {doc : Syntax.Document}
    (hread : d.read (c.entryPath s.key) = .ok doc) :
    ∃ v ∈ visits, ∃ t, v.state? = some t ∧ t.key = s.key ∧
      Batch.directoryName v.limits = Batch.directoryName l ∧
      Cache.Entry.ofBytes? doc.bytes = some ⟨t.path.text, v.outcome.findings⟩ ∧
      S.analysis v.limits t.path t.bytes = .ok v.outcome.findings := by
  obtain ⟨modified, _, hnode⟩ := Disk.read_eq_ok hread
  rw [hd.workDir_eq, hc.destination_entryPath] at hnode
  obtain ⟨v, hv, t, ht, hkept, hplace, hdoc, hright⟩ :=
    hd.result hnode (S.inside_entryLocation l s)
  obtain ⟨hdirectory, hkey⟩ := names_of_entryLocation hplace
  have hentry : Cache.Entry.ofBytes? doc.bytes = some ⟨t.path.text, v.outcome.findings⟩ := by
    rw [hdoc, happart.entry_eq v hv hkept, Visit.path_of_state? ht]
    rfl
  exact ⟨v, hv, t, ht, hkey.symm, hdirectory.symm, hentry, hright⟩

theorem Sound.stored_ne_damaged (hd : S.Sound visits d) (hc : S.Remembers visits l c)
    (happart : S.ToldApart visits) {s : Cache.FileState} (path : Path)
    (hdamaged : c.stored d s.key path = .damaged) :
    ∃ e, d.read (c.entryPath s.key) = .error e := by
  cases hread : d.read (c.entryPath s.key) with
  | error e => exact ⟨e, rfl⟩
  | ok doc =>
    obtain ⟨v, _, t, _, _, _, hentry, _⟩ := hd.entry_of_read hc happart hread
    unfold ResultCache.stored at hdamaged
    simp only [hread, hentry] at hdamaged
    split at hdamaged <;> simp at hdamaged

theorem Sound.right_of_stored (hd : S.Sound visits d) (hc : S.Remembers visits l c)
    (happart : S.ToldApart visits) {v : Visit} (hv : v ∈ visits) (hl : v.limits = l)
    {s : Cache.FileState} (hs : v.state? = some s) {findings : List Finding}
    (hfound : c.stored d s.key path = .found findings) :
    S.analysis l s.path s.bytes = .ok findings := by
  unfold ResultCache.stored at hfound
  cases hread : d.read (c.entryPath s.key) with
  | error e => cases e <;> simp [hread] at hfound
  | ok doc =>
    obtain ⟨v', hv', t, ht, hkey, hdirectory, hentry, hright⟩ :=
      hd.entry_of_read hc happart hread
    have hfindings : v'.outcome.findings = findings := by
      simp only [hread, hentry] at hfound
      split at hfound
      · exact ResultCache.Stored.found.inj hfound
      · simp at hfound
    have halike := happart.file v' hv' v hv t ht s hs hkey
    have hlimits : v'.limits = l := by
      rw [← hl] at hdirectory ⊢
      exact happart.limits_eq v' hv' v hv (by rw [ht]; rfl) (by rw [hs]; rfl) hdirectory
    rw [← halike.analysis_eq, ← hlimits, ← hfindings]
    exact hright

/-- A cache answers with right results only. Asking it changes nothing on the disk, and what it
remembers stays right. -/
theorem Sound.getBytes (hd : S.Sound visits d) (hc : S.Remembers visits l c)
    (happart : S.ToldApart visits) {s : Cache.FileState}
    (hs : Cache.FileState.ofDisk? d path bytes = some s)
    (hvisit : ∀ findings, (c.getBytes d path bytes).found = some findings →
      ∃ v ∈ visits, v.limits = l ∧ v.state? = some s) :
    (c.getBytes d path bytes).disk = d ∧ S.Remembers visits l (c.getBytes d path bytes).cache ∧
      ∀ findings, (c.getBytes d path bytes).found = some findings →
        S.analysis l s.path s.bytes = .ok findings := by
  simp only [ResultCache.getBytes, hs] at hvisit ⊢
  cases hmemory : c.memory[s.key]? with
  | some findings =>
    simp only [hmemory, ResultCache.hit, Option.some.injEq, forall_eq'] at hvisit ⊢
    obtain ⟨v, hv, _, hstate⟩ := hvisit
    obtain ⟨v', hv', t, ht, hkey, hright⟩ := hc.right hmemory
    have halike := happart.file v' hv' v hv t ht s hstate hkey
    exact ⟨trivial, ⟨hc.directory_eq, hc.right⟩, by rw [← halike.analysis_eq, hright]⟩
  | none =>
    simp only [hmemory] at hvisit ⊢
    cases hstored : c.stored d s.key path with
    | absent => exact ⟨rfl, ⟨hc.directory_eq, hc.right⟩, by simp [ResultCache.miss]⟩
    | damaged =>
      obtain ⟨e, hread⟩ := hd.stored_ne_damaged hc happart path hstored
      refine ⟨?_, ⟨hc.directory_eq, hc.right⟩, by simp [ResultCache.miss]⟩
      simp only [ResultCache.miss]
      rw [Disk.removeFile_of_read_error hread, Option.getD_none]
    | found findings =>
      simp only [hstored, ResultCache.hit, Option.some.injEq, forall_eq'] at hvisit ⊢
      obtain ⟨v, hv, hl, hstate⟩ := hvisit
      have hright := hd.right_of_stored hc happart hv hl hstate hstored
      have hremember := hc.remember hv hstate hright
      exact ⟨trivial, ⟨hremember.directory_eq, hremember.right⟩, hright⟩

/-- Keeping a right result keeps the results right. -/
theorem Sound.setBytes (hd : S.Sound visits d) (hc : S.Remembers visits l c) {v : Visit}
    (hv : v ∈ visits) (hl : v.limits = l) {s : Cache.FileState} (hstate : v.state? = some s)
    (hkept : v.IsKept) (hs : Cache.FileState.ofDisk? d v.path bytes = some s)
    (hright : S.analysis l s.path s.bytes = .ok v.outcome.findings) :
    S.Sound visits (c.setBytes d v.path bytes v.outcome.findings).2 ∧
      S.Remembers visits l (c.setBytes d v.path bytes v.outcome.findings).1 := by
  simp only [ResultCache.setBytes, hs]
  refine ⟨?_, hc.remember hv hstate hright⟩
  have hentry : (⟨v.path.text, v.outcome.findings⟩ : Cache.Entry) = v.entry := rfl
  rw [hentry]
  cases hwrite : d.write (c.entryPath s.key) ⟨v.entry.toBytes, none⟩ 0 with
  | error e => exact hd
  | ok d' =>
    change S.Sound visits d'
    obtain ⟨hworkDir, hnode⟩ := Disk.write_eq_ok hwrite
    rw [hd.workDir_eq, hc.destination_entryPath] at hnode
    have hcases : ∀ {here doc modified}, d'.node? here = some (.file doc modified) →
        here = S.entryLocation l s ∧ doc = ⟨v.entry.toBytes, none⟩ ∨
          d.node? here = some (.file doc modified) := by
      intro here doc modified hfile
      rw [hnode] at hfile
      split at hfile
      · rename_i hplace
        simp only [Option.some.injEq, DiskNode.file.injEq] at hfile
        exact .inl ⟨hplace, hfile.1.symm⟩
      · exact .inr hfile
    refine ⟨hworkDir.trans hd.workDir_eq, fun hfile hsource => ?_, fun hfile hinside => ?_⟩
    · rcases hcases hfile with ⟨rfl, rfl⟩ | hfile
      · exact absurd (S.inside_entryLocation l s) hsource
      · exact hd.source hfile hsource
    · rcases hcases hfile with ⟨rfl, rfl⟩ | hfile
      · refine ⟨v, hv, s, hstate, hkept, ?_, rfl, ?_⟩
        · rw [hl]
        · rw [hl, hright]
      · exact hd.result hfile hinside

/-! ### One file -/

/-- A worker whose cache, if it has one, remembers right results. -/
def Trusts (S : Site) (visits : List Visit) (w : Worker) : Prop :=
  ∀ c, w.cache = some c → S.Remembers visits w.limits c

theorem Remembers.trusts {w : Worker} (hc : S.Remembers visits w.limits c) :
    S.Trusts visits { w with cache := some c } := fun _ hcache => Option.some.inj hcache ▸ hc

theorem Sound.tree_eq (hd : S.Sound visits d) {here : Location} {doc : Syntax.Document}
    {modified : ℤ} (hnode : d.node? here = some (.file doc modified)) :
    doc.tree = S.tree here doc.bytes := by
  rw [tree]
  split
  · rename_i hinside
    obtain ⟨v, _, s, _, _, _, rfl, _⟩ := hd.result hnode hinside
    rfl
  · rename_i hsource
    exact hd.source hnode hsource

theorem Sound.analyze_eq (hd : S.Sound visits d) {doc : Syntax.Document}
    (hread : d.read path = .ok doc) (l : Limits) :
    doc.analyze l path.text = S.analysis l path doc.bytes := by
  obtain ⟨modified, _, hnode⟩ := Disk.read_eq_ok hread
  have htree := hd.tree_eq hnode
  rw [hd.workDir_eq] at htree
  rw [analysis, ← htree]

end Site

theorem Cache.FileState.ofDisk?_of_read {d : Disk} {path : Path} {doc : Syntax.Document}
    (hread : d.read path = .ok doc) :
    ∃ s, FileState.ofDisk? d path doc.bytes = some s ∧ s.path = path ∧ s.bytes = doc.bytes := by
  obtain ⟨modified, hlook, _⟩ := Disk.read_eq_ok hread
  rw [ofDisk?, hlook]
  exact ⟨_, rfl, rfl, rfl⟩

theorem Visit.state?_of_read {v : Visit} {doc : Syntax.Document}
    (hread : v.disk.read v.path = .ok doc) (hhit : v.outcome.hit.isSome = true) :
    v.state? = Cache.FileState.ofDisk? v.disk v.path doc.bytes := by
  rw [state?, hread]
  exact if_pos hhit

theorem Visit.state_eq {v : Visit} {doc : Syntax.Document} {modified : ℤ}
    (hnode : v.disk.node? (Disk.destination v.disk.workDir v.path) = some (.file doc modified))
    {s : Cache.FileState} (hs : v.state? = some s) :
    s = ⟨v.path, doc.bytes, modified.toNat, doc.bytes.length⟩ := by
  cases hread : v.disk.read v.path with
  | error e => simp [state?, hread] at hs
  | ok doc' =>
    obtain ⟨modified', hlook, hnode'⟩ := Disk.read_eq_ok hread
    rw [hnode, Option.some.injEq] at hnode'
    obtain ⟨rfl, rfl⟩ := DiskNode.file.inj hnode'
    simp only [state?, hread, Cache.FileState.ofDisk?, hlook] at hs
    split at hs
    · exact (Option.some.inj hs).symm
    · simp at hs

namespace Worker

variable {S : Site} {visits : List Visit} {w : Worker} {d : Disk} {path : Path}

theorem analyze_cached_sound (happart : S.ToldApart visits) (hd : S.Sound visits d)
    {c : ResultCache} (hcache : w.cache = some c) (hc : S.Remembers visits w.limits c)
    (hvisit : w.visit d path ∈ visits) {doc : Syntax.Document} (hread : d.read path = .ok doc) :
    { (w.analyze d path).1 with hit := none } = (w.uncached.analyze d path).1 ∧
      S.Sound visits (w.analyze d path).2.2 ∧
      S.Trusts visits (w.analyze d path).2.1 := by
  obtain ⟨s, hs, hpath, hbytes⟩ := Cache.FileState.ofDisk?_of_read hread
  have hanalysis : doc.analyze w.limits path.text = S.analysis w.limits s.path s.bytes := by
    rw [hd.analyze_eq hread, hpath, hbytes]
  have hanalyze := analyze_of_cache_some hcache hread rfl
  have hstate : (w.analyze d path).1.hit.isSome = true → (w.visit d path).state? = some s :=
    fun hhit => (Visit.state?_of_read (v := w.visit d path) hread hhit).trans hs
  obtain ⟨hdisk, hremembers, hfound⟩ := hd.getBytes hc happart hs fun findings hfound =>
    ⟨_, hvisit, rfl, hstate (by rw [hanalyze, hfound]; rfl)⟩
  -- Asking left the disk alone, so the result is kept for the state that was asked about.
  rw [w.analyze_uncached hread]
  cases hanswer : (c.getBytes d path doc.bytes).found with
  | some findings =>
    have hresult : doc.analyze w.limits path.text = .ok findings :=
      hanalysis.trans (hfound findings hanswer)
    rw [hanalyze, hanswer, hresult, hdisk]
    exact ⟨rfl, hd, hremembers.trusts⟩
  | none =>
    cases hresult : doc.analyze w.limits path.text with
    | error fault =>
      rw [hanalyze, hanswer, hresult, hdisk]
      exact ⟨rfl, hd, hremembers.trusts⟩
    | ok findings =>
      rw [hanswer, hresult, hdisk] at hanalyze
      dsimp only at hanalyze
      by_cases hfailed : findings.any (·.kind == .processingError) = true
      · rw [if_pos hfailed] at hanalyze
        rw [hanalyze]
        exact ⟨rfl, hd, hremembers.trusts⟩
      · rw [if_neg hfailed] at hanalyze
        have hkept : (w.visit d path).IsKept := by
          rw [Visit.IsKept, visit, hanalyze]
          exact ⟨rfl, by simpa using hfailed⟩
        have hright : S.analysis w.limits s.path s.bytes =
            .ok (w.visit d path).outcome.findings := by
          rw [visit, hanalyze, ← hanalysis, hresult]
        obtain ⟨hsound, hremembers'⟩ := hd.setBytes hremembers hvisit rfl
          (hstate (by rw [hanalyze]; rfl)) hkept hs hright
        rw [visit, hanalyze] at hsound hremembers'
        rw [hanalyze]
        exact ⟨rfl, hsound, hremembers'.trusts⟩

/-- A worker takes up a file: but for the mark of a hit, the outcome is that of a worker without a
cache, and all results are right again. -/
theorem analyze_sound (happart : S.ToldApart visits) (hd : S.Sound visits d)
    (hw : S.Trusts visits w) (hvisit : w.visit d path ∈ visits) :
    { (w.analyze d path).1 with hit := none } = (w.uncached.analyze d path).1 ∧
      S.Sound visits (w.analyze d path).2.2 ∧
      S.Trusts visits (w.analyze d path).2.1 := by
  cases hread : d.read path with
  | error e =>
    rw [analyze_of_read_error hread, analyze_of_read_error hread]
    exact ⟨rfl, hd, hw⟩
  | ok doc =>
    cases hcache : w.cache with
    | none =>
      rw [w.analyze_uncached hread, analyze_of_cache_none hcache hread]
      refine ⟨?_, hd, hw⟩
      cases doc.analyze w.limits path.text <;> rfl
    | some c => exact analyze_cached_sound happart hd hcache (hw c hcache) hvisit hread

end Worker

end Coupling
