import Coupling.Proofs.Cache.Sound
import Coupling.Proofs.Walk.Events

/-!
# Batches one after the other

Batches with different settings share a directory of results. Between two of them the sources may
change in any way, but the results may not. Then every batch reports what it would report without a
cache: a result that another batch left, under other limits, for an older content or for another
path, is never taken for the present one.
-/

namespace Coupling

/-! ### A batch on sound results -/

namespace Batch

theorem isName_directoryName (l : Limits) : Disk.IsName (directoryName l) := by
  have hslash : '/' ∉ (directoryName l).toList := by
    simp only [directoryName, limitsDigest, String.toList_append, String.toList_ofList,
      List.mem_append, not_or]
    refine ⟨by decide, fun h => ?_⟩
    exact Digest.slash_notMem_hex _ (List.mem_of_mem_take h)
  refine Disk.isName_ofText ?_ hslash
  simp only [directoryName, String.toList_append, List.length_append]
  exact Nat.le_add_right_of_le (by decide)

/-- Directories with one name are for limits with one digest. -/
theorem limitsDigest_of_directoryName {l l' : Limits} (h : directoryName l = directoryName l') :
    limitsDigest l = limitsDigest l' := by
  have hlist := congrArg String.toList h
  simp only [directoryName, String.toList_append] at hlist
  exact String.toList_injective (List.append_cancel_left hlist)

end Batch

namespace Site

variable {S : Site} {all : List Visit} {d d' : Disk} {watcher : Progress → Bool} {total : ℕ}

/-- Valid settings, with results kept in the directory of the site if at all. -/
structure Accepts (S : Site) (b : Batch) : Prop where
  valid : b.settings.issues = []
  root_eq : b.settings.cache.enabled = true →
    Disk.destination S.workDir (Cache.resolveDir b.environment b.settings.cache) = S.root

theorem Sound.of_sameFiles (hd : S.Sound all d) (h : d.SameFiles d') : S.Sound all d' :=
  ⟨h.workDir_eq.trans hd.workDir_eq, fun hfile => hd.source (h.file_iff.mp hfile),
    fun hfile => hd.result (h.file_iff.mp hfile)⟩

theorem Accepts.destination_directory {b : Batch} (hb : S.Accepts b) {directory : Path}
    (h : b.cacheDirectory? = some directory) :
    Disk.destination S.workDir directory =
      S.root ++ [.ofText (Batch.directoryName b.settings.limits)] := by
  unfold Batch.cacheDirectory? at h
  split at h
  · rename_i henabled
    rw [← Option.some.inj h, Disk.destination_join (Batch.isName_directoryName _),
      hb.root_eq henabled]
  · simp at h

/-- A batch starts with an empty memory, if it has a cache, and touches no file. -/
theorem Accepts.worker {b : Batch} (hb : S.Accepts b) (d : Disk) :
    d.SameFiles (b.worker d).2 ∧ ∀ c, (b.worker d).1.cache = some c →
      Disk.destination S.workDir c.directory =
        S.root ++ [.ofText (Batch.directoryName b.settings.limits)] ∧ c.memory = ∅ := by
  unfold Batch.worker
  split
  · exact ⟨.refl d, fun _ hcache => by simp at hcache⟩
  · rename_i directory hdirectory
    split
    · exact ⟨.refl d, fun _ hcache => by simp at hcache⟩
    · rename_i cache d' hcreate
      rw [ResultCache.create] at hcreate
      cases hmake : d.makeDirectories directory with
      | error e => simp [hmake, Except.map] at hcreate
      | ok made =>
        simp only [hmake, Except.map, Except.ok.injEq, Prod.mk.injEq] at hcreate
        obtain ⟨rfl, rfl⟩ := hcreate
        refine ⟨Disk.makeDirectories_sameFiles hmake, fun c hcache => ?_⟩
        obtain rfl := Option.some.inj hcache
        exact ⟨hb.destination_directory hdirectory, rfl⟩

/-- A run touches results only. -/
theorem spares_run {r : Batch.Run} (hd : r.disk.workDir = S.workDir)
    (hw : ∀ c, r.worker.cache = some c → S.Houses c) (files : List Path) :
    S.Spares r.disk (files.foldl (Batch.Run.advance watcher total) r).disk ∧
      ∀ v ∈ r.visits watcher total files, S.Spares r.disk v.disk := by
  obtain ⟨⟨hend, _⟩, hvisits⟩ := Batch.Run.invariant
    (P := fun w d => S.Spares r.disk d ∧ ∀ c, w.cache = some c → S.Houses c)
    (fun w d path _ ⟨hspares, hhouses⟩ => by
      obtain ⟨hnext, hhouses'⟩ :=
        Worker.analyze_spares (hspares.workDir_eq.trans hd) hhouses path
      exact ⟨hspares.trans hnext, hhouses'⟩)
    ⟨.refl S r.disk, hw⟩ (List.Subset.refl (r.visits watcher total files))
  refine ⟨hend, fun v hv => ?_⟩
  obtain ⟨_, ⟨hspares, _⟩, _⟩ := hvisits v hv
  exact hspares

/-- A run on sound results: each file is reported as without a cache. -/
theorem Sound.run (happart : S.ToldApart all) {r : Batch.Run} (hd : S.Sound all r.disk)
    (hw : S.Trusts all r.worker) {files : List Path}
    (hall : r.visits watcher total files ⊆ all) :
    S.Sound all (files.foldl (Batch.Run.advance watcher total) r).disk ∧
      ∀ v ∈ r.visits watcher total files,
        { v.outcome with hit := none } = (r.worker.uncached.analyze v.disk v.path).1 := by
  obtain ⟨⟨hend, _⟩, hvisits⟩ := Batch.Run.invariant
    (P := fun w d => S.Sound all d ∧ S.Trusts all w ∧ w.limits = r.worker.limits)
    (fun w d path hvisit ⟨hsound, htrusts, hlimits⟩ => by
      obtain ⟨_, hsound', htrusts'⟩ := Worker.analyze_sound happart hsound htrusts hvisit
      exact ⟨hsound', htrusts', (w.limits_analyze d path).trans hlimits⟩)
    ⟨hd, hw, rfl⟩ hall
  refine ⟨hend, fun v hv => ?_⟩
  obtain ⟨w, ⟨hsound, htrusts, hlimits⟩, hvisit⟩ := hvisits v hv
  have houtcome := (Worker.analyze_sound happart hsound htrusts (hvisit ▸ hall hv)).1
  rw [Worker.uncached, hlimits] at houtcome
  rw [hvisit]
  exact houtcome

end Site

/-! ### Histories -/

/-- A batch with the disk as it finds it. -/
structure Round where
  disk : Disk
  batch : Batch
  files : List Path

namespace Round

def ended (r : Round) : Batch.Ended := r.batch.runSequential r.disk r.files

def visits (r : Round) : List Visit := r.batch.visits r.disk r.files

theorem exists_worker_of_mem_visits {r : Round} {v : Visit} (hv : v ∈ r.visits) :
    ∃ w : Worker, w.limits = r.batch.settings.limits ∧ v = w.visit v.disk v.path := by
  obtain ⟨w, hlimits, hvisit⟩ := Batch.Run.exists_worker_of_mem_visits hv
  exact ⟨w, hlimits.trans (r.batch.limits_worker r.disk), hvisit⟩

theorem limits_of_mem_visits {r : Round} {v : Visit} (hv : v ∈ r.visits) :
    v.limits = r.batch.settings.limits := by
  obtain ⟨w, hlimits, hvisit⟩ := exists_worker_of_mem_visits hv
  rw [hvisit]
  exact hlimits

end Round

/-- Digests of files and of limits that a cache was asked about differ if what is digested does. -/
structure DigestsDiffer (visits : List Visit) : Prop where
  key : ∀ v ∈ visits, ∀ v' ∈ visits, ∀ s ∈ v.state?, ∀ s' ∈ v'.state?, s.key = s'.key →
    s.canonical = s'.canonical
  limits : ∀ v ∈ visits, ∀ v' ∈ visits, v.state?.isSome → v'.state?.isSome →
    Batch.limitsDigest v.limits = Batch.limitsDigest v'.limits →
    Batch.limitsText v.limits = Batch.limitsText v'.limits

namespace Site

/-- No path has a zero byte, and paths that are shown alike are all sources or all results. -/
structure ShowsPaths (S : Site) (visits : List Visit) : Prop where
  zero_notMem : ∀ v ∈ visits, 0 ∉ v.path.bytes
  sameSide : ∀ v ∈ visits, ∀ v' ∈ visits, v.path.text = v'.path.text → S.SameSide v.path v'.path

/-- Paths that are texts are what they are shown as. -/
theorem showsPaths_of_texts {S : Site} {visits : List Visit}
    (h : ∀ v ∈ visits, ∃ s : String, '\x00' ∉ s.toList ∧ v.path = s) : S.ShowsPaths visits where
  zero_notMem v hv := by
    obtain ⟨s, hs, heq⟩ := h v hv
    rw [heq]
    exact Text.zero_notMem_encode hs
  sameSide v hv v' hv' htext := by
    obtain ⟨s, _, heq⟩ := h v hv
    obtain ⟨s', _, heq'⟩ := h v' hv'
    rw [heq, heq', Path.text_ofText, Path.text_ofText] at htext
    rw [heq, heq', htext]
    exact Iff.rfl

end Site

theorem DigestsDiffer.toldApart {S : Site} {visits : List Visit}
    (hdigests : DigestsDiffer visits) (hpaths : S.ShowsPaths visits)
    (hentries : ∀ v ∈ visits, v.IsKept → Cache.Entry.ofBytes? v.entry.toBytes = some v.entry)
    (hnumbers : ∀ v ∈ visits, Settings.numberIssues v.limits = []) : S.ToldApart visits where
  file v hv v' hv' s hs s' hs' hkey := by
    have hpath := Visit.path_of_state? hs
    have hpath' := Visit.path_of_state? hs'
    obtain ⟨htext, hbytes⟩ := Cache.FileState.canonical_injective
      (hpath ▸ hpaths.zero_notMem v hv) (hpath' ▸ hpaths.zero_notMem v' hv')
      (hdigests.key v hv v' hv' s hs s' hs' hkey)
    refine ⟨htext, hbytes, ?_⟩
    rw [hpath, hpath'] at htext ⊢
    exact hpaths.sameSide v hv v' hv' htext
  limits_eq v hv v' hv' hs hs' hname :=
    Settings.eq_of_compress_eq (hnumbers v hv) (hnumbers v' hv')
      (Text.encode_injective (hdigests.limits v hv v' hv' hs hs'
        (Batch.limitsDigest_of_directoryName hname)))
  entry_eq := hentries

namespace Site

/-- Changes between two batches: sources may change in any way, results may only go. -/
structure Edited (S : Site) (d d' : Disk) : Prop where
  workDir_eq : d'.workDir = S.workDir
  source : ∀ {here doc modified}, d'.node? here = some (.file doc modified) → ¬ S.Inside here →
    doc.tree = S.grammar doc.bytes
  result : ∀ {here doc modified}, d'.node? here = some (.file doc modified) → S.Inside here →
    ∃ modified', d.node? here = some (.file doc modified')

/-- Batches one after the other on a disk that is edited before each. -/
inductive History (S : Site) : Disk → List Round → Prop
  | nil (d : Disk) : History S d []
  | cons {d : Disk} {r : Round} {rounds : List Round} (hedited : S.Edited d r.disk)
    (haccepts : S.Accepts r.batch) (hrest : History S r.ended.disk rounds) :
    History S d (r :: rounds)

variable {S : Site} {all : List Visit} {d : Disk} {rounds : List Round}

theorem History.of_mem (h : S.History d rounds) {r : Round} (hr : r ∈ rounds) :
    S.Accepts r.batch ∧ r.disk.workDir = S.workDir := by
  induction h with
  | nil => simp at hr
  | cons hedited haccepts _ ih =>
    rcases List.mem_cons.mp hr with rfl | hr
    · exact ⟨haccepts, hedited.workDir_eq⟩
    · exact ih hr

/-- A batch touches results only. -/
theorem Accepts.spares {r : Round} (haccepts : S.Accepts r.batch)
    (hd : r.disk.workDir = S.workDir) :
    S.Spares r.disk r.ended.disk ∧ ∀ v ∈ r.visits, S.Spares r.disk v.disk := by
  obtain ⟨hsame, hcache⟩ := haccepts.worker r.disk
  have hstart : S.Spares r.disk (r.batch.begin r.disk).disk := .of_sameFiles hsame
  obtain ⟨hend, hvisits⟩ := spares_run (r := r.batch.begin r.disk)
    (hstart.workDir_eq.trans hd) (fun c hc => ⟨_, (hcache c hc).1⟩) r.files
  exact ⟨hstart.trans hend, fun v hv => hstart.trans (hvisits v hv)⟩

theorem Sound.round (happart : S.ToldApart all) {r : Round} (hd : S.Sound all r.disk)
    (haccepts : S.Accepts r.batch) (hall : r.visits ⊆ all) :
    S.Sound all r.ended.disk ∧ ∀ v ∈ r.visits, { v.outcome with hit := none } =
      (({ limits := r.batch.settings.limits } : Worker).analyze v.disk v.path).1 := by
  obtain ⟨hsame, hcache⟩ := haccepts.worker r.disk
  have htrusts : S.Trusts all (r.batch.begin r.disk).worker := by
    intro c hc
    obtain ⟨hdirectory, hmemory⟩ := hcache c hc
    refine ⟨by rw [hdirectory, Batch.begin, Batch.limits_worker], fun hmem => ?_⟩
    simp [hmemory] at hmem
  obtain ⟨hend, hvisits⟩ := Sound.run (r := r.batch.begin r.disk) happart
    (hd.of_sameFiles hsame) htrusts hall
  refine ⟨hend, fun v hv => ?_⟩
  rw [hvisits v hv, Worker.uncached, Batch.begin, Batch.limits_worker]

/-- Through a history all results stay right. -/
theorem History.sound (happart : S.ToldApart all) (h : S.History d rounds)
    (hresult : ∀ {here doc modified}, d.node? here = some (.file doc modified) → S.Inside here →
      ∃ v ∈ all, S.Holds v here doc)
    (hall : rounds.flatMap Round.visits ⊆ all) :
    ∀ r ∈ rounds, ∀ v ∈ r.visits, { v.outcome with hit := none } =
      (({ limits := r.batch.settings.limits } : Worker).analyze v.disk v.path).1 := by
  induction h with
  | nil => simp
  | @cons d r rounds hedited haccepts _ ih =>
    have hsound : S.Sound all r.disk := ⟨hedited.workDir_eq, hedited.source, fun hfile hinside => by
      obtain ⟨modified, hbefore⟩ := hedited.result hfile hinside
      exact hresult hbefore hinside⟩
    rw [List.flatMap_cons] at hall
    obtain ⟨hend, hvisits⟩ := hsound.round happart haccepts
      fun v hv => hall (List.mem_append_left _ hv)
    intro r' hr'
    rcases List.mem_cons.mp hr' with rfl | hr'
    · exact hvisits
    · exact ih hend.result (fun v hv => hall (List.mem_append_right _ hv)) r' hr'

/-- Caches are transparent. Of every batch in a history, each outcome is that of a file it takes up,
and but for the mark of a hit it is the outcome of the batch without a cache for that path on the
disk at that moment, whose sources are those that the batch found. -/
theorem cache_transparent (hhistory : S.History d rounds)
    (hempty : ∀ here doc modified, S.Inside here → d.node? here ≠ some (.file doc modified))
    (hdigests : DigestsDiffer (rounds.flatMap Round.visits))
    (hpaths : S.ShowsPaths (rounds.flatMap Round.visits))
    (hentries : ∀ v ∈ rounds.flatMap Round.visits, v.IsKept →
      Cache.Entry.ofBytes? v.entry.toBytes = some v.entry) :
    ∀ r ∈ rounds, r.ended.report.outcomes = r.visits.map Visit.outcome ∧
      r.visits.map Visit.path <+: r.files ∧
      ∀ v ∈ r.visits, S.Spares r.disk v.disk ∧
        (r.batch.uncached.runSequential v.disk [v.path]).report.outcomes =
          [{ v.outcome with hit := none }] := by
  have hnumbers : ∀ v ∈ rounds.flatMap Round.visits, Settings.numberIssues v.limits = [] := by
    intro v hv
    obtain ⟨r, hr, hvisit⟩ := List.mem_flatMap.mp hv
    rw [Round.limits_of_mem_visits hvisit]
    exact Settings.numberIssues_of_valid (hhistory.of_mem hr).1.valid
  have happart := hdigests.toldApart hpaths hentries hnumbers
  intro r hr
  refine ⟨Batch.outcomes_runSequential _ _ _, Batch.Run.paths_visits_prefix _ _,
    fun v hv => ⟨?_, ?_⟩⟩
  · obtain ⟨haccepts, hworkDir⟩ := hhistory.of_mem hr
    exact (haccepts.spares hworkDir).2 v hv
  · have hnone : ∀ {here doc modified}, d.node? here = some (.file doc modified) →
        S.Inside here → ∃ v ∈ rounds.flatMap Round.visits, S.Holds v here doc :=
      fun hfile hinside => absurd hfile (hempty _ _ _ hinside)
    rw [Batch.outcomes_uncached,
      hhistory.sound happart hnone (List.Subset.refl _) r hr v hv]

/-! ### A note that is edited between two batches -/

namespace Note

open Syntax (Document)

def work : Location := ["work"]

def results : Location := ["work", "results"]

def place : Location := ["work", "note.py"]

def path : Path := "note.py"

/-- A call with two arguments. -/
def tree : Syntax.Tree :=
  .span (.other "module") none 0 7
    [.span .call none 0 6
      [.span .identifier (some .function) 0 1 [],
       .span .argumentList (some .arguments) 1 6
         [.span .identifier none 2 3 [], .span .identifier none 4 5 []]]]

def site : Site := ⟨work, results, fun _ => some tree⟩

/-- The call of a function with a name of one letter. -/
def document (name : UInt8) : Document := ⟨[name, 0x28, 0x61, 0x2c, 0x62, 0x29, 0x0a], some tree⟩

def file (name : UInt8) (modified : ℤ) : DiskNode := .file (document name) modified

def disk : Disk := ((⟨work, ∅⟩ : Disk).put work .directory).put place (file 0x66 1)

/-- Limits that allow so many arguments and no literals. -/
def limits (maxCallArgs : Nat) : Limits where
  maxCallArgs := maxCallArgs
  allowedNumbers := []
  allowedStrings := []
  securityKeywords := ["key"]

def batch (maxCallArgs : Nat) : Batch where
  settings := { limits := limits maxCallArgs, cache := { directory := some "results" } }
  environment := { home := "/home" }

def first : Round := ⟨disk, batch 1, [path, path]⟩

def second : Round := ⟨first.ended.disk.put place (file 0x67 2), batch 5, [path]⟩

/-- What is found in the note while one argument is allowed. -/
def finding (id path : String) : Finding where
  id := id
  kind := .position
  severity := .medium
  path := path
  place := ⟨1, 0⟩
  description := "Function call with 2 positional arguments (>1)"
  recommendation := "Use keyword arguments for better readability and maintainability"
  weight := 1.0
  context := [("argument_count", .int 2), ("function_name", .str "f"),
    ("issue_type", .str "excessive_call_args")]

/-! What is found is evaluated, and so is what an entry is read as. -/

theorem analyze_first :
    (document 0x66).analyze (limits 1) path.text = .ok [finding "dfb38ceb4282" "note.py"] := by
  decide +kernel

theorem analyze_second : (document 0x67).analyze (limits 5) path.text = .ok [] := by
  decide +kernel

theorem entry_reads_back :
    ∀ findings ∈ [[finding "dfb38ceb4282" "note.py"], []],
      Cache.Entry.ofBytes? (Cache.Entry.mk "note.py" findings).toBytes =
        some ⟨"note.py", findings⟩ := by
  simp only [Cache.Entry.toBytes, Json.compress, Text.encode_ofList]
  decide +kernel

theorem limitsDigest_ne : Batch.limitsDigest (limits 1) ≠ Batch.limitsDigest (limits 5) := by
  simp only [Batch.limitsDigest, Batch.limitsText, Json.compress, Text.encode_ofList]
  decide +kernel

def stateFirst : Cache.FileState := ⟨path, (document 0x66).bytes, 1, 7⟩

def stateSecond : Cache.FileState := ⟨path, (document 0x67).bytes, 2, 7⟩

theorem key_ne : stateFirst.key ≠ stateSecond.key := by
  decide +kernel

theorem eq_of_disk {here : Location} {doc : Document} {modified : ℤ}
    (h : disk.node? here = some (.file doc modified)) :
    here = place ∧ DiskNode.file doc modified = file 0x66 1 := by
  rw [disk, Disk.node?_put _ (by decide), Disk.node?_put _ (by decide)] at h
  split at h
  · rename_i hplace
    exact ⟨hplace, (Option.some.inj h).symm⟩
  · split at h
    · simp at h
    · unfold Disk.node? at h
      split at h <;> simp at h

theorem accepts_batch {maxCallArgs : Nat} (h : maxCallArgs ∈ [1, 5]) :
    site.Accepts (batch maxCallArgs) := by
  have hvalid : ∀ n ∈ [1, 5], (batch n).settings.issues = [] := by decide +kernel
  have hroot : Disk.destination work "results" = results := by decide +kernel
  exact ⟨hvalid maxCallArgs h, fun _ => hroot⟩

theorem source_place : ¬ site.Inside place := by decide

theorem edited_disk : site.Edited disk disk where
  workDir_eq := rfl
  source h _ := by
    obtain ⟨_, hfile⟩ := eq_of_disk h
    obtain ⟨rfl, _⟩ := DiskNode.file.inj hfile
    rfl
  result h _ := ⟨_, h⟩

theorem spares_first : site.Spares disk first.ended.disk :=
  ((accepts_batch (by decide)).spares (r := first) rfl).1

theorem edited_put {d : Disk} (hd : site.Spares disk d) :
    site.Edited d (d.put place (file 0x67 2)) where
  workDir_eq := hd.workDir_eq
  source {here doc modified} h hhere := by
    rw [Disk.node?_put _ (by decide)] at h
    split at h
    · obtain ⟨rfl, _⟩ := DiskNode.file.inj (Option.some.inj h)
      rfl
    · exact edited_disk.source ((hd.file_iff hhere).mp h) hhere
  result {here doc modified} h hhere := by
    have hne : here ≠ place := fun heq => source_place (heq ▸ hhere)
    rw [Disk.node?_put _ (by decide), if_neg hne] at h
    exact ⟨modified, h⟩

theorem history : site.History disk [first, second] :=
  .cons edited_disk (accepts_batch (by decide))
    (.cons (edited_put spares_first) (accepts_batch (by decide)) (.nil _))

/-- The visits of a batch on the note. -/
theorem facts_of_mem_visits {files : List Path} {d : Disk} {n : Nat} (hn : n ∈ [1, 5])
    (hd : d.workDir = work) (hfiles : ∀ other ∈ files, other = path) {name : UInt8}
    {modified : ℤ} (hnode : d.node? place = some (file name modified)) {findings : List Finding}
    (hfindings : (document name).analyze (limits n) path.text = .ok findings) :
    ∀ v ∈ (⟨d, batch n, files⟩ : Round).visits, v.limits = limits n ∧ v.path = path ∧
      (∀ s ∈ v.state?, s = ⟨path, (document name).bytes, modified.toNat, 7⟩) ∧
      (v.IsKept → v.entry = ⟨path.text, findings⟩) := by
  intro v hv
  have hpath : v.path = path :=
    hfiles _ ((Batch.Run.paths_visits_prefix _ _).subset (List.mem_map_of_mem hv))
  have hspares := ((accepts_batch hn).spares (r := ⟨d, batch n, files⟩) hd).2 v hv
  have hplace : v.disk.node? (Disk.destination v.disk.workDir v.path) =
      some (file name modified) := by
    have hdestination : Disk.destination work path = place := by decide +kernel
    have hworkDir : v.disk.workDir = work := hspares.workDir_eq.trans hd
    rw [hworkDir, hpath, hdestination]
    exact (hspares.file_iff source_place).mpr hnode
  refine ⟨Round.limits_of_mem_visits hv, hpath, fun s hs => ?_, fun hkept => ?_⟩
  · rw [Visit.state_eq hplace hs, hpath]
    rfl
  · obtain ⟨w, hlimits, hvisit⟩ := Round.exists_worker_of_mem_visits hv
    have hmiss : (w.analyze v.disk v.path).1.hit = some false := by
      rw [hvisit] at hkept
      exact hkept.1
    obtain ⟨doc, hread, hanalyze⟩ := Worker.analyze_of_miss hmiss
    obtain ⟨modified', _, hnode'⟩ := Disk.read_eq_ok hread
    rw [hplace, Option.some.injEq] at hnode'
    obtain ⟨rfl, _⟩ := DiskNode.file.inj hnode'
    rw [hlimits, hpath] at hanalyze
    have hsame : v.outcome.findings = findings := by
      rw [hvisit, hpath]
      exact Except.ok.inj (hanalyze.symm.trans hfindings)
    rw [Visit.entry, hpath, hsame]

theorem cache_transparent_note :
    site.History disk [first, second] ∧ first.batch.settings.limits ≠ second.batch.settings.limits ∧
      [first, second].map (fun r => r.visits.map Visit.path) = [[path, path], [path]] ∧
      ∀ r ∈ [first, second], r.ended.report.outcomes = r.visits.map Visit.outcome ∧
        r.visits.map Visit.path <+: r.files ∧
        ∀ v ∈ r.visits, site.Spares r.disk v.disk ∧
          (r.batch.uncached.runSequential v.disk [v.path]).report.outcomes =
            [{ v.outcome with hit := none }] := by
  have hnode : disk.node? place = some (file 0x66 1) := by
    rw [disk, Disk.node?_put _ (by decide), if_pos rfl]
  have hnode' : second.disk.node? place = some (file 0x67 2) := by
    rw [second, Disk.node?_put _ (by decide), if_pos rfl]
  have hvisits : ∀ v ∈ [first, second].flatMap Round.visits,
      v.path = path ∧ (v.limits = limits 1 ∨ v.limits = limits 5) ∧
        (∀ s ∈ v.state?, s = stateFirst ∨ s = stateSecond) ∧
        (v.IsKept → ∃ findings ∈ [[finding "dfb38ceb4282" "note.py"], []],
          v.entry = ⟨path.text, findings⟩) := by
    intro v hv
    rw [List.flatMap_cons, List.flatMap_cons, List.flatMap_nil, List.append_nil,
      List.mem_append] at hv
    rcases hv with hv | hv
    · obtain ⟨hlimits, hpath, hstate, hentry⟩ := facts_of_mem_visits (by decide) rfl (by simp)
        hnode analyze_first v hv
      exact ⟨hpath, .inl hlimits, fun s hs => .inl (hstate s hs),
        fun hkept => ⟨_, List.mem_cons_self, hentry hkept⟩⟩
    · obtain ⟨hlimits, hpath, hstate, hentry⟩ := facts_of_mem_visits (by decide)
        (edited_put spares_first).workDir_eq (by simp) hnode' analyze_second v hv
      exact ⟨hpath, .inr hlimits, fun s hs => .inr (hstate s hs),
        fun hkept => ⟨_, List.mem_cons_of_mem _ List.mem_cons_self, hentry hkept⟩⟩
  have hpaths : ∀ d n files, ((⟨d, batch n, files⟩ : Round).visits).map Visit.path = files :=
    fun d n files => Batch.Run.paths_visits_of_unwatched (fun _ => rfl) rfl files
  have hlimits : limits 1 ≠ limits 5 := fun h => limitsDigest_ne (congrArg Batch.limitsDigest h)
  refine ⟨history, hlimits, ?_, cache_transparent history ?_ ⟨?_, ?_⟩ ?_ ?_⟩
  · rw [List.map_cons, List.map_cons, List.map_nil, first, second, hpaths, hpaths]
  · intro here doc modified hinside hfile
    exact source_place ((eq_of_disk hfile).1 ▸ hinside)
  · intro v hv v' hv' s hs s' hs' hkey
    rcases (hvisits v hv).2.2.1 s hs with rfl | rfl <;>
      rcases (hvisits v' hv').2.2.1 s' hs' with rfl | rfl
    · rfl
    · exact absurd hkey key_ne
    · exact absurd hkey.symm key_ne
    · rfl
  · intro v hv v' hv' _ _ hdigest
    rcases (hvisits v hv).2.1 with h | h <;> rcases (hvisits v' hv').2.1 with h' | h' <;>
      rw [h, h'] at hdigest ⊢
    · exact absurd hdigest limitsDigest_ne
    · exact absurd hdigest.symm limitsDigest_ne
  · exact showsPaths_of_texts fun v hv => ⟨"note.py", by decide, (hvisits v hv).1⟩
  · intro v hv hkept
    obtain ⟨findings, hfindings, hentry⟩ := (hvisits v hv).2.2.2 hkept
    rw [hentry, path, Path.text_ofText]
    exact entry_reads_back findings hfindings

end Note

end Site

end Coupling
