import Coupling.Proofs.Batch.Stops
import Coupling.Proofs.Cache.Answers

/-!
# Batches that are repeated

As long as the files of a batch stay as they are, the answer for each of them is the same at every
moment of the batch, and at its end the directory of results has the answers for all of them. So a
second batch on these files finds every answer there, however little the memory of the first could
hold.
-/

namespace Coupling

open Cache

/-! ### Files that stay as they are -/

/-- Files that a batch is to report on, and how it finds them. -/
structure Listing where
  directory : Path
  limits : Limits
  disk : Disk
  files : List Path

namespace Listing

variable (L : Listing)

/-- No file has changed. -/
def Still (d : Disk) : Prop := ∀ path ∈ L.files, d.look path = L.disk.look path

/-- The digests of two files differ if the files do, files that are shown alike and have the same
content are parsed alike, and results that are kept can be read. -/
structure ToldApart : Prop where
  path : ∀ path ∈ L.files, 0 ∉ path.bytes
  key : ∀ path ∈ L.files, ∀ path' ∈ L.files, ∀ s ∈ Stamp.at? L.disk path,
    ∀ s' ∈ Stamp.at? L.disk path', s.state.key = s'.state.key →
      s.state.canonical = s'.state.canonical
  document : ∀ path ∈ L.files, ∀ path' ∈ L.files, path.text = path'.text →
    ∀ doc doc', L.disk.read path = .ok doc → L.disk.read path' = .ok doc' →
      doc.bytes = doc'.bytes → doc = doc'
  entry : ∀ path ∈ L.files, ∀ findings ∈ analyzed? L.limits L.disk path,
    Entry.ofBytes? (Entry.mk path.text findings).toBytes = some ⟨path.text, findings⟩

/-- The state of one of the files. -/
def Met (state : FileState) : Prop :=
  ∃ path ∈ L.files, ∃ s, Stamp.at? L.disk path = some s ∧ s.state = state

def answer? (path : Path) : Option (List Finding) :=
  Cache.answer? L.directory L.limits L.disk path

/-- The outcome of a file once the directory has the answer for it. -/
def reply (path : Path) : Outcome := .expected L.limits L.disk path (L.answer? path)

/-- The directory has the answer for a file. -/
def Answered (d : Disk) (path : Path) : Prop := saved? L.directory d path = L.answer? path

/-- Two files that a batch takes for one, as long as they do not change. -/
def Twins (path other : Path) : Prop :=
  ∀ d, L.Still d → saved? L.directory d other = saved? L.directory d path ∧
    analyzed? L.limits d other = analyzed? L.limits d path

/-- A worker that gives the answers that could be given at first. -/
structure Steady (w : Worker) (d : Disk) : Prop where
  limits_eq : w.limits = L.limits
  still : L.Still d
  cache : ∃ c, w.cache = some c ∧ c.Backed L.directory L.Met d
  answer?_eq : ∀ path ∈ L.files, Cache.answer? L.directory L.limits d path = L.answer? path

variable {L} {w : Worker} {d : Disk} {path other : Path}

theorem Still.met (h : L.Still d) (hpath : path ∈ L.files) {s : Stamp}
    (hs : Stamp.at? d path = some s) : L.Met s.state :=
  ⟨path, hpath, s, (Stamp.at?_of_look (h path hpath)).symm.trans hs, rfl⟩

theorem ToldApart.shown_eq (h : L.ToldApart) {s t : FileState} (hs : L.Met s) (ht : L.Met t)
    (hkey : s.key = t.key) : s.path.text = t.path.text ∧ s.bytes = t.bytes := by
  obtain ⟨path, hpath, u, hu, rfl⟩ := hs
  obtain ⟨path', hpath', u', hu', rfl⟩ := ht
  have hzero : ∀ path ∈ L.files, ∀ s, Stamp.at? L.disk path = some s → 0 ∉ s.state.path.bytes := by
    intro path hpath s hs
    rw [Stamp.state, Stamp.path_of_at? hs, Path.bytes_shown, Text.mem_repaired_iff (by decide)]
    exact h.path path hpath
  exact FileState.canonical_injective (hzero path hpath u hu) (hzero path' hpath' u' hu')
    (h.key path hpath path' hpath' u hu u' hu' hkey)

/-- Files under one key are shown alike and have the same content. -/
theorem ToldApart.twins (h : L.ToldApart) (hpath : path ∈ L.files) (hother : other ∈ L.files)
    {s t : Stamp} (hs : Stamp.at? L.disk path = some s) (ht : Stamp.at? L.disk other = some t)
    (hkey : t.state.key = s.state.key) : L.Twins path other := by
  obtain ⟨htext, hbytes⟩ := h.shown_eq ⟨other, hother, t, ht, rfl⟩ ⟨path, hpath, s, hs, rfl⟩ hkey
  rw [Stamp.text_of_at? ht, Stamp.text_of_at? hs] at htext
  intro d hstill
  have hs' := (Stamp.at?_of_look (hstill path hpath)).trans hs
  have ht' := (Stamp.at?_of_look (hstill other hother)).trans ht
  refine ⟨?_, ?_⟩
  · rw [saved?, saved?, hs', ht', Option.bind_some, Option.bind_some, entryIn?_of_key hkey, htext]
  · obtain ⟨doc, modified, hlook, rfl⟩ := Stamp.at?_eq_some.mp hs
    obtain ⟨doc', modified', hlook', rfl⟩ := Stamp.at?_eq_some.mp ht
    have hread : L.disk.read path = .ok doc := by rw [Disk.read, hlook]
    have hread' : L.disk.read other = .ok doc' := by rw [Disk.read, hlook']
    obtain rfl := h.document other hother path hpath htext doc' doc hread' hread hbytes
    rw [analyzed?_of_look (hstill path hpath), analyzed?_of_look (hstill other hother),
      analyzed?_of_read hread, analyzed?_of_read hread', htext]

theorem Twins.answer?_eq (h : L.Twins path other) (hstill : L.Still d) :
    Cache.answer? L.directory L.limits d other = Cache.answer? L.directory L.limits d path := by
  obtain ⟨hsaved, hanalyzed⟩ := h d hstill
  rw [Cache.answer?, Cache.answer?, hsaved, hanalyzed]

/-- What the directory has is the answer from then on. -/
theorem Answered.answer?_eq (h : L.Answered d path) (hlook : d.look path = L.disk.look path) :
    Cache.answer? L.directory L.limits d path = L.answer? path := by
  rw [Answered] at h
  rw [Cache.answer?, h, analyzed?_of_look hlook, answer?, Cache.answer?, Option.or_assoc,
    Option.or_self]

theorem Answered.of_spares (h : L.Answered d path) {d' : Disk} (hspares : d.Spares L.directory d')
    (hlook : d'.look path = d.look path) : L.Answered d' path := by
  rw [Answered, saved?_of_look hlook fun s _ => entryIn?_of_child? (hspares.child?_eq _)]
  exact h

namespace Steady

theorem outcome_eq (h : L.Steady w d) (happart : L.ToldApart) (hpath : path ∈ L.files) :
    (w.analyze d path).1 = .expected L.limits L.disk path (saved? L.directory d path) := by
  obtain ⟨c, hcache, hc⟩ := h.cache
  rw [Worker.outcome_of_backed hcache hc
    (fun _ _ hs ht hkey => (happart.shown_eq hs ht hkey).1) (fun _ => h.still.met hpath),
    h.limits_eq]
  exact Outcome.expected_of_look (h.still path hpath) _

theorem outcome_of_answered (h : L.Steady w d) (happart : L.ToldApart) (hpath : path ∈ L.files)
    (hanswered : L.Answered d path) : (w.analyze d path).1 = L.reply path := by
  rw [h.outcome_eq happart hpath, hanswered, reply]

/-- With or without the answer in the directory, the findings are the same. -/
theorem reply_eq (h : L.Steady w d) (happart : L.ToldApart) (hpath : path ∈ L.files) :
    (L.reply path).findings = (w.analyze d path).1.findings ∧
      (L.reply path).hit = if (w.analyze d path).1.hit.isSome then some true else none := by
  have hanswer : (saved? L.directory d path).or (analyzed? L.limits L.disk path) =
      L.answer? path := by
    rw [← analyzed?_of_look (h.still path hpath)]
    exact h.answer?_eq path hpath
  rw [h.outcome_eq happart hpath, reply, ← hanswer]
  exact Outcome.expected_or_analyzed? ..

/-- With a file, the directory gets the answer for it and keeps all others. -/
theorem step (h : L.Steady w d) (happart : L.ToldApart) (hpath : path ∈ L.files)
    (hstill : L.Still (w.analyze d path).2.2) :
    L.Steady (w.analyze d path).2.1 (w.analyze d path).2.2 ∧
      L.Answered (w.analyze d path).2.2 path ∧
      ∀ other ∈ L.files, L.Answered d other → L.Answered (w.analyze d path).2.2 other := by
  obtain ⟨c, hcache, hc⟩ := h.cache
  have hlook : ∀ other ∈ L.files, (w.analyze d path).2.2.look other = d.look other :=
    fun other hother => (hstill other hother).trans (h.still other hother).symm
  have hreadable : ∀ findings, analyzed? w.limits d path = some findings →
      Entry.ofBytes? (Entry.mk path.text findings).toBytes = some ⟨path.text, findings⟩ := by
    intro findings hfindings
    rw [h.limits_eq, analyzed?_of_look (h.still path hpath)] at hfindings
    exact happart.entry path hpath findings hfindings
  obtain ⟨hcache', hself, hothers⟩ := Worker.analyze_backed hcache hc
    (fun _ _ hs ht hkey => (happart.shown_eq hs ht hkey).1) (fun _ => h.still.met hpath)
    (hlook path hpath) hreadable
  rw [h.limits_eq, h.answer?_eq path hpath] at hself
  -- What is kept for another key stays, and a file with the same key has the same answer.
  have hsaved : ∀ other ∈ L.files, L.Twins path other ∨
      saved? L.directory (w.analyze d path).2.2 other = saved? L.directory d other := by
    intro other hother
    refine or_iff_not_imp_left.mpr fun htwins => ?_
    refine saved?_of_look (hlook other hother) fun t ht => hothers t.state fun s hs hkey =>
      htwins ?_
    exact happart.twins hpath hother ((Stamp.at?_of_look (h.still path hpath)).symm.trans hs)
      ((Stamp.at?_of_look (h.still other hother)).symm.trans ht) hkey
  refine ⟨⟨(w.limits_analyze d path).trans h.limits_eq, hstill, hcache', fun other hother => ?_⟩,
    hself, fun other hother hanswered => ?_⟩
  · rcases hsaved other hother with htwins | hsaved
    · rw [htwins.answer?_eq hstill, Answered.answer?_eq hself (hstill path hpath)]
      exact (htwins.answer?_eq fun _ _ => rfl).symm
    · rw [Cache.answer?, analyzed?_of_look (hlook other hother), hsaved]
      exact h.answer?_eq other hother
  · rcases hsaved other hother with htwins | hsaved
    · rw [Answered, (htwins _ hstill).1, hself]
      exact (htwins.answer?_eq fun _ _ => rfl).symm
    · exact hsaved.trans hanswered

variable {watcher : Progress → Bool} {total : Nat} {r : Batch.Run}

theorem advance (hr : L.Steady r.worker r.disk) (happart : L.ToldApart) (hpath : path ∈ L.files)
    (hgo : ¬ r.stopRequested = true) (hstill : L.Still (r.advance watcher total path).disk) :
    L.Steady (r.advance watcher total path).worker (r.advance watcher total path).disk ∧
      L.Answered (r.advance watcher total path).disk path ∧
      ∀ other ∈ L.files, L.Answered r.disk other →
        L.Answered (r.advance watcher total path).disk other := by
  rw [Batch.Run.advance_of_go hgo] at hstill ⊢
  exact hr.step happart hpath hstill

/-- With each file of a run the directory gets an answer, and no answer is lost. -/
theorem run (hr : L.Steady r.worker r.disk) (happart : L.ToldApart) {files : List Path}
    (hfiles : files ⊆ L.files)
    (hstill : ∀ s ∈ files.scanl (Batch.Run.advance watcher total) r, L.Still s.disk) :
    L.Steady (files.foldl (Batch.Run.advance watcher total) r).worker
      (files.foldl (Batch.Run.advance watcher total) r).disk ∧
    (∀ path ∈ L.files, L.Answered r.disk path →
      L.Answered (files.foldl (Batch.Run.advance watcher total) r).disk path) ∧
    ∀ v ∈ r.visits watcher total files,
      L.Answered (files.foldl (Batch.Run.advance watcher total) r).disk v.path ∧
      (∀ path ∈ L.files, L.Answered r.disk path → L.Answered v.disk path) ∧
      ∃ w, L.Steady w v.disk ∧ v = w.visit v.disk v.path := by
  induction files generalizing r with
  | nil => exact ⟨hr, fun _ _ => id, by simp [Batch.Run.visits]⟩
  | cons path files ih =>
    by_cases hstop : r.stopRequested = true
    · rw [Batch.Run.foldl_advance_of_stopRequested hstop, Batch.Run.visits, if_pos hstop]
      exact ⟨hr, fun _ _ => id, by simp⟩
    · rw [List.scanl_cons] at hstill
      obtain ⟨hpath, hrest⟩ := List.cons_subset.mp hfiles
      have hlater := fun s hs => hstill s (List.mem_cons_of_mem _ hs)
      have hnext : L.Still (r.advance watcher total path).disk :=
        hlater _ (List.mem_of_head? List.head?_scanl)
      obtain ⟨hsteady, hself, hkeeps⟩ := hr.advance happart hpath hstop hnext
      obtain ⟨hsteady', hend, hvisits⟩ := ih hsteady hrest hlater
      refine ⟨hsteady', fun other hother h => hend other hother (hkeeps other hother h),
        fun v hv => ?_⟩
      rw [Batch.Run.visits, if_neg hstop] at hv
      rcases List.mem_cons.mp hv with rfl | hv
      · exact ⟨hend path hpath hself, fun _ _ => id, r.worker, hr, rfl⟩
      · obtain ⟨hanswered, hbefore, hworker⟩ := hvisits v hv
        exact ⟨hanswered, fun other hother h => hbefore other hother (hkeeps other hother h),
          hworker⟩

/-- A batch starts with an empty memory, so all it knows is in the directory. -/
theorem of_begin {b : Batch} {d d₀ : Disk} (hlimits : b.settings.limits = L.limits)
    (hdirectory : b.cacheDirectory? = some L.directory)
    (hmake : d.makeDirectories L.directory = .ok d₀) (hwritable : d₀.Writable L.directory)
    (hstill : L.Still d₀)
    (hanswer : ∀ path ∈ L.files, Cache.answer? L.directory L.limits d₀ path = L.answer? path) :
    L.Steady (b.begin d).worker (b.begin d).disk := by
  rw [Batch.begin, Batch.worker_eq hdirectory hmake]
  refine ⟨hlimits, hstill, ⟨_, rfl, hwritable, rfl, fun hmemory => ?_⟩, hanswer⟩
  simp at hmemory

end Steady

end Listing

/-! ### Batches that run to the end -/

namespace Batch

theorem Run.paths_visits_of_go {watcher : Progress → Bool} {total : Nat} {r : Run}
    {files : List Path} (h : (files.foldl (advance watcher total) r).stopRequested = false) :
    (r.visits watcher total files).map Visit.path = files := by
  induction files generalizing r with
  | nil => rfl
  | cons path files ih =>
    have hgo : ¬ r.stopRequested = true := by
      intro hstop
      rw [foldl_advance_of_stopRequested hstop, hstop] at h
      simp at h
    rw [visits, if_neg hgo, List.map_cons, ih h]
    rfl

/-- A batch that is not stopped takes up all files. -/
theorem paths_visits_of_not_stopped {b : Batch} {d : Disk} {files : List Path}
    (h : (b.runSequential d files).report.stopped = false) :
    (b.visits d files).map Visit.path = files := by
  have hlength : (b.runSequential d files).report.outcomes.length = (b.visits d files).length := by
    rw [outcomes_runSequential, List.length_map]
  rw [Report.stopped, hlength, Bool.and_eq_false_iff, decide_eq_false_iff_not, not_lt] at h
  rcases h with hgo | hall
  · exact Run.paths_visits_of_go hgo
  · have hfront : (b.visits d files).map Visit.path <+: files := Run.paths_visits_prefix _ _
    exact hfront.eq_of_length_le (by rwa [List.length_map])

theorem stopped_of_unwatched {b : Batch} (hwatcher : ∀ p, b.watcher p = false)
    (hgo : b.stopRequested = false) (d : Disk) (files : List Path) :
    (b.runSequential d files).report.stopped = false := by
  have hpaths : (b.visits d files).map Visit.path = files :=
    Run.paths_visits_of_unwatched hwatcher hgo files
  have hlength := congrArg List.length hpaths
  rw [List.length_map] at hlength
  have htotal : (b.runSequential d files).report.total = files.length := rfl
  simp [Report.stopped, outcomes_runSequential, hlength, htotal]

end Batch

/-! ### Changes in the course of a batch -/

theorem Batch.Run.within_of_mem_scanl {watcher : Progress → Bool} {total : Nat}
    {directory : Path} {d : Disk} {r s : Run} {files : List Path}
    (hr : d.Within directory r.disk) (hcache : ∀ c ∈ r.worker.cache, c.directory = directory)
    (hs : s ∈ files.scanl (advance watcher total) r) : d.Within directory s.disk := by
  induction files generalizing r with
  | nil =>
    rw [List.scanl_nil, List.mem_singleton] at hs
    exact hs ▸ hr
  | cons path files ih =>
    rw [List.scanl_cons, List.mem_cons] at hs
    rcases hs with rfl | hs
    · exact hr
    by_cases hstop : r.stopRequested = true
    · rw [advance, if_pos hstop] at hs
      exact ih hr hcache hs
    · obtain ⟨hcache', hwithin⟩ := Worker.within_analyze hcache path
      rw [advance_of_go hstop] at hs
      exact ih (hr.trans hwithin) hcache' hs

/-! ### A second batch -/

namespace Round

/-- The disk at the first file. -/
def start (r : Round) : Disk := (r.batch.begin r.disk).disk

/-- The disks before the first file, between two files and at the end. -/
def disks (r : Round) : List Disk :=
  (r.files.scanl (Batch.Run.advance r.batch.watcher r.files.length) (r.batch.begin r.disk)).map
    (·.disk)

def listing (r : Round) (directory : Path) : Listing where
  directory := directory
  limits := r.batch.settings.limits
  disk := r.start
  files := r.files

theorem start_eq {r : Round} {directory : Path} {d : Disk}
    (hdirectory : r.batch.cacheDirectory? = some directory)
    (hmake : r.disk.makeDirectories directory = .ok d) : r.start = d := by
  rw [start, Batch.begin, Batch.worker_eq hdirectory hmake]

theorem start_mem_disks (r : Round) : r.start ∈ r.disks :=
  List.mem_map_of_mem (List.mem_of_head? List.head?_scanl)

theorem ended_mem_disks (r : Round) : r.ended.disk ∈ r.disks :=
  List.mem_map_of_mem (List.mem_of_getLast? List.getLast?_scanl)

theorem within_of_mem_disks {r : Round} {directory : Path} {d : Disk}
    (hdirectory : r.batch.cacheDirectory? = some directory)
    (hmake : r.disk.makeDirectories directory = .ok r.start) (hd : d ∈ r.disks) :
    r.start.Within directory d := by
  obtain ⟨s, hs, rfl⟩ := List.mem_map.mp hd
  refine Batch.Run.within_of_mem_scanl (.refl directory _) (fun c hc => ?_) hs
  rw [Batch.begin, Batch.worker_eq hdirectory hmake] at hc
  rw [← Option.some.inj hc]

theorem steady_run {L : Listing} (happart : L.ToldApart) {r : Round}
    (hr : L.Steady (r.batch.begin r.disk).worker r.start) (hfiles : r.files ⊆ L.files)
    (hstill : ∀ d ∈ r.disks, L.Still d) :
    (∃ w, L.Steady w r.ended.disk) ∧ ∀ v ∈ r.visits, L.Answered r.ended.disk v.path ∧
      (∀ path ∈ L.files, L.Answered r.start path → L.Answered v.disk path) ∧
      ∃ w, L.Steady w v.disk ∧ v = w.visit v.disk v.path := by
  obtain ⟨hend, _, hvisits⟩ := Listing.Steady.run hr happart hfiles
    fun s hs => hstill s.disk (List.mem_map_of_mem hs)
  exact ⟨⟨_, hend⟩, hvisits⟩

/-- Batches leave files outside of the directory of results as they are. -/
theorem still_of_avoids {directory : Path} {first second : Round}
    (hfirst : first.batch.cacheDirectory? = some directory)
    (hsecond : second.batch.cacheDirectory? = some directory)
    (hmake : first.disk.makeDirectories directory = .ok first.start)
    (hopens : second.disk.Opens directory)
    (havoids : ∀ path ∈ first.files,
      first.start.Avoids directory path ∧ second.disk.Avoids directory path)
    (hsame : ∀ path ∈ first.files, second.disk.look path = first.ended.disk.look path) :
    ∀ d ∈ first.disks ++ second.disks, (first.listing directory).Still d := by
  have hduring : ∀ d ∈ first.disks, (first.listing directory).Still d := fun d hd path hpath =>
    (within_of_mem_disks hfirst hmake hd).look_eq (havoids path hpath).1
  have hstart := start_eq hsecond hopens.makeDirectories_eq
  intro d hd path hpath
  rcases List.mem_append.mp hd with hd | hd
  · exact hduring d hd path hpath
  · have hwithin := within_of_mem_disks hsecond (hstart ▸ hopens.makeDirectories_eq) hd
    rw [hstart] at hwithin
    rw [hwithin.look_eq (havoids path hpath).2, hsame path hpath]
    exact hduring _ first.ended_mem_disks path hpath

/-- A batch is run again with the same limits and the same directory of results. -/
structure Repeats (directory : Path) (first second : Round) : Prop where
  files_eq : second.files = first.files
  limits_eq : second.batch.settings.limits = first.batch.settings.limits
  first_directory : first.batch.cacheDirectory? = some directory
  second_directory : second.batch.cacheDirectory? = some directory
  first_completed : first.ended.report.stopped = false
  second_completed : second.ended.report.stopped = false
  /-- The directory is there or can be made, and files can be written there. -/
  writable : ∃ d, first.disk.makeDirectories directory = .ok d ∧ d.Writable directory
  /-- Nobody else writes there. -/
  spared : first.ended.disk.Spares directory second.disk
  /-- At no moment of the two batches is a file of the list other than at first. -/
  still : ∀ d ∈ first.disks ++ second.disks, (first.listing directory).Still d

/-- A batch that is run again at once, before anybody changes anything. -/
theorem repeats_at_once {directory : Path} {r : Round} {b : Batch}
    (hlimits : b.settings.limits = r.batch.settings.limits)
    (hdirectory : r.batch.cacheDirectory? = some directory)
    (hdirectory' : b.cacheDirectory? = some directory)
    (hcompleted : r.ended.report.stopped = false)
    (hcompleted' : (b.runSequential r.ended.disk r.files).report.stopped = false)
    (hmake : r.disk.makeDirectories directory = .ok r.start)
    (hwritable : r.start.Writable directory)
    (havoids : ∀ path ∈ r.files, r.start.Avoids directory path) :
    r.Repeats directory ⟨r.ended.disk, b, r.files⟩ := by
  have hwithin := within_of_mem_disks hdirectory hmake r.ended_mem_disks
  refine ⟨rfl, hlimits, hdirectory, hdirectory', hcompleted, hcompleted',
    ⟨r.start, hmake, hwritable⟩, ⟨id, fun _ => rfl⟩, ?_⟩
  exact still_of_avoids hdirectory hdirectory' hmake (hwithin.opens hwritable.opens)
    (fun path hpath => ⟨havoids path hpath, (havoids path hpath).of_workDir_eq hwithin.workDir_eq⟩)
    fun _ _ => rfl

namespace Repeats

variable {directory : Path} {first second : Round}

/-- Of a batch that runs to the end, all files are taken up. -/
theorem paths_visits (h : first.Repeats directory second) :
    first.visits.map Visit.path = first.files ∧ second.visits.map Visit.path = first.files := by
  refine ⟨Batch.paths_visits_of_not_stopped h.first_completed, ?_⟩
  rw [← h.files_eq]
  exact Batch.paths_visits_of_not_stopped h.second_completed

theorem steady_first (h : first.Repeats directory second) :
    (first.listing directory).Steady (first.batch.begin first.disk).worker first.start := by
  obtain ⟨d, hmake, hwritable⟩ := h.writable
  obtain rfl := start_eq h.first_directory hmake
  exact .of_begin rfl h.first_directory hmake hwritable (fun _ _ => rfl) fun _ _ => rfl

theorem visits_first (h : first.Repeats directory second)
    (happart : (first.listing directory).ToldApart) :
    (∃ w, (first.listing directory).Steady w first.ended.disk) ∧ ∀ v ∈ first.visits,
      (first.listing directory).Answered first.ended.disk v.path ∧
      ∃ w, (first.listing directory).Steady w v.disk ∧ v = w.visit v.disk v.path := by
  obtain ⟨hend, hvisits⟩ := steady_run happart h.steady_first (List.Subset.refl _)
    fun d hd => h.still d (List.mem_append_left _ hd)
  refine ⟨hend, fun v hv => ?_⟩
  obtain ⟨hanswered, _, hworker⟩ := hvisits v hv
  exact ⟨hanswered, hworker⟩

/-- The second batch starts with all answers in the directory. -/
theorem answered_second (h : first.Repeats directory second)
    (happart : (first.listing directory).ToldApart) :
    (first.listing directory).Steady (second.batch.begin second.disk).worker second.start ∧
      ∀ path ∈ first.files, (first.listing directory).Answered second.start path := by
  obtain ⟨⟨_, hend⟩, hvisits⟩ := h.visits_first happart
  obtain ⟨_, _, hbacked⟩ := hend.cache
  have hwritable := h.spared.writable hbacked.toWritable
  have hmake := hwritable.opens.makeDirectories_eq
  have hstart : second.start = second.disk := start_eq h.second_directory hmake
  have hstill : (first.listing directory).Still second.disk :=
    hstart ▸ h.still _ (List.mem_append_right _ second.start_mem_disks)
  have hanswered : ∀ path ∈ first.files,
      (first.listing directory).Answered second.disk path := by
    intro path hpath
    have hlook := (hstill path hpath).trans (hend.still path hpath).symm
    rw [← h.paths_visits.1] at hpath
    obtain ⟨v, hv, rfl⟩ := List.mem_map.mp hpath
    exact (hvisits v hv).1.of_spares h.spared hlook
  have hsteady := Listing.Steady.of_begin (L := first.listing directory) h.limits_eq
    h.second_directory hmake hwritable hstill
    fun path hpath => (hanswered path hpath).answer?_eq (hstill path hpath)
  exact ⟨hsteady, hstart ▸ hanswered⟩

theorem outcomes_second (h : first.Repeats directory second)
    (happart : (first.listing directory).ToldApart) :
    second.ended.report.outcomes =
      first.visits.map fun v => (first.listing directory).reply v.path := by
  obtain ⟨hsteady, hanswered⟩ := h.answered_second happart
  have hfiles : second.files = (first.listing directory).files := h.files_eq
  obtain ⟨_, hvisits⟩ := steady_run happart hsteady (hfiles ▸ List.Subset.refl _)
    fun d hd => h.still d (List.mem_append_right _ hd)
  have houtcome : ∀ v ∈ second.visits, v.outcome = (first.listing directory).reply v.path := by
    intro v hv
    have hpath : v.path ∈ first.files := h.paths_visits.2 ▸ List.mem_map_of_mem hv
    obtain ⟨_, hkeeps, w, hw, hvisit⟩ := hvisits v hv
    rw [hvisit]
    exact hw.outcome_of_answered happart hpath (hkeeps v.path hpath (hanswered v.path hpath))
  rw [ended, Batch.outcomes_runSequential]
  calc second.visits.map Visit.outcome
    _ = (second.visits.map Visit.path).map (first.listing directory).reply := by
      rw [List.map_map]
      exact List.map_congr_left houtcome
    _ = (first.visits.map Visit.path).map (first.listing directory).reply := by
      rw [h.paths_visits.1, h.paths_visits.2]
    _ = first.visits.map fun v => (first.listing directory).reply v.path := by
      rw [List.map_map]
      rfl

/-- The reply on a file has the findings of the first batch, and is a hit unless the file failed. -/
theorem reply_first (h : first.Repeats directory second)
    (happart : (first.listing directory).ToldApart) {v : Visit} (hv : v ∈ first.visits) :
    ((first.listing directory).reply v.path).findings = v.outcome.findings ∧
      ((first.listing directory).reply v.path).hit = if v.failed then none else some true := by
  have hpath : v.path ∈ first.files := h.paths_visits.1 ▸ List.mem_map_of_mem hv
  obtain ⟨_, w, hw, hvisit⟩ := (h.visits_first happart).2 v hv
  have houtcome : (w.analyze v.disk v.path).1 = v.outcome := (congrArg Visit.outcome hvisit).symm
  have hmark : v.outcome.hit = none ↔ v.failed = true := by
    obtain ⟨c, hcache, _⟩ := hw.cache
    rw [hvisit]
    exact Worker.hit_eq_none_iff_failed (by simp [hcache]) v.disk v.path
  obtain ⟨hfindings, hhit⟩ := hw.reply_eq happart hpath
  rw [houtcome] at hfindings hhit
  refine ⟨hfindings, hhit.trans ?_⟩
  cases hasked : v.outcome.hit with
  | none => simp [hmark.mp hasked]
  | some mark =>
    have hworks : v.failed = false := by simpa [hasked] using hmark
    simp [hworks]

end Repeats

/-- A batch that is repeated is answered from the directory: nothing is analyzed, what did not fail
is a hit, and the findings are those of the first time, in the same order. -/
theorem repeated_batch_is_answered (directory : Path) (first second : Round)
    (hrepeats : first.Repeats directory second)
    (happart : (first.listing directory).ToldApart) :
    first.visits.map Visit.path = first.files ∧
    second.ended.report.meter.misses = 0 ∧
    second.ended.report.meter.hits = first.visits.countP (fun v => !v.failed) ∧
    second.ended.report.findings = first.ended.report.findings := by
  have hreply := fun v (hv : v ∈ first.visits) => hrepeats.reply_first happart hv
  have houtcomes := hrepeats.outcomes_second happart
  have hmeter := second.ended.report.meter_eq_counts
  rw [houtcomes, List.countP_map, List.countP_map] at hmeter
  refine ⟨hrepeats.paths_visits.1, ?_, ?_, ?_⟩
  · rw [hmeter, List.countP_eq_zero]
    intro v hv
    rw [Function.comp_apply, (hreply v hv).2]
    split <;> simp
  · rw [hmeter]
    refine List.countP_congr fun v hv => ?_
    rw [Function.comp_apply, (hreply v hv).2]
    cases v.failed <;> simp
  · rw [Report.findings, Report.findings, houtcomes, List.flatMap_map, ended,
      Batch.outcomes_runSequential, List.flatMap_map]
    exact List.flatMap_congr fun v hv => (hreply v hv).1

end Round

/-! ### A note under two paths -/

namespace Batch.Desk

/-- A batch with a memory for so many results. -/
def remembering (capacity : Nat) : Batch where
  settings := {
    limits := Site.Note.limits 1
    cache := { directory := some "results", memoryCapacity := capacity } }
  environment := { home := "/home" }

def paths : List Path := ["note.py", "gone.py", "./note.py", "note.py"]

def first : Round := ⟨disk, remembering 1, paths⟩

def second : Round := ⟨first.ended.disk, remembering 100, first.files⟩

theorem destination_directory : Disk.destination disk.workDir directory = shelf := by
  have hresults : Disk.destination disk.workDir "results" = Site.Note.results := by
    decide +kernel
  rw [directory, Disk.destination_join (isName_directoryName _), hresults]
  rfl

theorem writable : disk.Writable directory := by
  refine ⟨opens, fun name hname => ?_⟩
  rw [Disk.child?, destination_directory, node?_disk, if_neg (by simp),
    if_neg (by simp [shelf, Site.Note.results]), Site.Note.disk, Disk.node?_put _ (by decide),
    if_neg (by simp [shelf, Site.Note.place]), Disk.node?_put _ (by decide),
    if_neg (by simp [shelf, Site.Note.work]), Disk.node?, if_neg (by simp)] at hname
  simp at hname

theorem avoids {path : Path} (hpath : path ∈ paths) : disk.Avoids directory path := by
  have hshort : ∀ path ∈ paths, ∀ front ∈ (disk.route path.bytes).2.inits,
      (front.foldl Disk.step (disk.route path.bytes).1).dropLast.length < 3 := by decide +kernel
  intro front hfront hplace
  have hlength := hshort path hpath front ((List.mem_inits _ _).mpr hfront)
  rw [hplace, destination_directory] at hlength
  simp [shelf] at hlength

theorem start_first : first.start = disk :=
  Round.start_eq rfl opens.makeDirectories_eq

theorem listing_first :
    first.listing directory = ⟨directory, Site.Note.limits 1, disk, paths⟩ := by
  rw [Round.listing, start_first]
  rfl

theorem repeats : first.Repeats directory second := by
  have hcompleted : ∀ d capacity,
      ((remembering capacity).runSequential d paths).report.stopped = false :=
    fun d capacity => stopped_of_unwatched (fun _ => rfl) rfl d paths
  refine Round.repeats_at_once rfl rfl rfl (hcompleted disk 1) (hcompleted first.ended.disk 100) ?_
    ?_ ?_ <;> rw [start_first]
  · exact opens.makeDirectories_eq
  · exact writable
  · exact fun path => avoids

/-- The content of the note. -/
def note : Syntax.Document := Site.Note.document 0x66

/-- What is found in the note. -/
def findings (path : Path) : List Finding :=
  [Site.Note.finding (if path = "note.py" then "dfb38ceb4282" else "9370b9b92c21") path.text]

theorem node?_eq_file {here : Location} {doc : Syntax.Document} {modified : Int}
    (h : disk.node? here = some (.file doc modified)) :
    here = Site.Note.place ∧ doc = note ∧ modified = 1 := by
  rw [node?_disk] at h
  split at h
  · simp at h
  · split at h
    · simp at h
    · obtain ⟨hplace, hfile⟩ := Site.Note.eq_of_disk h
      exact ⟨hplace, DiskNode.file.inj hfile⟩

theorem eq_of_read {path : Path} {doc : Syntax.Document} (hpath : path ∈ paths)
    (h : disk.read path = .ok doc) : (path = "note.py" ∨ path = "./note.py") ∧ doc = note := by
  obtain ⟨_, _, hnode⟩ := Disk.read_eq_ok h
  obtain ⟨hplace, hdoc, _⟩ := node?_eq_file hnode
  refine ⟨?_, hdoc⟩
  have hgone : Disk.destination disk.workDir "gone.py" ≠ Site.Note.place := by decide +kernel
  simp only [paths, List.mem_cons, List.not_mem_nil, or_false] at hpath
  rcases hpath with rfl | rfl | rfl | rfl
  · exact .inl rfl
  · exact absurd hplace hgone
  · exact .inr rfl
  · exact .inl rfl

theorem read_eq {path : Path} (hpath : path = "note.py" ∨ path = "./note.py") :
    disk.read path = .ok note := by
  have hwork : disk.node? disk.workDir = some .directory := node?_work
  have hnote : disk.node? Site.Note.place = some (.file note 1) := by
    rw [node?_disk, if_neg (by simp [shelf, Site.Note.place]), if_neg (by decide), Site.Note.disk,
      Disk.node?_put _ (by decide), if_pos rfl]
    rfl
  have hname : Disk.IsName "note.py" := Disk.isName_ofText (by decide) (by decide)
  have hlocate : disk.locate path = .ok Site.Note.place := by
    rcases hpath with rfl | rfl
    · exact Disk.locate_of_isName hname hwork
    · have hhere : disk.Opens "." := ⟨disk.workDir, Disk.follow_singleton.mpr ⟨hwork, rfl⟩, hwork⟩
      exact Disk.locate_join hhere hname
  simp only [Disk.read, Disk.look, hlocate, hnote]

theorem analyze_note {path : Path} (hpath : path = "note.py" ∨ path = "./note.py") :
    note.analyze (Site.Note.limits 1) path.text = .ok (findings path) := by
  rcases hpath with rfl | rfl <;> decide +kernel

theorem entry_note {path : Path} (hpath : path = "note.py" ∨ path = "./note.py") :
    Entry.ofBytes? (Entry.mk path.text (findings path)).toBytes =
      some ⟨path.text, findings path⟩ := by
  simp only [Entry.toBytes, Json.compress, Text.encode_ofList]
  rcases hpath with rfl | rfl <;> decide +kernel

theorem toldApart : (first.listing directory).ToldApart := by
  rw [listing_first]
  have hstate : ∀ path ∈ paths, ∀ s ∈ Stamp.at? disk path,
      s.state = ⟨path.shown, note.bytes, 1, 7⟩ ∧ (path = "note.py" ∨ path = "./note.py") := by
    intro path hpath s hs
    obtain ⟨doc, modified, hlook, rfl⟩ := Stamp.at?_eq_some.mp hs
    obtain ⟨_, rfl, rfl⟩ := node?_eq_file (Disk.look_eq_ok hlook)
    exact ⟨rfl, (eq_of_read hpath (by rw [Disk.read, hlook])).1⟩
  have hkeys : (⟨"note.py", note.bytes, 1, 7⟩ : FileState).key ≠
      (⟨"./note.py", note.bytes, 1, 7⟩ : FileState).key := by decide +kernel
  have hshown : ∀ text : String, Path.shown text = text := fun text =>
    congrArg Path.ofText (Path.text_ofText text)
  refine ⟨by decide +kernel, fun path hpath path' hpath' s hs s' hs' hkey => ?_,
    fun path hpath path' hpath' _ doc doc' hread hread' _ => ?_,
    fun path hpath found hfound => ?_⟩
  · obtain ⟨hs, hpath⟩ := hstate path hpath s hs
    obtain ⟨hs', hpath'⟩ := hstate path' hpath' s' hs'
    rw [hs, hs'] at hkey ⊢
    rcases hpath with rfl | rfl <;> rcases hpath' with rfl | rfl
    · rfl
    · exact absurd (hshown _ ▸ hshown _ ▸ hkey) hkeys
    · exact absurd (hshown _ ▸ hshown _ ▸ hkey.symm) hkeys
    · rfl
  · rw [(eq_of_read hpath hread).2, (eq_of_read hpath' hread').2]
  · cases hread : disk.read path with
    | error e => simp [analyzed?, hread, Except.toOption] at hfound
    | ok doc =>
      obtain ⟨hpath, rfl⟩ := eq_of_read hpath hread
      rw [analyzed?_of_read hread, analyze_note hpath] at hfound
      obtain rfl : findings path = found := Option.some.inj hfound
      exact entry_note hpath

/-- The second batch has no misses, and reports the finding under each of the paths. -/
theorem repeated_batch_is_answered_desk :
    first.Repeats directory second ∧ (first.listing directory).ToldApart ∧
      second.ended.report.meter.misses = 0 ∧ second.ended.report.meter.hits = 3 ∧
      second.ended.report.findings = first.ended.report.findings := by
  obtain ⟨hpaths, hmisses, hhits, hfindings⟩ :=
    Round.repeated_batch_is_answered directory first second repeats toldApart
  refine ⟨repeats, toldApart, hmisses, hhits.trans ?_, hfindings⟩
  have hfailed : ∀ v ∈ first.visits, (!v.failed) = (v.path != .ofText "gone.py") := by
    intro v hv
    obtain ⟨_, w, hw, hvisit⟩ := (repeats.visits_first toldApart).2 v hv
    have hlimits : v.limits = Site.Note.limits 1 := Round.limits_of_mem_visits hv
    have hpath : v.path ∈ paths := (hpaths ▸ List.mem_map_of_mem hv : v.path ∈ first.files)
    have hread : v.disk.read v.path = disk.read v.path := by
      have hlook := hw.still v.path hpath
      rw [listing_first] at hlook
      rw [Disk.read, Disk.read, hlook]
    rw [Visit.failed, hread, hlimits]
    by_cases hgone : v.path = "gone.py"
    · cases hmissing : disk.read v.path with
      | error e => simp [hgone]
      | ok doc =>
        have hnote := (eq_of_read hpath hmissing).1
        rw [hgone] at hnote
        exact absurd hnote (by decide)
    · have hnote : v.path = "note.py" ∨ v.path = "./note.py" := by
        simp only [paths, List.mem_cons, List.not_mem_nil, or_false, hgone, false_or] at hpath
        rcases hpath with hpath | hpath | hpath
        · exact .inl hpath
        · exact .inr hpath
        · exact .inl hpath
      simp [read_eq hnote, analyze_note hnote, Except.isOk, Except.toBool, hgone]
  calc first.visits.countP (fun v => !v.failed)
    _ = (first.visits.map Visit.path).countP (· != .ofText "gone.py") := by
      rw [List.countP_map]
      exact List.countP_congr fun v hv => by rw [hfailed v hv]; rfl
    _ = 3 := by
      rw [hpaths]
      rfl

end Batch.Desk

end Coupling
