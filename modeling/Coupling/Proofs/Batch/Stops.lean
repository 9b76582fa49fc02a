import Coupling.Proofs.Batch.History
import Coupling.Proofs.Disk.Contents
import Mathlib.Algebra.GroupWithZero.Nat

/-!
# Batches that are stopped

A batch looks for a request to stop before each file, and its watcher may make one after each. Up to
the first request it does what it would do undisturbed, and from then on nothing. So what it reports
is the report on its first files, and its counters add up for these.
-/

namespace Coupling

/-! ### What is counted of a file -/

/-- The file could not be read, or its analysis ended in a fault. What a cache answers for is not
analyzed. -/
def Visit.failed (v : Visit) : Bool :=
  match v.disk.read v.path with
  | .error _ => true
  | .ok doc => v.outcome.hit != some true && !(doc.analyze v.limits v.path.text).isOk

/-- Lines of the file; one that failed counts none. -/
def Visit.lineCount (v : Visit) : Nat :=
  match v.disk.read v.path with
  | .error _ => 0
  | .ok doc => if v.failed then 0 else Text.lineCount doc.bytes

namespace Worker

/-- A file fails to be read, or its analysis fails, or its findings come from the cache or from the
analysis. -/
theorem outcome_cases (w : Worker) (d : Disk) (path : Path) :
    (∃ e, d.read path = .error e ∧
      (w.analyze d path).1 = .failed path (.unreadable path.text e.message)) ∨
    (∃ doc fault, d.read path = .ok doc ∧ doc.analyze w.limits path.text = .error fault ∧
      (w.analyze d path).1 = .faulted path fault) ∨
    ∃ doc findings hit, d.read path = .ok doc ∧
      (w.analyze d path).1 = ⟨path, findings, Text.lineCount doc.bytes, hit⟩ ∧
      (hit = some true ∨ doc.analyze w.limits path.text = .ok findings) ∧
      hit.isSome = w.cache.isSome := by
  cases hread : d.read path with
  | error e => exact .inl ⟨e, rfl, by rw [analyze_of_read_error hread]⟩
  | ok doc =>
    refine .inr ?_
    cases hcache : w.cache with
    | none =>
      rw [analyze_of_cache_none hcache hread]
      cases hresult : doc.analyze w.limits path.text with
      | error fault => exact .inl ⟨doc, fault, rfl, hresult, rfl⟩
      | ok findings => exact .inr ⟨doc, findings, none, rfl, rfl, .inr hresult, rfl⟩
    | some c =>
      rw [analyze_of_cache_some hcache hread rfl]
      cases hfound : (c.getBytes d path doc.bytes).found with
      | some findings => exact .inr ⟨doc, findings, some true, rfl, rfl, .inl rfl, rfl⟩
      | none =>
        cases hresult : doc.analyze w.limits path.text with
        | error fault => exact .inl ⟨doc, fault, rfl, hresult, rfl⟩
        | ok findings => exact .inr ⟨doc, findings, some false, rfl, rfl, .inr hresult, rfl⟩

theorem path_analyze (w : Worker) (d : Disk) (path : Path) :
    (w.analyze d path).1.path = path := by
  obtain ⟨_, _, h⟩ | ⟨_, _, _, _, h⟩ | ⟨_, _, _, _, h, _⟩ := w.outcome_cases d path
  · rw [h, Outcome.failed]
  · rw [h, Outcome.faulted, Outcome.failed]
  · rw [h]

theorem isSome_cache_analyze (w : Worker) (d : Disk) (path : Path) :
    (w.analyze d path).2.1.cache.isSome = w.cache.isSome := by
  cases hread : d.read path with
  | error e => rw [analyze_of_read_error hread]
  | ok doc =>
    cases hcache : w.cache with
    | none => rw [analyze_of_cache_none hcache hread, hcache]
    | some c =>
      rw [analyze_of_cache_some hcache hread rfl]
      split
      · rfl
      · split <;> rfl

/-- A worker with a cache marks a hit or a miss, unless the file failed. -/
theorem hit_eq_none_iff_failed {w : Worker} (hw : w.cache.isSome) (d : Disk) (path : Path) :
    (w.visit d path).outcome.hit = none ↔ (w.visit d path).failed = true := by
  obtain ⟨_, hread, h⟩ | ⟨_, _, hread, hresult, h⟩ | ⟨_, _, hit, hread, h, hresult, hasked⟩ :=
    w.outcome_cases d path
  · simp [Visit.failed, visit, hread, h, Outcome.failed]
  · simp [Visit.failed, visit, hread, hresult, h, Outcome.faulted, Outcome.failed, Except.isOk,
      Except.toBool]
  · have hmark : hit ≠ none := by
      rintro rfl
      simp [hw] at hasked
    rcases hresult with rfl | hresult
    · simp [Visit.failed, visit, hread, h]
    · simp [Visit.failed, visit, hread, h, hresult, hmark, Except.isOk, Except.toBool]

theorem lines_visit (w : Worker) (d : Disk) (path : Path) :
    (w.visit d path).outcome.lines = (w.visit d path).lineCount := by
  obtain ⟨_, hread, h⟩ | ⟨_, _, hread, hresult, h⟩ | ⟨_, _, hit, hread, h, hresult, _⟩ :=
    w.outcome_cases d path
  · simp [Visit.lineCount, visit, hread, h, Outcome.failed]
  · simp [Visit.lineCount, Visit.failed, visit, hread, hresult, h, Outcome.faulted, Outcome.failed,
      Except.isOk, Except.toBool]
  · rcases hresult with rfl | hresult
    · simp [Visit.lineCount, Visit.failed, visit, hread, h]
    · simp [Visit.lineCount, Visit.failed, visit, hread, h, hresult, Except.isOk, Except.toBool]

end Worker

/-- The counters of a report, each on its own. -/
theorem Report.meter_eq_counts (r : Report) :
    r.meter = {
      files := r.outcomes.length
      lines := (r.outcomes.map (·.lines)).sum
      hits := r.outcomes.countP (·.hit = some true)
      misses := r.outcomes.countP (·.hit = some false) } := by
  have hcounts : ∀ (outcomes : List Outcome) (m : Meter),
      outcomes.foldl (fun m o => m.record o.lines o.hit) m = {
        files := m.files + outcomes.length
        lines := m.lines + (outcomes.map (·.lines)).sum
        hits := m.hits + outcomes.countP (·.hit = some true)
        misses := m.misses + outcomes.countP (·.hit = some false) } := by
    intro outcomes
    induction outcomes with
    | nil => simp
    | cons o outcomes ih =>
      intro m
      rw [List.foldl_cons, ih, Meter.record, List.length_cons, List.map_cons, List.sum_cons,
        List.countP_cons, List.countP_cons, Meter.mk.injEq]
      simp only [decide_eq_true_eq]
      omega
  rw [meter, hcounts]
  simp

/-- The files of a report are numbered from one. -/
theorem Report.progress_eq_zipIdx (r : Report) :
    r.progress = ((r.outcomes.map (·.path)).zipIdx 1).map (fun x => ⟨x.2, r.total, x.1⟩) := by
  refine List.ext_getElem? fun i => ?_
  simp only [progress, List.getElem?_map, List.getElem?_zipIdx, Option.map_map]
  refine congrArg (Option.map · r.outcomes[i]?) (funext fun o => ?_)
  show (⟨0 + i + 1, r.total, o.path⟩ : Progress) = ⟨1 + i, r.total, o.path⟩
  rw [Nat.zero_add, Nat.add_comm]

namespace Batch

variable {watcher : Progress → Bool} {total : Nat}

/-! ### Runs that nobody stops -/

namespace Run

/-- What the watcher is told during a run. -/
def told (watcher : Progress → Bool) (total : Nat) : Run → List Path → List Progress
  | _, [] => []
  | r, path :: files =>
    if r.stopRequested then []
    else ⟨r.outcomes.length + 1, total, (r.worker.analyze r.disk path).1.path⟩ ::
      told watcher total (r.advance watcher total path) files

theorem progress_foldl (stopRequested : Bool) (workers : Option Nat) (parallel : Bool) (r : Run)
    (files : List Path) :
    (⟨total, (files.foldl (advance watcher total) r).outcomes, stopRequested, workers,
        parallel⟩ : Report).progress =
      (⟨total, r.outcomes, stopRequested, workers, parallel⟩ : Report).progress ++
        r.told watcher total files := by
  induction files generalizing r with
  | nil => rw [List.foldl_nil, told, List.append_nil]
  | cons path files ih =>
    by_cases hstop : r.stopRequested = true
    · rw [foldl_advance_of_stopRequested hstop, told, if_pos hstop, List.append_nil]
    · rw [List.foldl_cons, ih, told, if_neg hstop, advance_of_go hstop]
      simp [Report.progress, List.zipIdx_append]

/-- A run whose watcher is content goes on as one without a watcher. -/
theorem foldl_advance_of_quiet {r : Run} (hgo : r.stopRequested = false) {files : List Path}
    (hquiet : ∀ i path, files[i]? = some path →
      watcher ⟨r.outcomes.length + i + 1, total, path⟩ = false) :
    files.foldl (advance watcher total) r = files.foldl (advance (fun _ => false) 0) r ∧
      (files.foldl (advance watcher total) r).stopRequested = false := by
  induction files generalizing r with
  | nil => exact ⟨rfl, hgo⟩
  | cons path files ih =>
    have hcontinue : ¬ r.stopRequested = true := by simp [hgo]
    have hnext : r.advance watcher total path = r.advance (fun _ => false) 0 path := by
      rw [advance_of_go hcontinue, advance_of_go hcontinue, Worker.path_analyze]
      exact congrArg (Run.mk _ · _ _) (hquiet 0 path rfl)
    rw [List.foldl_cons, List.foldl_cons, ← hnext]
    refine ih ?_ fun i later hlater => ?_
    · rw [hnext, advance_of_go hcontinue]
    · have hcall := hquiet (i + 1) later hlater
      rw [advance_of_go hcontinue, List.length_append, List.length_singleton]
      rwa [Nat.add_right_comm _ 1 i, Nat.add_assoc _ i 1]

/-- The file at which a stop is requested is the last that a run takes up. -/
theorem foldl_advance_of_stop {r : Run} {first : List Path} {path : Path}
    (hgo : (first.foldl (advance watcher total) r).stopRequested = false)
    (hstop : watcher ⟨(first.foldl (advance watcher total) r).outcomes.length + 1, total, path⟩ =
      true) (rest : List Path) :
    (first ++ path :: rest).foldl (advance watcher total) r =
        (first.foldl (advance watcher total) r).advance watcher total path ∧
      ((first.foldl (advance watcher total) r).advance watcher total path).stopRequested =
        true := by
  have hcontinue : ¬ (first.foldl (advance watcher total) r).stopRequested = true := by simp [hgo]
  have hstopped : ((first.foldl (advance watcher total) r).advance watcher total
      path).stopRequested = true := by
    rw [advance_of_go hcontinue, Worker.path_analyze]
    exact hstop
  refine ⟨?_, hstopped⟩
  rw [List.foldl_append, List.foldl_cons, foldl_advance_of_stopRequested hstopped]

end Run

/-! ### Points at which a batch stops -/

/-- The same batch with nobody to stop it. -/
def undisturbed (b : Batch) : Batch := { b with stopRequested := false, watcher := fun _ => false }

/-- No stop is requested before or after any of the first `k` files. -/
def Quiet (b : Batch) (files : List Path) (k : Nat) : Prop :=
  b.stopRequested = false ∧
    ∀ i < k, ∀ path, files[i]? = some path → b.watcher ⟨i + 1, files.length, path⟩ = false

/-- The number of files after which a stop is requested for the first time, if at all. -/
inductive StopsAfter (b : Batch) (files : List Path) : Nat → Prop where
  | before (hstop : b.stopRequested = true) : StopsAfter b files 0
  | during {k : Nat} {path : Path} (hquiet : b.Quiet files k) (hpath : files[k]? = some path)
      (hstop : b.watcher ⟨k + 1, files.length, path⟩ = true) : StopsAfter b files (k + 1)
  | never (hquiet : b.Quiet files files.length) : StopsAfter b files files.length

variable {b : Batch} {files : List Path} {k : Nat}

theorem StopsAfter.le_length (h : b.StopsAfter files k) : k ≤ files.length := by
  cases h with
  | before => exact Nat.zero_le _
  | during _ hpath => exact (List.getElem?_eq_some_iff.mp hpath).1
  | never => exact Nat.le_refl _

/-- A run through the first `k` files, after which nobody stops it. -/
theorem Quiet.foldl_take (h : b.Quiet files k) (d : Disk) :
    (files.take k).foldl (Run.advance b.watcher files.length) (b.begin d) =
        (files.take k).foldl (Run.advance (fun _ => false) 0) (b.undisturbed.begin d) ∧
      ((files.take k).foldl (Run.advance b.watcher files.length) (b.begin d)).stopRequested =
        false := by
  have hbegin : b.undisturbed.begin d = b.begin d := by
    rw [begin, begin, h.1]
    rfl
  rw [hbegin]
  refine Run.foldl_advance_of_quiet h.1 fun i path hpath => ?_
  rw [List.getElem?_take, Option.ite_none_right_eq_some] at hpath
  have hcall := h.2 i hpath.1 path hpath.2
  rwa [begin, List.length_nil, Nat.zero_add]

theorem length_outcomes_undisturbed (b : Batch) (d : Disk) (files : List Path) :
    (files.foldl (Run.advance (fun _ => false) 0) (b.undisturbed.begin d)).outcomes.length =
      files.length := by
  have hpaths : ((b.undisturbed.begin d).visits (fun _ => false) 0 files).map Visit.path = files :=
    Run.paths_visits_of_unwatched (fun _ => rfl) rfl files
  have hlength := congrArg List.length hpaths
  rw [List.length_map] at hlength
  rw [Run.outcomes_foldl, List.length_append, List.length_map, hlength]
  exact Nat.zero_add _

/-- The file during which a stop is requested is the last one. -/
theorem StopsAfter.foldl_advance (h : b.StopsAfter files k) (d : Disk) :
    (files.foldl (Run.advance b.watcher files.length) (b.begin d)).outcomes =
        ((files.take k).foldl (Run.advance (fun _ => false) 0) (b.undisturbed.begin d)).outcomes ∧
      ((files.foldl (Run.advance b.watcher files.length) (b.begin d)).stopRequested = true ∨
        k = files.length) := by
  cases h with
  | before hstop =>
    rw [Run.foldl_advance_of_stopRequested hstop]
    exact ⟨rfl, .inl hstop⟩
  | @during k path hquiet hpath hstop =>
    obtain ⟨hlt, rfl⟩ := List.getElem?_eq_some_iff.mp hpath
    obtain ⟨hfirst, hgo⟩ := hquiet.foldl_take d
    have hlength := b.length_outcomes_undisturbed d (files.take k)
    rw [← hfirst, List.length_take_of_le hlt.le] at hlength
    obtain ⟨hlast, hstopped⟩ := Run.foldl_advance_of_stop hgo (by rw [hlength]; exact hstop)
      (files.drop (k + 1))
    rw [← List.drop_eq_getElem_cons hlt, List.take_append_drop] at hlast
    rw [hlast, List.take_succ_eq_append_getElem hlt, List.foldl_append, List.foldl_cons,
      List.foldl_nil, ← hfirst]
    refine ⟨?_, .inl hstopped⟩
    rw [Run.advance_of_go (by simp [hgo]), Run.advance_of_go (by simp [hgo])]
  | never hquiet =>
    obtain ⟨hfirst, _⟩ := hquiet.foldl_take d
    rw [List.take_length] at hfirst ⊢
    rw [hfirst]
    exact ⟨rfl, .inr rfl⟩

/-! ### Reports -/

/-- What the watcher of a batch is told. -/
def told (b : Batch) (d : Disk) (files : List Path) : List Progress :=
  (b.begin d).told b.watcher files.length files

theorem progress_eq_told (b : Batch) (d : Disk) (files : List Path) :
    (b.runSequential d files).report.progress = b.told d files :=
  Run.progress_foldl _ _ _ (b.begin d) files

theorem lines_outcomes (b : Batch) (d : Disk) (files : List Path) :
    ((b.visits d files).map Visit.outcome).map (·.lines) =
      (b.visits d files).map Visit.lineCount := by
  rw [List.map_map]
  refine List.map_congr_left fun v hv => ?_
  obtain ⟨w, _, hvisit⟩ := Run.exists_worker_of_mem_visits hv
  rw [hvisit]
  exact w.lines_visit v.disk v.path

theorem paths_outcomes (b : Batch) (d : Disk) (files : List Path) :
    ((b.visits d files).map Visit.outcome).map (·.path) = (b.visits d files).map Visit.path := by
  rw [List.map_map]
  refine List.map_congr_left fun v hv => ?_
  obtain ⟨w, _, hvisit⟩ := Run.exists_worker_of_mem_visits hv
  rw [hvisit]
  exact w.path_analyze v.disk v.path

/-- With a cache, each file of a batch is a hit, a miss or a failure. -/
theorem hits_add_misses_add_failed (b : Batch) (d : Disk) (files : List Path)
    (hcache : (b.worker d).1.cache.isSome) :
    ((b.visits d files).map Visit.outcome).countP (·.hit = some true) +
        ((b.visits d files).map Visit.outcome).countP (·.hit = some false) +
      (b.visits d files).countP Visit.failed = (b.visits d files).length := by
  have hmarks : ∀ v ∈ b.visits d files, v.outcome.hit = none ↔ v.failed = true := by
    obtain ⟨_, hvisits⟩ := Run.invariant (P := fun w _ => w.cache.isSome) (r := b.begin d)
      (fun w d path _ hw => (w.isSome_cache_analyze d path).trans hw) hcache
      (List.Subset.refl (b.visits d files))
    intro v hv
    obtain ⟨w, hw, hvisit⟩ := hvisits v hv
    rw [hvisit]
    exact Worker.hit_eq_none_iff_failed hw v.disk v.path
  generalize b.visits d files = visits at hmarks
  induction visits with
  | nil => rfl
  | cons v visits ih =>
    have hv := hmarks v List.mem_cons_self
    have hrest := ih fun u hu => hmarks u (List.mem_cons_of_mem _ hu)
    rw [List.map_cons, List.countP_cons, List.countP_cons, List.countP_cons, List.length_cons]
    cases hhit : v.outcome.hit with
    | none =>
      simp only [hv.mp hhit, reduceCtorEq, decide_false, ↓reduceIte]
      omega
    | some hit =>
      have hworks : v.failed = false := by simpa [hhit] using hv
      cases hit <;> simp only [hworks, Option.some.injEq, reduceCtorEq, decide_false, decide_true,
        ↓reduceIte] <;> omega

/-- A batch that is stopped after some files reports what it would report on these undisturbed. -/
theorem stopped_batch_is_batch_of_first_files (b : Batch) (d : Disk) (files : List Path)
    (k : Nat) (hstops : b.StopsAfter files k) :
    let report := (b.runSequential d files).report
    let visits := b.undisturbed.visits d (files.take k)
    k ≤ files.length ∧ visits.map Visit.path = files.take k ∧
    report.outcomes = visits.map Visit.outcome ∧
    report.findings = visits.flatMap (·.outcome.findings) ∧
    b.told d files = ((files.take k).zipIdx 1).map (fun x => ⟨x.2, files.length, x.1⟩) ∧
    report.meter.files = k ∧
    report.meter.lines = (visits.map Visit.lineCount).sum ∧
    ((b.worker d).1.cache.isSome →
      report.meter.hits + report.meter.misses + visits.countP Visit.failed = k) ∧
    (report.stopped = true ↔ k < files.length) := by
  intro report visits
  obtain ⟨houtcomes, hstop⟩ := hstops.foldl_advance d
  have houtcomes : report.outcomes = visits.map Visit.outcome :=
    houtcomes.trans (outcomes_runSequential b.undisturbed d (files.take k))
  have hpaths : visits.map Visit.path = files.take k :=
    Run.paths_visits_of_unwatched (fun _ => rfl) rfl (files.take k)
  have hlength : visits.length = k := by
    have hlengths := congrArg List.length hpaths
    rwa [List.length_map, List.length_take_of_le hstops.le_length] at hlengths
  have hnames : report.outcomes.map (·.path) = files.take k := by
    rw [houtcomes]
    exact (paths_outcomes _ _ _).trans hpaths
  have hmeter := report.meter_eq_counts
  rw [houtcomes] at hmeter
  refine ⟨hstops.le_length, hpaths, houtcomes, ?_, ?_, ?_, ?_, fun hcache => ?_, ?_⟩
  · rw [Report.findings, houtcomes, List.flatMap_map]
  · have hnumbered := report.progress_eq_zipIdx
    rw [hnames, progress_eq_told] at hnumbered
    exact hnumbered
  · rw [hmeter, List.length_map, hlength]
  · rw [hmeter, lines_outcomes]
  · rw [hmeter, ← hlength]
    exact hits_add_misses_add_failed b.undisturbed d (files.take k) hcache
  · have hfewer : report.outcomes.length = k := by rw [houtcomes, List.length_map, hlength]
    have htotal : report.total = files.length := rfl
    rw [Report.stopped, Bool.and_eq_true, decide_eq_true_eq, hfewer, htotal]
    refine and_iff_right_of_imp fun hlt => ?_
    exact hstop.resolve_right hlt.ne

/-! ### A batch that is stopped at a file it cannot read -/

namespace Desk

/-- The place of the results under the limits of the note. -/
def shelf : Location := ["work", "results", .ofText (directoryName (Site.Note.limits 1))]

/-- A disk with a note and a directory for results. -/
def disk : Disk := (Site.Note.disk.put Site.Note.results .directory).put shelf .directory

/-- Where the results are kept. -/
def directory : Path := Paths.join "results" (directoryName (Site.Note.limits 1))

theorem node?_disk (here : Location) :
    disk.node? here =
      if here = shelf then some .directory
      else if here = Site.Note.results then some .directory
      else Site.Note.disk.node? here := by
  rw [disk, Disk.node?_put _ (by simp [shelf]), Disk.node?_put _ (by decide)]

theorem node?_work : disk.node? Site.Note.work = some .directory := by
  rw [node?_disk, if_neg (by simp [shelf, Site.Note.work]), if_neg (by decide), Site.Note.disk,
    Disk.node?_put _ (by decide), if_neg (by decide), Disk.node?_put _ (by decide), if_pos rfl]

theorem opens : disk.Opens directory := by
  have hresults : disk.Opens "results" := by
    refine ⟨Site.Note.results,
      Disk.locate_of_isName (Disk.isName_ofText (by decide) (by decide)) node?_work, ?_⟩
    rw [node?_disk, if_neg (by simp [shelf, Site.Note.results]), if_pos rfl]
  have hshelf : disk.child? "results" (directoryName (Site.Note.limits 1)) = some .directory := by
    have hplace : Disk.destination disk.workDir "results" = Site.Note.results := by
      decide +kernel
    rw [Disk.child?, hplace, node?_disk]
    exact if_pos rfl
  exact ⟨_, Disk.locate_join hresults (isName_directoryName _), hshelf⟩

/-- A batch with someone who stops it after two files. -/
def batch : Batch := { Site.Note.batch 1 with watcher := fun p => p.completed == 2 }

def listed : List Path := ["note.py", "gone.py", "note.py"]

theorem stopped_batch_is_batch_of_first_files_desk :
    batch.StopsAfter listed 2 ∧ batch.told disk listed = [⟨1, 3, "note.py"⟩, ⟨2, 3, "gone.py"⟩] ∧
      (batch.runSequential disk listed).report.meter.hits +
          (batch.runSequential disk listed).report.meter.misses +
        (batch.undisturbed.visits disk (listed.take 2)).countP Visit.failed = 2 ∧
      (batch.runSequential disk listed).report.stopped = true := by
  have hquiet : batch.Quiet listed 1 := by
    refine ⟨rfl, fun i hi path _ => ?_⟩
    obtain rfl : i = 0 := by omega
    rfl
  have hstops : batch.StopsAfter listed 2 := .during hquiet rfl rfl
  have hcache : (batch.worker disk).1.cache.isSome := by
    have hdirectory : batch.cacheDirectory? = some directory := rfl
    rw [worker_eq hdirectory opens.makeDirectories_eq]
    rfl
  obtain ⟨_, _, _, _, htold, _, _, hcounts, hstopped⟩ :=
    stopped_batch_is_batch_of_first_files batch disk listed 2 hstops
  exact ⟨hstops, htold, hcounts hcache, hstopped.mpr (by decide)⟩

end Desk

end Batch

end Coupling
