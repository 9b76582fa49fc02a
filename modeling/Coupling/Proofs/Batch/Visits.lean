import Coupling.Proofs.Batch.Worker
import Mathlib.Data.List.Infix

/-!
# The files that a batch takes up

A batch takes up its files in order until it is stopped. What a worker preserves with every file
holds throughout a run: at each file and at the end.
-/

namespace Coupling

/-- A file that a worker took up: the limits, the disk at that moment and what came of it. -/
structure Visit where
  limits : Limits
  disk : Disk
  path : Path
  outcome : Outcome

def Worker.visit (w : Worker) (d : Disk) (path : Path) : Visit :=
  ⟨w.limits, d, path, (w.analyze d path).1⟩

namespace Batch

variable {watcher : Progress → Bool} {total : Nat}

namespace Run

/-- The files that a run takes up. -/
def visits (watcher : Progress → Bool) (total : Nat) : Run → List Path → List Visit
  | _, [] => []
  | r, path :: files =>
    if r.stopRequested then []
    else r.worker.visit r.disk path :: visits watcher total (r.advance watcher total path) files

theorem advance_of_go {r : Run} (h : ¬ r.stopRequested = true) (path : Path) :
    r.advance watcher total path =
      ⟨r.outcomes ++ [(r.worker.analyze r.disk path).1],
        watcher ⟨r.outcomes.length + 1, total, (r.worker.analyze r.disk path).1.path⟩,
        (r.worker.analyze r.disk path).2.1, (r.worker.analyze r.disk path).2.2⟩ := by
  rw [advance, if_neg h]
  simp

theorem foldl_advance_of_stopRequested {r : Run} (h : r.stopRequested = true)
    (files : List Path) : files.foldl (advance watcher total) r = r := by
  induction files with
  | nil => rfl
  | cons path files ih => rw [List.foldl_cons, advance, if_pos h, ih]

/-- The outcomes of a run are those of the files it takes up. -/
theorem outcomes_foldl (r : Run) (files : List Path) :
    (files.foldl (advance watcher total) r).outcomes =
      r.outcomes ++ (r.visits watcher total files).map Visit.outcome := by
  induction files generalizing r with
  | nil => simp [visits]
  | cons path files ih =>
    by_cases hstop : r.stopRequested = true
    · rw [foldl_advance_of_stopRequested hstop, visits, if_pos hstop, List.map_nil,
        List.append_nil]
    · rw [List.foldl_cons, ih, visits, if_neg hstop, List.map_cons, advance_of_go hstop,
        List.append_assoc]
      rfl

/-- What every worker preserves holds at each file of a run and at its end. The steps may use that
their files are among some that hold all files of the run. -/
theorem invariant {P : Worker → Disk → Prop} {all : List Visit}
    (hstep : ∀ w d path, w.visit d path ∈ all → P w d →
      P (w.analyze d path).2.1 (w.analyze d path).2.2)
    {r : Run} (hr : P r.worker r.disk) {files : List Path}
    (hall : r.visits watcher total files ⊆ all) :
    P (files.foldl (advance watcher total) r).worker (files.foldl (advance watcher total) r).disk ∧
      ∀ v ∈ r.visits watcher total files, ∃ w, P w v.disk ∧ v = w.visit v.disk v.path := by
  induction files generalizing r with
  | nil => exact ⟨hr, by simp [visits]⟩
  | cons path files ih =>
    by_cases hstop : r.stopRequested = true
    · rw [foldl_advance_of_stopRequested hstop, visits, if_pos hstop]
      exact ⟨hr, by simp⟩
    · rw [visits, if_neg hstop] at hall ⊢
      have hnext : P (r.advance watcher total path).worker (r.advance watcher total path).disk := by
        rw [advance_of_go hstop]
        exact hstep _ _ _ (hall List.mem_cons_self) hr
      obtain ⟨hend, hrest⟩ := ih hnext fun v hv => hall (List.mem_cons_of_mem _ hv)
      refine ⟨hend, fun v hv => ?_⟩
      rcases List.mem_cons.mp hv with rfl | hv
      · exact ⟨r.worker, hr, rfl⟩
      · exact hrest v hv

theorem exists_worker_of_mem_visits {r : Run} {files : List Path} {v : Visit}
    (hv : v ∈ r.visits watcher total files) :
    ∃ w : Worker, w.limits = r.worker.limits ∧ v = w.visit v.disk v.path :=
  (invariant (P := fun w _ => w.limits = r.worker.limits)
    (fun w d path _ hw => (w.limits_analyze d path).trans hw) rfl (List.Subset.refl _)).2 v hv

theorem paths_visits_prefix (r : Run) (files : List Path) :
    (r.visits watcher total files).map Visit.path <+: files := by
  induction files generalizing r with
  | nil => exact List.prefix_rfl
  | cons path files ih =>
    rw [visits]
    split
    · exact List.nil_prefix
    · exact (List.prefix_cons_inj path).mpr (ih _)

/-- A run that nobody stops takes up all files. -/
theorem paths_visits_of_unwatched (hwatcher : ∀ p, watcher p = false) {r : Run}
    (hgo : r.stopRequested = false) (files : List Path) :
    (r.visits watcher total files).map Visit.path = files := by
  induction files generalizing r with
  | nil => rfl
  | cons path files ih =>
    have hcontinue : ¬ r.stopRequested = true := by simp [hgo]
    have hnext : (r.advance watcher total path).stopRequested = false := by
      rw [advance_of_go hcontinue]
      exact hwatcher _
    rw [visits, if_neg hcontinue, List.map_cons, ih hnext]
    rfl

end Run

/-! ### Whole batches -/

theorem limits_worker (b : Batch) (d : Disk) : (b.worker d).1.limits = b.settings.limits := by
  unfold worker
  split
  · rfl
  · split <;> rfl

/-- A batch whose directory can be made starts with an empty cache there. -/
theorem worker_eq {b : Batch} {d d₀ : Disk} {directory : Path}
    (hdirectory : b.cacheDirectory? = some directory)
    (hmake : d.makeDirectories directory = .ok d₀) :
    b.worker d = ({
      limits := b.settings.limits
      cache := some ⟨directory, max b.settings.cache.memoryCapacity 1, ∅, [], 0, 0⟩ }, d₀) := by
  simp only [worker, hdirectory, ResultCache.create, hmake, Except.map]

/-- A batch before its first file. -/
def begin (b : Batch) (d : Disk) : Run := ⟨[], b.stopRequested, (b.worker d).1, (b.worker d).2⟩

/-- The files that a batch takes up. -/
def visits (b : Batch) (d : Disk) (files : List Path) : List Visit :=
  (b.begin d).visits b.watcher files.length files

theorem outcomes_runSequential (b : Batch) (d : Disk) (files : List Path) :
    (b.runSequential d files).report.outcomes = (b.visits d files).map Visit.outcome :=
  Run.outcomes_foldl (b.begin d) files

/-- The same batch without a cache, and with nobody to stop it. -/
def uncached (b : Batch) : Batch where
  settings := { b.settings with cache := { b.settings.cache with enabled := false } }
  environment := b.environment

theorem outcomes_uncached (b : Batch) (d : Disk) (path : Path) :
    (b.uncached.runSequential d [path]).report.outcomes =
      [(({ limits := b.settings.limits } : Worker).analyze d path).1] := rfl

end Batch

end Coupling
