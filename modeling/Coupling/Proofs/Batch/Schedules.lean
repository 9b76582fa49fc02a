import Coupling.Batch.Pool
import Coupling.Proofs.Batch.Order
import Coupling.Proofs.Batch.Visits
import Coupling.Proofs.Finding.Sites
import Mathlib.Data.List.Nodup

/-!
# Schedules of a batch

A schedule of a pool may give any file to any thread at any time and deliver the outcomes in any
order. It always comes to an end, and without a cache the outcomes it ends with are those of the
files taken by themselves, up to their order. A worker keeps the number of lines of its last file,
and that is all that passes from a file to the next; it is set before it is read again.
-/

namespace Coupling

/-! ### Files by themselves -/

/-- What comes of a file that is analyzed by itself. -/
def Disk.outcome (d : Disk) (l : Limits) (path : Path) : Outcome :=
  match d.read path with
  | .error e => .failed path (.unreadable path.text e.message)
  | .ok doc =>
    match doc.analyze l path.text with
    | .error fault => .faulted path fault
    | .ok findings => ⟨path, findings, Text.lineCount doc.bytes, none⟩

/-- Whatever a worker without a cache has done before, it finds what a file shows by itself. -/
theorem Worker.analyze_eq_outcome {w : Worker} (hcache : w.cache = none) (d : Disk)
    (path : Path) :
    ∃ u, w.analyze d path = (d.outcome w.limits path, u, d) ∧ u.limits = w.limits ∧
      u.cache = none := by
  unfold Disk.outcome
  cases hread : d.read path with
  | error e => exact ⟨w, analyze_of_read_error hread, rfl, hcache⟩
  | ok doc => exact ⟨_, analyze_of_cache_none hcache hread, rfl, hcache⟩

theorem Disk.path_of_mem_outcome {d : Disk} {l : Limits} {path : Path} {v : Finding}
    (hv : v ∈ (d.outcome l path).findings) : v.path = path.text := by
  unfold outcome at hv
  split at hv
  · rw [List.mem_singleton.mp hv]
    rfl
  · split at hv
    · rw [List.mem_singleton.mp hv]
      rfl
    · rename_i hreturns
      obtain ⟨kind, hgenuine⟩ := Syntax.Document.genuine_of_mem_analyze hreturns hv
      exact hgenuine.path_eq

theorem Disk.nodup_outcome (d : Disk) (l : Limits) (path : Path) :
    ((d.outcome l path).findings.map (·.id)).Nodup := by
  unfold outcome
  split
  · simp [Outcome.failed]
  · split
    · simp [Outcome.faulted, Outcome.failed]
    · rename_i hreturns
      exact Syntax.Document.nodup_analyze hreturns

/-- Files that are shown alike and read alike show the same. -/
theorem Disk.findings_outcome_eq {d : Disk} {path other : Path} (htext : path.text = other.text)
    (hread : d.read path = d.read other) (l : Limits) :
    (d.outcome l path).findings = (d.outcome l other).findings := by
  unfold outcome
  rw [hread, htext]
  cases d.read other with
  | error e => rfl
  | ok doc => cases hresult : doc.analyze l other.text <;> simp [hresult, Outcome.faulted,
      Outcome.failed, htext]

/-! ### Moves -/

namespace Pool

variable {b : Batch} {total : Nat} {p q : Pool}

/-- The files that threads are busy with. -/
def busy (slots : List Slot) : List Path := slots.filterMap (·.file)

/-- All that a move can do. -/
theorem step_cases {move : Move} (h : p.step b total move = some q) :
    (∃ thread file worker path, p.slots[thread]? = some ⟨worker, none⟩ ∧
      p.waiting[file]? = some path ∧
      q = { p with
        waiting := p.waiting.eraseIdx file
        slots := if p.stopRequested then p.slots else p.slots.set thread ⟨worker, some path⟩ }) ∨
    (∃ thread worker path outcome after disk, p.slots[thread]? = some ⟨worker, some path⟩ ∧
      (workerOf b p.disk worker).1.analyze (workerOf b p.disk worker).2 path =
        (outcome, after, disk) ∧
      q = { p with
        slots := p.slots.set thread ⟨some after, none⟩
        sent := p.sent ++ [outcome]
        disk := disk }) ∨
    ∃ index arrived, p.sent[index]? = some arrived ∧
      q = { p with
        sent := p.sent.eraseIdx index
        outcomes := p.outcomes ++ [arrived]
        stopRequested := p.stopRequested ||
          b.watcher ⟨(p.outcomes ++ [arrived]).length, total, arrived.path⟩ } := by
  cases move with
  | take thread file =>
    simp only [step] at h
    split at h
    · rename_i worker path hslot hpath
      exact .inl ⟨thread, file, worker, path, hslot, hpath, (Option.some.inj h).symm⟩
    · simp at h
  | finish thread =>
    simp only [step] at h
    split at h
    · rename_i worker path hslot
      exact .inr (.inl ⟨thread, worker, path, _, _, _, hslot, rfl, (Option.some.inj h).symm⟩)
    · simp at h
  | deliver index =>
    simp only [step] at h
    split at h
    · rename_i arrived harrived
      exact .inr (.inr ⟨index, arrived, harrived, (Option.some.inj h).symm⟩)
    · simp at h

theorem busy_set {slots : List Slot} {thread : Nat} {slot : Slot} (new : Slot)
    (h : slots[thread]? = some slot) :
    (slot.file.toList ++ busy (slots.set thread new)).Perm (new.file.toList ++ busy slots) := by
  obtain ⟨hlt, rfl⟩ := List.getElem?_eq_some_iff.mp h
  have hold : (busy slots).Perm (slots[thread].file.toList ++ busy (slots.eraseIdx thread)) := by
    refine ((List.getElem_cons_eraseIdx_perm hlt).symm.filterMap _).trans ?_
    cases hfile : slots[thread].file <;> simp [busy, hfile]
  have hnew : (busy (slots.set thread new)).Perm
      (new.file.toList ++ busy (slots.eraseIdx thread)) := by
    refine ((List.set_perm_cons_eraseIdx hlt new).filterMap _).trans ?_
    cases hfile : new.file <;> simp [busy, hfile]
  exact (hnew.append_left _).trans
    ((List.perm_append_comm_assoc ..).trans (hold.symm.append_left _))

/-! ### Schedules come to an end -/

/-- Moves that are left, at most. -/
def left (p : Pool) : Nat := 3 * p.waiting.length + 2 * (busy p.slots).length + p.sent.length

theorem left_step {move : Move} (h : p.step b total move = some q) : q.left < p.left := by
  rcases step_cases h with ⟨thread, file, worker, path, hslot, hpath, rfl⟩ |
    ⟨thread, worker, path, outcome, after, disk, hslot, _, rfl⟩ | ⟨index, arrived, harrived, rfl⟩
  · obtain ⟨hlt, _⟩ := List.getElem?_eq_some_iff.mp hpath
    have hwaiting := List.length_eraseIdx_add_one hlt
    have hbusy := (busy_set ⟨worker, some path⟩ hslot).length_eq
    simp only [left, List.length_cons, List.length_append, Option.toList_none, Option.toList_some,
      List.length_nil] at hbusy ⊢
    split <;> omega
  · have hbusy := (busy_set ⟨some after, none⟩ hslot).length_eq
    simp only [left, List.length_cons, List.length_append, Option.toList_none, Option.toList_some,
      List.length_nil] at hbusy ⊢
    omega
  · obtain ⟨hlt, _⟩ := List.getElem?_eq_some_iff.mp harrived
    have hsent := List.length_eraseIdx_add_one hlt
    simp only [left]
    omega

/-- Every schedule can be completed. -/
theorem exists_run_stuck (b : Batch) (total : Nat) (p : Pool) :
    ∃ moves q, p.run b total moves = some q ∧ ∀ move, q.step b total move = none := by
  induction hleft : p.left using Nat.strongRecOn generalizing p with
  | ind left ih =>
    by_cases hmove : ∃ move q, p.step b total move = some q
    · obtain ⟨move, q, hstep⟩ := hmove
      obtain ⟨moves, r, hrun, hstuck⟩ := ih q.left (hleft ▸ left_step hstep) q rfl
      exact ⟨move :: moves, r, by rw [run, hstep]; exact hrun, hstuck⟩
    · refine ⟨[], p, rfl, fun move => ?_⟩
      cases hstep : p.step b total move with
      | none => rfl
      | some q => exact absurd ⟨move, q, hstep⟩ hmove

/-- No thread waits for another: if no move is possible, all is done. -/
theorem ended_of_stuck (hslots : p.slots ≠ []) (hstuck : ∀ move, p.step b total move = none) :
    p.Ended := by
  have hidle : ∀ slot ∈ p.slots, slot.file = none := by
    rintro ⟨worker, file⟩ hslot
    obtain ⟨thread, hthread⟩ := List.getElem?_of_mem hslot
    cases file with
    | none => rfl
    | some path =>
      have hfinish := hstuck (.finish thread)
      simp [step, hthread] at hfinish
  refine ⟨?_, hidle, ?_⟩
  · cases hwaiting : p.waiting with
    | nil => rfl
    | cons path waiting =>
      cases hfirst : p.slots with
      | nil => exact absurd hfirst hslots
      | cons slot slots =>
        obtain ⟨worker, file⟩ := slot
        have hfile : file = none := hidle ⟨worker, file⟩ (by rw [hfirst]; exact List.mem_cons_self)
        have htake := hstuck (.take 0 0)
        simp [step, hfirst, hwaiting, hfile] at htake
  · cases hsent : p.sent with
    | nil => rfl
    | cons arrived sent =>
      have hdeliver := hstuck (.deliver 0)
      simp [step, hsent] at hdeliver

theorem stuck_of_ended (h : p.Ended) (move : Move) : p.step b total move = none := by
  obtain ⟨hwaiting, hidle, hsent⟩ := h
  cases hstep : p.step b total move with
  | none => rfl
  | some q =>
    rcases step_cases hstep with ⟨_, _, _, _, _, hpath, _⟩ | ⟨_, _, _, _, _, _, hslot, _⟩ |
      ⟨_, _, harrived, _⟩
    · simp [hwaiting] at hpath
    · simpa using hidle _ (List.mem_of_getElem? hslot)
    · simp [hsent] at harrived

/-! ### What a schedule brings about -/

/-- No worker has a cache, nobody asked to stop, and the outcomes that are there and those that are
to come are the outcomes of the files by themselves. -/
structure Faithful (b : Batch) (d : Disk) (files : List Path) (p : Pool) : Prop where
  disk_eq : p.disk = d
  slots_ne : p.slots ≠ []
  unstopped : p.stopRequested = false
  uncached : ∀ slot ∈ p.slots, ∀ w, slot.worker = some w →
    w.limits = b.settings.limits ∧ w.cache = none
  outcomes_perm : ((p.waiting ++ busy p.slots).map (d.outcome b.settings.limits) ++
    (p.sent ++ p.outcomes)).Perm (files.map (d.outcome b.settings.limits))

variable {d : Disk} {files : List Path}

theorem faithful_start (hgo : b.stopRequested = false) (threads : Nat) :
    (start b d files threads).Faithful b d files where
  disk_eq := rfl
  slots_ne := by simp [start]
  unstopped := hgo
  uncached := by
    intro slot hslot w hw
    rw [(List.mem_replicate.mp hslot).2] at hw
    simp at hw
  outcomes_perm := by simp [start, busy]

theorem worker_uncached (hcache : b.settings.cache.enabled = false) (d : Disk) :
    b.worker d = ({ limits := b.settings.limits }, d) := by
  simp [Batch.worker, Batch.cacheDirectory?, hcache]

/-- The worker that a thread uses next has no cache either. -/
theorem workerOf_uncached (hcache : b.settings.cache.enabled = false) {worker : Option Worker}
    (hworker : ∀ w, worker = some w → w.limits = b.settings.limits ∧ w.cache = none) :
    (workerOf b d worker).1.limits = b.settings.limits ∧ (workerOf b d worker).1.cache = none ∧
      (workerOf b d worker).2 = d := by
  cases worker with
  | none =>
    rw [workerOf, worker_uncached hcache]
    exact ⟨rfl, rfl, rfl⟩
  | some w => exact ⟨(hworker w rfl).1, (hworker w rfl).2, rfl⟩

theorem Faithful.take (hp : p.Faithful b d files) {thread file : Nat} {worker : Option Worker}
    {path : Path} (hslot : p.slots[thread]? = some ⟨worker, none⟩)
    (hpath : p.waiting[file]? = some path) :
    { p with
      waiting := p.waiting.eraseIdx file
      slots := p.slots.set thread ⟨worker, some path⟩ }.Faithful b d files where
  disk_eq := hp.disk_eq
  slots_ne := by simpa [List.set_eq_nil_iff] using hp.slots_ne
  unstopped := hp.unstopped
  uncached := by
    intro slot hmem w hw
    rcases List.mem_or_eq_of_mem_set hmem with hmem | rfl
    · exact hp.uncached slot hmem w hw
    · exact hp.uncached _ (List.mem_of_getElem? hslot) w hw
  outcomes_perm := by
    have hbusy : (busy (p.slots.set thread ⟨worker, some path⟩)).Perm (path :: busy p.slots) :=
      busy_set ⟨worker, some path⟩ hslot
    have hfiles : (p.waiting.eraseIdx file ++ busy (p.slots.set thread ⟨worker, some path⟩)).Perm
        (p.waiting ++ busy p.slots) := by
      obtain ⟨hlt, rfl⟩ := List.getElem?_eq_some_iff.mp hpath
      exact (hbusy.append_left _).trans
        (List.perm_middle.trans ((List.getElem_cons_eraseIdx_perm hlt).append_right _))
    exact ((hfiles.map _).append_right _).trans hp.outcomes_perm

theorem Faithful.finish (hp : p.Faithful b d files) (hcache : b.settings.cache.enabled = false)
    {thread : Nat} {worker : Option Worker} {path : Path} {outcome : Outcome} {after : Worker}
    {disk : Disk} (hslot : p.slots[thread]? = some ⟨worker, some path⟩)
    (hanalyze : (workerOf b p.disk worker).1.analyze (workerOf b p.disk worker).2 path =
      (outcome, after, disk)) :
    { p with
      slots := p.slots.set thread ⟨some after, none⟩
      sent := p.sent ++ [outcome]
      disk := disk }.Faithful b d files := by
  obtain ⟨hlimits, hnone, hdisk⟩ := workerOf_uncached hcache (d := p.disk)
    (hp.uncached _ (List.mem_of_getElem? hslot))
  obtain ⟨u, hu, hulimits, hunone⟩ :=
    Worker.analyze_eq_outcome hnone (workerOf b p.disk worker).2 path
  rw [hu, Prod.mk.injEq, Prod.mk.injEq, hlimits, hdisk, hp.disk_eq] at hanalyze
  obtain ⟨rfl, rfl, rfl⟩ := hanalyze
  refine ⟨rfl, by simpa [List.set_eq_nil_iff] using hp.slots_ne, hp.unstopped, ?_, ?_⟩
  · intro slot hmem w hw
    rcases List.mem_or_eq_of_mem_set hmem with hmem | rfl
    · exact hp.uncached slot hmem w hw
    · rw [← Option.some.inj hw]
      exact ⟨hulimits.trans hlimits, hunone⟩
  · have hbusy : (path :: busy (p.slots.set thread ⟨some u, none⟩)).Perm (busy p.slots) :=
      busy_set ⟨some u, none⟩ hslot
    have hfiles : (path :: (p.waiting ++ busy (p.slots.set thread ⟨some u, none⟩))).Perm
        (p.waiting ++ busy p.slots) :=
      List.perm_middle.symm.trans (hbusy.append_left _)
    have hsent : (p.sent ++ [d.outcome b.settings.limits path] ++ p.outcomes).Perm
        (d.outcome b.settings.limits path :: (p.sent ++ p.outcomes)) :=
      (List.perm_append_singleton _ _).append_right _
    exact ((hsent.append_left _).trans List.perm_middle).trans
      (((hfiles.map _).append_right _).trans hp.outcomes_perm)

theorem Faithful.deliver (hp : p.Faithful b d files) {index : Nat} {arrived : Outcome}
    (harrived : p.sent[index]? = some arrived) :
    { p with
      sent := p.sent.eraseIdx index
      outcomes := p.outcomes ++ [arrived] }.Faithful b d files where
  disk_eq := hp.disk_eq
  slots_ne := hp.slots_ne
  unstopped := hp.unstopped
  uncached := hp.uncached
  outcomes_perm := by
    have hsent : (p.sent.eraseIdx index ++ (p.outcomes ++ [arrived])).Perm
        (p.sent ++ p.outcomes) := by
      obtain ⟨hlt, rfl⟩ := List.getElem?_eq_some_iff.mp harrived
      rw [← List.append_assoc]
      exact (List.perm_append_singleton _ _).trans
        ((List.getElem_cons_eraseIdx_perm hlt).append_right _)
    exact (hsent.append_left _).trans hp.outcomes_perm

theorem Faithful.step (hp : p.Faithful b d files) (hcache : b.settings.cache.enabled = false)
    (hwatcher : ∀ progress, b.watcher progress = false) {move : Move}
    (h : p.step b total move = some q) : q.Faithful b d files := by
  rcases step_cases h with ⟨thread, file, worker, path, hslot, hpath, rfl⟩ |
    ⟨thread, worker, path, outcome, after, disk, hslot, hanalyze, rfl⟩ |
    ⟨index, arrived, harrived, rfl⟩
  · rw [if_neg (by simp [hp.unstopped])]
    exact hp.take hslot hpath
  · exact hp.finish hcache hslot hanalyze
  · rw [hwatcher, Bool.or_false]
    exact hp.deliver harrived

theorem Faithful.run (hp : p.Faithful b d files) (hcache : b.settings.cache.enabled = false)
    (hwatcher : ∀ progress, b.watcher progress = false) {moves : List Move}
    (h : p.run b total moves = some q) : q.Faithful b d files := by
  induction moves generalizing p with
  | nil => exact Option.some.inj h ▸ hp
  | cons move moves ih =>
    rw [Pool.run] at h
    split at h
    · rename_i next hstep
      exact ih (hp.step hcache hwatcher hstep) h
    · simp at h

/-- A completed schedule has the outcomes of the files by themselves. -/
theorem Faithful.outcomes_of_ended (hp : p.Faithful b d files) (hended : p.Ended) :
    p.outcomes.Perm (files.map (d.outcome b.settings.limits)) := by
  obtain ⟨hwaiting, hidle, hsent⟩ := hended
  have hbusy : busy p.slots = [] := List.filterMap_eq_nil_iff.mpr hidle
  simpa [hwaiting, hbusy, hsent] using hp.outcomes_perm

/-! ### The schedule in the order of the list -/

/-- A thread that takes one file after the other goes through a batch as a single worker does. It
needs that worker, on that disk, only if it gets to a file. -/
theorem exists_run_inOrder (b : Batch) (total : Nat) {slots : List Slot}
    (hidle : ∀ slot ∈ slots, slot.file = none) (files : List Path) (r : Batch.Run)
    (worker : Option Worker) (d : Disk)
    (hready : if files.isEmpty || r.stopRequested then d = r.disk
      else workerOf b d worker = (r.worker, r.disk)) :
    ∃ moves q, run b total ⟨files, ⟨worker, none⟩ :: slots, [], r.outcomes, r.stopRequested, d⟩
        moves = some q ∧ q.Ended ∧
      q.outcomes = (files.foldl (Batch.Run.advance b.watcher total) r).outcomes ∧
      q.stopRequested = (files.foldl (Batch.Run.advance b.watcher total) r).stopRequested ∧
      q.disk = (files.foldl (Batch.Run.advance b.watcher total) r).disk := by
  induction files generalizing r worker d with
  | nil =>
    refine ⟨[], _, rfl, ⟨rfl, ?_, rfl⟩, rfl, rfl, by simpa using hready⟩
    intro slot hslot
    rcases List.mem_cons.mp hslot with rfl | hslot
    · rfl
    · exact hidle slot hslot
  | cons path files ih =>
    by_cases hstop : r.stopRequested = true
    · obtain ⟨moves, q, hrun, hended, hsame⟩ := ih r worker d (by simpa [hstop] using hready)
      refine ⟨.take 0 0 :: moves, q, ?_, hended, ?_⟩
      · simp only [run, step, hstop, List.getElem?_cons_zero, List.eraseIdx_cons_zero, if_true]
        rwa [hstop] at hrun
      · rwa [List.foldl_cons, Batch.Run.advance, if_pos hstop]
    · obtain ⟨moves, q, hrun, hended, hsame⟩ := ih (r.advance b.watcher total path)
        (some (r.advance b.watcher total path).worker) (r.advance b.watcher total path).disk
        (by simp [workerOf])
      refine ⟨.take 0 0 :: .finish 0 :: .deliver 0 :: moves, q, ?_, hended, hsame⟩
      rw [Batch.Run.advance_of_go hstop] at hrun
      rw [Bool.not_eq_true] at hstop
      have hworker : workerOf b d worker = (r.worker, r.disk) := by simpa [hstop] using hready
      simp only [run, step, hstop, hworker, List.getElem?_cons_zero, List.eraseIdx_cons_zero,
        List.set_cons_zero, List.nil_append, Bool.false_eq_true, if_false, Bool.false_or,
        List.length_append, List.length_cons, List.length_nil]
      exact hrun

/-- The order of the list is one of the schedules. -/
theorem exists_run_runParallel (b : Batch) (d : Disk) (files : List Path) (threads : Nat) :
    ∃ moves q, (start b d files threads).run b files.length moves = some q ∧ q.Ended ∧
      q.report b files.length = (b.runParallel d files).report ∧
      q.disk = (b.runParallel d files).disk := by
  obtain ⟨others, hothers⟩ : ∃ others, max threads 1 = others + 1 :=
    ⟨max threads 1 - 1, by omega⟩
  have hidle : ∀ slot ∈ List.replicate others ({} : Slot), slot.file = none := by
    intro slot hslot
    rw [(List.mem_replicate.mp hslot).2]
  let first : Worker × Disk :=
    if files.isEmpty || b.stopRequested then ({ limits := b.settings.limits }, d) else b.worker d
  obtain ⟨moves, q, hrun, hended, houtcomes, hstop, hdisk⟩ :=
    exists_run_inOrder b files.length hidle files ⟨[], b.stopRequested, first.1, first.2⟩ none d
      (by cases hnone : files.isEmpty || b.stopRequested <;> simp [first, hnone, workerOf])
  refine ⟨moves, q, ?_, hended, ?_, hdisk⟩
  · rw [start, hothers]
    exact hrun
  · rw [report, houtcomes, hstop]
    rfl

end Pool

/-! ### All schedules agree -/

namespace Batch

theorem Run.outcomes_foldl_uncached {watcher : Progress → Bool} {total : Nat}
    (hwatcher : ∀ progress, watcher progress = false) {r : Run}
    (hgo : r.stopRequested = false) (hcache : r.worker.cache = none) (files : List Path) :
    (files.foldl (advance watcher total) r).outcomes =
      r.outcomes ++ files.map (r.disk.outcome r.worker.limits) := by
  induction files generalizing r with
  | nil => simp
  | cons path files ih =>
    obtain ⟨u, hanalyze, hlimits, hnone⟩ := Worker.analyze_eq_outcome hcache r.disk path
    rw [List.foldl_cons, advance_of_go (by simp [hgo]), hanalyze, ih (hwatcher _) hnone, hlimits,
      List.append_assoc]
    rfl

theorem outcomes_runSequential_uncached {b : Batch} (hcache : b.settings.cache.enabled = false)
    (hgo : b.stopRequested = false) (hwatcher : ∀ progress, b.watcher progress = false) (d : Disk)
    (files : List Path) :
    (b.runSequential d files).report.outcomes = files.map (d.outcome b.settings.limits) := by
  rw [runSequential, Pool.worker_uncached hcache]
  exact Run.outcomes_foldl_uncached hwatcher hgo rfl files

/-- Findings that agree in path and identity are the same, if files that are shown alike are. -/
theorem eq_of_mem_findings {l : Limits} {d : Disk} {files : List Path} {outcomes : List Outcome}
    (hperm : outcomes.Perm (files.map (d.outcome l)))
    (halike : ∀ path ∈ files, ∀ other ∈ files, path.text = other.text → d.read path = d.read other)
    {v u : Finding} (hv : v ∈ outcomes.flatMap (·.findings))
    (hu : u ∈ outcomes.flatMap (·.findings)) (hpath : v.path = u.path) (hid : v.id = u.id) :
    v = u := by
  have hsource : ∀ v ∈ outcomes.flatMap (·.findings),
      ∃ path ∈ files, v ∈ (d.outcome l path).findings := by
    intro v hv
    obtain ⟨outcome, houtcome, hv⟩ := List.mem_flatMap.mp hv
    obtain ⟨path, hpath, rfl⟩ := List.mem_map.mp (hperm.mem_iff.mp houtcome)
    exact ⟨path, hpath, hv⟩
  obtain ⟨path, hfile, hv⟩ := hsource v hv
  obtain ⟨other, hother, hu⟩ := hsource u hu
  have htext : path.text = other.text := by
    rw [← Disk.path_of_mem_outcome hv, ← Disk.path_of_mem_outcome hu, hpath]
  rw [← Disk.findings_outcome_eq htext (halike path hfile other hother htext) l] at hu
  exact List.inj_on_of_nodup_map (d.nodup_outcome l path) hv hu hid

/-- Without a cache and with nobody to stop it, a batch on several threads can go through any
schedule: every schedule can be completed, the order of the list is one of them, and however a
schedule is completed, each file has contributed what it shows by itself, and the figures and the
counts are those of a batch that takes one file after the other. The sorted findings have the same
ranks in the same order, and if files that are shown alike read alike, they are the same list. -/
theorem schedules_agree (b : Batch) (d : Disk) (files : List Path) (threads : Nat)
    (hcache : b.settings.cache.enabled = false) (hgo : b.stopRequested = false)
    (hwatcher : ∀ progress, b.watcher progress = false) :
    (b.runSequential d files).report.outcomes = files.map (d.outcome b.settings.limits) ∧
    (∃ moves p, (Pool.start b d files threads).run b files.length moves = some p ∧
      (∀ move, p.step b files.length move = none) ∧
      p.report b files.length = (b.runParallel d files).report) ∧
    ∀ moves p, (Pool.start b d files threads).run b files.length moves = some p →
      (∃ more q, p.run b files.length more = some q ∧
        ∀ move, q.step b files.length move = none) ∧
      ((∀ move, p.step b files.length move = none) →
        p.disk = d ∧
        p.outcomes.Perm (files.map (d.outcome b.settings.limits)) ∧
        (p.report b files.length).sortedFindings.Perm
          (b.runSequential d files).report.sortedFindings ∧
        (p.report b files.length).sortedFindings.map Finding.rank =
          (b.runSequential d files).report.sortedFindings.map Finding.rank ∧
        ((∀ path ∈ files, ∀ other ∈ files, path.text = other.text → d.read path = d.read other) →
          (p.report b files.length).sortedFindings =
            (b.runSequential d files).report.sortedFindings) ∧
        (p.report b files.length).meter = (b.runSequential d files).report.meter ∧
        (p.report b files.length).summary.SameCounts
          (b.runSequential d files).report.summary) := by
  have hsequential := outcomes_runSequential_uncached hcache hgo hwatcher d files
  refine ⟨hsequential, ?_, fun moves p hrun => ⟨Pool.exists_run_stuck b files.length p, ?_⟩⟩
  · obtain ⟨moves, p, hrun, hended, hreport, _⟩ := Pool.exists_run_runParallel b d files threads
    exact ⟨moves, p, hrun, Pool.stuck_of_ended hended, hreport⟩
  · intro hstuck
    have hfaithful := (Pool.faithful_start hgo threads).run hcache hwatcher hrun
    have hperm := hfaithful.outcomes_of_ended
      (Pool.ended_of_stuck hfaithful.slots_ne hstuck)
    have hsame : (p.report b files.length).outcomes.Perm
        (b.runSequential d files).report.outcomes := hsequential ▸ hperm
    refine ⟨hfaithful.disk_eq, hperm, Report.sortedFindings_perm hsame,
      Report.ranks_sortedFindings_eq hsame, fun halike => ?_, Report.meter_eq hsame,
      Report.summary_sameCounts hsame⟩
    exact Report.sortedFindings_eq hsame fun _ hv _ hu => eq_of_mem_findings hperm halike hv hu

/-! ### A mixed batch -/

instance (p : Pool) : Decidable p.Ended := inferInstanceAs (Decidable (_ ∧ _ ∧ _))

namespace Mixed

open Syntax

/-- A call with two arguments. -/
def call : Document where
  bytes := [0x66, 0x28, 0x61, 0x2c, 0x62, 0x29, 0x0a]
  tree := some (.span (.other "module") none 0 7
    [.span .call none 0 6
      [.span .identifier (some .function) 0 1 [],
       .span .argumentList (some .arguments) 1 6
         [.span .identifier none 2 3 [], .span .identifier none 4 5 []]]])

/-- A string that means something. -/
def literal : Document where
  bytes := [0x66, 0x20, 0x22, 0x61, 0x20, 0x62, 0x20, 0x22, 0x0a]
  tree := some (.span (.other "module") none 0 9
    [.span .string none 2 8 [.span .stringStart none 2 3 [], .span .stringEnd none 7 8 []]])

/-- Bytes that are no text. -/
def garbled : Document := ⟨[0x61, 0x0a, 0x62, 0xff], none⟩

def disk : Disk :=
  (((⟨[], ∅⟩ : Disk).put ["call"] (.file call 1)).put ["lit"] (.file literal 2)).put ["bad"]
    (.file garbled 3)

/-- The lines around a literal are too many to be numbered. -/
def batch : Batch where
  settings := {
    limits := { maxCallArgs := 1, securityContextLines := 2 ^ 64 }
    cache := { enabled := false } }
  environment := { home := "/home" }

def files : List Path := ["call", "gone", "bad", "call", "lit"]

/-- Two threads, the later files first, and outcomes that overtake each other. -/
def moves : List Move :=
  [.take 0 4, .take 1 2, .finish 1, .take 1 0, .finish 0, .deliver 1, .take 0 1, .finish 0,
   .finish 1, .take 0 0, .deliver 2, .finish 0, .deliver 0, .deliver 0, .deliver 0]

theorem schedules_agree_mixed :
    ∃ p, (Pool.start batch disk files 2).run batch files.length moves = some p ∧
      p.outcomes.map (·.path.text) = ["lit", "call", "bad", "call", "gone"] ∧
      p.outcomes.Perm (files.map (disk.outcome batch.settings.limits)) ∧
      (p.report batch files.length).sortedFindings =
        (batch.runSequential disk files).report.sortedFindings ∧
      (p.report batch files.length).meter = (batch.runSequential disk files).report.meter ∧
      (p.report batch files.length).summary.SameCounts
        (batch.runSequential disk files).report.summary := by
  have hapart : ∀ path ∈ files, ∀ other ∈ files, path.text = other.text → path = other := by
    decide +kernel
  have hrun : ∃ p ∈ (Pool.start batch disk files 2).run batch files.length moves, p.Ended ∧
      p.outcomes.map (·.path.text) = ["lit", "call", "bad", "call", "gone"] := by decide +kernel
  obtain ⟨p, hrun, hended, hpaths⟩ := hrun
  obtain ⟨_, _, hall⟩ := schedules_agree batch disk files 2 rfl rfl fun _ => rfl
  obtain ⟨_, hperm, _, _, hsorted, hcounts⟩ := (hall moves p hrun).2 (Pool.stuck_of_ended hended)
  refine ⟨p, hrun, hpaths, hperm, hsorted fun path hpath other hother htext => ?_, hcounts⟩
  rw [hapart path hpath other hother htext]

end Mixed

/-! ### Files that are shown alike -/

namespace Garbled

open Syntax

/-- Two names that are no text. -/
def names : List Path := [⟨[0xff, 0x2e, 0x70, 0x79]⟩, ⟨[0xfe, 0x2e, 0x70, 0x79]⟩]

/-- A call of a function with a name of one letter. -/
def call (name : UInt8) : Document := { Mixed.call with bytes := name :: Mixed.call.bytes.tail }

def disk : Disk :=
  ((⟨[], ∅⟩ : Disk).put [⟨[0xff, 0x2e, 0x70, 0x79]⟩] (.file (call 0x66) 1)).put
    [⟨[0xfe, 0x2e, 0x70, 0x79]⟩] (.file (call 0x67) 2)

def batch : Batch where
  settings := { limits := { maxCallArgs := 1 }, cache := { enabled := false } }
  environment := { home := "/home" }

/-- Two threads, and outcomes that arrive in the order of the list or in the other. -/
def moves (first : Nat) : List Move :=
  [.take 0 0, .take 1 0, .finish 0, .finish 1, .deliver first, .deliver 0]

theorem sorted_findings_depend_on_arrival :
    names.map Path.text = ["\uFFFD.py", "\uFFFD.py"] ∧
    ∃ p q, (Pool.start batch disk names 2).run batch names.length (moves 0) = some p ∧ p.Ended ∧
      (Pool.start batch disk names 2).run batch names.length (moves 1) = some q ∧ q.Ended ∧
      (p.report batch names.length).sortedFindings ≠
        (q.report batch names.length).sortedFindings := by
  -- The findings tie, so they stay as they arrive.
  have hruns : ∃ p ∈ (Pool.start batch disk names 2).run batch names.length (moves 0),
      ∃ q ∈ (Pool.start batch disk names 2).run batch names.length (moves 1),
        p.Ended ∧ (p.report batch names.length).findings.Pairwise (Finding.precedes · ·) ∧
        q.Ended ∧ (q.report batch names.length).findings.Pairwise (Finding.precedes · ·) ∧
        (p.report batch names.length).findings ≠ (q.report batch names.length).findings := by
    decide +kernel
  obtain ⟨p, hp, q, hq, hpended, hptie, hqended, hqtie, hne⟩ := hruns
  refine ⟨by decide +kernel, p, q, hp, hpended, hq, hqended, ?_⟩
  rwa [Report.sortedFindings, Report.sortedFindings, List.mergeSort_of_pairwise hptie,
    List.mergeSort_of_pairwise hqtie]

end Garbled

end Batch

end Coupling
