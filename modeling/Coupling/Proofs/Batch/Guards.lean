import Coupling.Proofs.Batch.Worker
import Mathlib.Data.List.Infix
import Mathlib.Data.List.Induction

/-!
# Guards

A guard brings back the whole activity that it found, not only what its own step set, so guards
released in the wrong order bring back what is out of date. If they are released in the reverse
order of their making, what was set under a guard is gone when it is released and nothing else is,
and a job that ends while it holds guards, well or in a fault, leaves the activity as it was.
-/

namespace Coupling

namespace ActivityStep

def makesGuard : ActivityStep → Bool
  | .phase _ | .file _ => true
  | .release _ | .look => false

/-- The activity with what a step sets. -/
def setting : ActivityStep → Activity → Activity
  | .phase p, a => { a with phase := some p }
  | .file path, a => { a with file := some path }
  | .release _, a | .look, a => a

/-- The step whose guard a step releases. -/
def released? : ActivityStep → Option Nat
  | .release i => some i
  | _ => none

/-- The guard of a step is held after some steps: it was made and not released. -/
def Held (done : List ActivityStep) (i : Nat) : Prop :=
  done[i]?.any makesGuard = true ∧ .release i ∉ done

instance (done : List ActivityStep) (i : Nat) : Decidable (Held done i) :=
  inferInstanceAs (Decidable (_ ∧ _))

/-- Each guard is released while it is held and after all guards that were made later. -/
def Bracketed (steps : List ActivityStep) : Prop :=
  ∀ j i, steps[j]? = some (.release i) →
    Held (steps.take j) i ∧ ∀ k, i < k → ¬Held (steps.take j) k

/-! ### Guards that are held -/

section Held

variable {done first second : List ActivityStep} {x : ActivityStep} {i k m : Nat}

theorem Held.lt (h : Held done i) : i < done.length := by
  by_contra hle
  simp [Held, List.getElem?_eq_none (not_lt.mp hle)] at h

theorem bracketed_iff {steps : List ActivityStep} :
    Bracketed steps ↔ ∀ j < steps.length, ∀ i ∈ steps[j]?.bind released?,
      Held (steps.take j) i ∧ ∀ k < j, i < k → ¬Held (steps.take j) k := by
  have hrelease : ∀ j i : Nat,
      i ∈ steps[j]?.bind released? ↔ steps[j]? = some (.release i) := by
    intro j i
    rcases steps[j]? with _ | x
    · simp
    · cases x <;> simp [released?]
  simp only [hrelease]
  constructor
  · intro h j _ i hj
    exact ⟨(h j i hj).1, fun k _ => (h j i hj).2 k⟩
  · intro h j i hj
    obtain ⟨hheld, hlater⟩ := h j (List.getElem?_eq_some_iff.mp hj).1 i hj
    refine ⟨hheld, fun k hik hk => hlater k ?_ hik hk⟩
    exact hk.lt.trans_le (List.length_take_le j steps)

instance (steps : List ActivityStep) : Decidable (Bracketed steps) :=
  decidable_of_iff' _ bracketed_iff

theorem Held.of_append (h : Held (first ++ second) i) (hi : i < first.length) : Held first i := by
  refine ⟨?_, fun hmem => h.2 (List.mem_append_left _ hmem)⟩
  rw [← List.getElem?_append_left hi]
  exact h.1

theorem Held.take (h : Held done i) (hi : i < m) : Held (done.take m) i := by
  have hlt := h.lt
  rw [← List.take_append_drop m done] at h
  refine h.of_append ?_
  rw [List.length_take]
  omega

theorem Held.append (h : Held first i) (hsecond : .release i ∉ second) :
    Held (first ++ second) i := by
  refine ⟨?_, List.mem_append.not.mpr (not_or.mpr ⟨h.2, hsecond⟩)⟩
  rw [List.getElem?_append_left h.lt]
  exact h.1

theorem Bracketed.of_append (h : Bracketed (first ++ second)) : Bracketed first := by
  intro j i hj
  have hlt : j < first.length := (List.getElem?_eq_some_iff.mp hj).1
  have hsplit := h j i (by rw [List.getElem?_append_left hlt, hj])
  rwa [List.take_append_of_le_length hlt.le] at hsplit

/-- A release comes after the guard was made. -/
theorem Bracketed.lt_of_release (h : Bracketed done) (hi : .release i ∈ done) :
    i < done.length := by
  obtain ⟨j, hj⟩ := List.mem_iff_getElem?.mp hi
  have hlt := (h j i hj).1.lt
  rw [List.length_take] at hlt
  omega

theorem bracketed_concat :
    Bracketed (done ++ [x]) ↔ Bracketed done ∧
      ∀ i, x = .release i → Held done i ∧ ∀ k, i < k → ¬Held done k := by
  constructor
  · intro h
    refine ⟨h.of_append, ?_⟩
    rintro i rfl
    simpa using h done.length i (by simp)
  · rintro ⟨hdone, hlast⟩ j i hj
    have hle : j < done.length + 1 := by simpa using (List.getElem?_eq_some_iff.mp hj).1
    rcases Nat.lt_succ_iff_lt_or_eq.mp hle with hlt | rfl
    · rw [List.getElem?_append_left hlt] at hj
      rw [List.take_append_of_le_length hlt.le]
      exact hdone j i hj
    · rw [List.getElem?_append_right le_rfl, Nat.sub_self] at hj
      rw [List.take_left' rfl]
      exact hlast i (by simpa using hj)

theorem held_concat_release : Held (done ++ [.release i]) k ↔ Held done k ∧ k ≠ i := by
  constructor
  · intro h
    have hne : k ≠ i := fun heq => h.2 (by simp [heq])
    refine ⟨h.of_append ?_, hne⟩
    have hlt : k < done.length + 1 := by simpa using h.lt
    refine (Nat.lt_succ_iff_lt_or_eq.mp hlt).resolve_right ?_
    rintro rfl
    simp [Held, makesGuard] at h
  · rintro ⟨h, hne⟩
    exact h.append (by simpa using hne)

theorem Bracketed.held_new (h : Bracketed (done ++ [x])) (hx : x.makesGuard = true) :
    Held (done ++ [x]) done.length := by
  refine ⟨by simpa using hx, fun hmem => ?_⟩
  rcases List.mem_append.mp hmem with hmem | hmem
  · exact absurd (h.of_append.lt_of_release hmem) (lt_irrefl _)
  · rw [← List.mem_singleton.mp hmem] at hx
    simp [makesGuard] at hx

/-- A guard that was held when a held guard was made is held as well. -/
theorem Bracketed.held_of_outer (h : Bracketed done) (hm : Held done m)
    (hk : Held (done.take m) k) : Held done k := by
  have hkm : k < m := hk.lt.trans_le (List.length_take_le m done)
  rw [← List.take_append_drop m done]
  refine hk.append fun hmem => ?_
  -- At its release the guard made later would still be held.
  obtain ⟨j, hj⟩ := List.mem_iff_getElem?.mp hmem
  rw [List.getElem?_drop] at hj
  have hne : j ≠ 0 := by
    rintro rfl
    have hmade := hm.1
    rw [Nat.add_zero] at hj
    simp [hj, makesGuard] at hmade
  exact (h (m + j) k hj).2 m hkm (hm.take (by omega))

end Held

end ActivityStep

open ActivityStep

/-! ### What a guard saves -/

namespace ActivityLog

variable {log : ActivityLog} {x : ActivityStep} {i : Nat}

theorem length_step (log : ActivityLog) (x : ActivityStep) :
    (log.step x).guards.length = log.guards.length + 1 := by
  cases x with
  | release n =>
    rw [step]
    split <;> simp
  | _ => simp [step]

/-- A guard saves the activity before its step. -/
theorem getElem?_guards_step_new (log : ActivityLog) (hx : x.makesGuard = true) :
    (log.step x).guards[log.guards.length]? = some (some ⟨log.activity⟩) := by
  cases x with
  | phase phase => simp [step, Activity.setPhase]
  | file path => simp [step, Activity.setFile]
  | release n => simp [makesGuard] at hx
  | look => simp [makesGuard] at hx

theorem getElem?_guards_step (hi : i < log.guards.length) (hx : x ≠ .release i) :
    (log.step x).guards[i]? = log.guards[i]? := by
  cases x with
  | release n =>
    have hne : n ≠ i := fun h => hx (by rw [h])
    rw [step]
    split <;> simp [List.getElem?_append_left, hi, hne]
  | _ => simp [step, List.getElem?_append_left hi]

theorem activity_step (hx : ∀ i, x ≠ .release i) :
    (log.step x).activity = x.setting log.activity := by
  cases x with
  | release n => exact absurd rfl (hx n)
  | _ => rfl

end ActivityLog

namespace Activity

/-- An activity and the guards after some steps. -/
def log (a : Activity) (steps : List ActivityStep) : ActivityLog :=
  steps.foldl ActivityLog.step ⟨a, []⟩

/-- The activity after some steps. -/
def after (a : Activity) (steps : List ActivityStep) : Activity := (a.log steps).activity

variable {steps : List ActivityStep} {x : ActivityStep} {i : Nat}

theorem log_concat (a : Activity) (steps : List ActivityStep) (x : ActivityStep) :
    a.log (steps ++ [x]) = (a.log steps).step x := List.foldl_append

theorem length_guards_log (a : Activity) (steps : List ActivityStep) :
    (a.log steps).guards.length = steps.length := by
  induction steps using List.reverseRecOn with
  | nil => rfl
  | append_singleton steps x ih =>
    rw [log_concat, ActivityLog.length_step, ih, List.length_append, List.length_singleton]

theorem after_concat (a : Activity) (hx : ∀ i, x ≠ .release i) :
    a.after (steps ++ [x]) = x.setting (a.after steps) := by
  rw [after, log_concat, ActivityLog.activity_step hx]
  rfl

/-- A guard that is held saves the activity before its step. -/
theorem getElem?_guards_log (a : Activity) (hsteps : Bracketed steps) (hi : Held steps i) :
    (a.log steps).guards[i]? = some (some ⟨a.after (steps.take i)⟩) := by
  induction steps using List.reverseRecOn with
  | nil => exact absurd hi.lt (Nat.not_lt_zero i)
  | append_singleton steps x ih =>
    have hlt : i < steps.length + 1 := by simpa using hi.lt
    rw [log_concat]
    rcases Nat.lt_succ_iff_lt_or_eq.mp hlt with hlt | rfl
    · have hne : x ≠ .release i := fun h => hi.2 (by simp [h])
      rw [ActivityLog.getElem?_guards_step (by rwa [length_guards_log]) hne,
        ih hsteps.of_append (hi.of_append hlt), List.take_append_of_le_length hlt.le]
    · have hx : x.makesGuard = true := by simpa using hi.1
      rw [List.take_left' rfl]
      have hnew := (a.log steps).getElem?_guards_step_new hx
      rwa [length_guards_log] at hnew

/-- Releasing a guard brings back the activity before its step. -/
theorem after_release (a : Activity) (hsteps : Bracketed (steps ++ [.release i])) :
    a.after (steps ++ [.release i]) = a.after (steps.take i) := by
  obtain ⟨hdone, hlast⟩ := bracketed_concat.mp hsteps
  have hguard := getElem?_guards_log a hdone (hlast i rfl).1
  rw [after, log_concat, ActivityLog.step, hguard]
  rfl

/-- Steps that release the guards they make, and no others, leave the activity as it was. -/
theorem after_append_of_released (a : Activity) (base : List ActivityStep)
    {tail : List ActivityStep} (hsteps : Bracketed (base ++ tail))
    (hheld : ∀ k, base.length ≤ k → ¬Held (base ++ tail) k)
    (htail : ∀ i, .release i ∈ tail → base.length ≤ i) :
    a.after (base ++ tail) = a.after base := by
  induction hlength : tail.length using Nat.strong_induction_on generalizing tail with
  | h n ih =>
    rcases List.eq_nil_or_concat' tail with rfl | ⟨rest, x, rfl⟩
    · rw [List.append_nil]
    rw [List.length_append, List.length_singleton] at hlength
    rw [← List.append_assoc] at hsteps hheld ⊢
    cases x with
    | phase p => exact absurd (hsteps.held_new rfl) (hheld _ (by simp))
    | file path => exact absurd (hsteps.held_new rfl) (hheld _ (by simp))
    | look =>
      rw [after_concat a (by simp)]
      refine ih rest.length (by omega) hsteps.of_append (fun k hk h => ?_) (fun i hi => ?_) rfl
      · exact hheld k hk (h.append (by simp))
      · exact htail i (List.mem_append_left _ hi)
    | release m =>
      -- The activity is the one before the guard was made, when fewer steps had been taken.
      have hm : base.length ≤ m := htail m (by simp)
      obtain ⟨hdone, hlast⟩ := bracketed_concat.mp hsteps
      have hguard : Held (base ++ rest) m := (hlast m rfl).1
      have htake : (base ++ rest).take m = base ++ rest.take (m - base.length) := by
        rw [List.take_append, List.take_of_length_le hm]
      rw [after_release a hsteps, htake]
      refine ih _ ?_ ?_ (fun k hk h => ?_) (fun i hi => ?_) rfl
      · have := List.length_take_le' (m - base.length) rest
        omega
      · rw [← htake]
        rw [← List.take_append_drop m (base ++ rest)] at hdone
        exact hdone.of_append
      · rw [← htake] at h
        have hkm : k < m := h.lt.trans_le (List.length_take_le m _)
        exact hheld k hk ((hdone.held_of_outer hguard h).append (by simpa using hkm.ne))
      · exact htail i (List.mem_append_left _ (List.mem_of_mem_take hi))

/-- While no guard made later is held, the activity is what a guard found with what its step set. -/
theorem after_innermost (a : Activity) {before inner : List ActivityStep} {x : ActivityStep}
    (hsteps : Bracketed (before ++ x :: inner)) (hx : Held (before ++ x :: inner) before.length)
    (hlater : ∀ k, before.length < k → ¬Held (before ++ x :: inner) k) :
    a.after (before ++ x :: inner) = x.setting (a.after before) := by
  have hguard : ∀ i, x ≠ .release i := by
    rintro i rfl
    simp [Held, makesGuard] at hx
  rw [← after_concat a hguard, List.append_cons]
  rw [List.append_cons] at hsteps hx hlater
  refine after_append_of_released a (before ++ [x]) hsteps (fun k hk => hlater k ?_) ?_
  · rwa [List.length_append, List.length_singleton] at hk
  intro i hi
  by_contra hle
  -- A guard made earlier is not released while this one is held.
  obtain ⟨j, hj⟩ := List.mem_iff_getElem?.mp hi
  have hrelease : (before ++ [x] ++ inner)[before.length + 1 + j]? = some (.release i) := by
    rw [List.getElem?_append_right (by simp)]
    simpa using hj
  have hne : i ≠ before.length := by
    rintro rfl
    exact hx.2 (List.mem_append_right _ hi)
  rw [List.length_append, List.length_singleton] at hle
  exact (hsteps _ i hrelease).2 before.length (by omega) (hx.take (by omega))

end Activity

/-! ### Guards that are held at the end -/

namespace ActivityStep

/-- Releases the guards that are held after some steps, the last one first. -/
def unwinding (done : List ActivityStep) : List ActivityStep :=
  ((List.range done.length).filter (Held done ·)).reverse.map .release

theorem bracketed_append_releases {done : List ActivityStep} (hdone : Bracketed done)
    {guards : List Nat} (horder : guards.Pairwise (· > ·))
    (hguards : ∀ i, i ∈ guards ↔ Held done i) :
    Bracketed (done ++ guards.map .release) ∧
      ∀ k, ¬Held (done ++ guards.map .release) k := by
  induction guards generalizing done with
  | nil =>
    rw [List.map_nil, List.append_nil]
    exact ⟨hdone, fun k hk => List.not_mem_nil ((hguards k).mpr hk)⟩
  | cons i rest ih =>
    obtain ⟨hfirst, hrest⟩ := List.pairwise_cons.mp horder
    rw [List.map_cons, List.append_cons]
    refine ih (bracketed_concat.mpr ⟨hdone, ?_⟩) hrest fun k => ?_
    · rintro m hm
      obtain rfl := ActivityStep.release.inj hm
      refine ⟨(hguards i).mp List.mem_cons_self, fun k hk hheld => ?_⟩
      rcases List.mem_cons.mp ((hguards k).mpr hheld) with rfl | hmem
      · exact lt_irrefl _ hk
      · exact lt_asymm hk (hfirst k hmem)
    · rw [held_concat_release, ← hguards, List.mem_cons]
      have hne : k ∈ rest → k ≠ i := fun hk => (hfirst k hk).ne
      tauto

/-- After unwinding no guard is held. -/
theorem bracketed_append_unwinding {done : List ActivityStep} (hdone : Bracketed done) :
    Bracketed (done ++ unwinding done) ∧ ∀ k, ¬Held (done ++ unwinding done) k := by
  refine bracketed_append_releases hdone ?_ fun i => ?_
  · rw [List.pairwise_reverse]
    exact List.pairwise_lt_range.filter _
  · simpa using fun h : Held done i => h.lt

end ActivityStep

/-- However far some steps have come, releasing the guards that are held brings back the activity
before them. -/
theorem Activity.after_unwinding (a : Activity) {steps : List ActivityStep}
    (hsteps : Bracketed steps) : a.after (steps ++ unwinding steps) = a := by
  obtain ⟨hbracketed, hnone⟩ := bracketed_append_unwinding hsteps
  exact a.after_append_of_released [] hbracketed (fun k _ => hnone k) (by simp)

/-! ### Jobs on a file -/

namespace Worker

/-- A worker that has noted the file it is busy with. -/
def busyWith (w : Worker) (path : Path) : Worker :=
  { w with activity := (w.activity.setFile path).1 }

/-- A job that takes some steps and ends there with a result, good or bad. The guards that are held
at its end are released, the last one first. -/
def taking (steps : List ActivityStep) (result : Except Fault Outcome) (u : Worker) (d : Disk)
    (w : Worker) : Except Fault Outcome × Worker × Disk :=
  (result, { u with activity := w.activity.after (steps ++ unwinding steps) }, d)

/-- After a job on a file a worker has the activity it had before. At the end of the job it still
knows the file, which is the one that a finding about a fault names. -/
structure Restores (w : Worker) (path : Path)
    (job : Worker → Except Fault Outcome × Worker × Disk) : Prop where
  activity_eq : (w.isolated path job).2.1.activity = w.activity
  file_eq : (job (w.busyWith path)).2.1.activity.file = some path
  fault_eq : ∀ fault, (job (w.busyWith path)).1 = .error fault →
    (w.isolated path job).1 = .faulted path fault

section Isolated

variable {job : Worker → Except Fault Outcome × Worker × Disk} {w u : Worker} {path : Path}
  {d : Disk}

theorem isolated_of_ok {outcome : Outcome}
    (hjob : job (w.busyWith path) = (.ok outcome, u, d)) :
    w.isolated path job = (outcome, { u with activity := w.activity }, d) := by
  simp only [busyWith, Activity.setFile] at hjob
  simp only [isolated, hjob, Activity.setFile, Activity.Guard.release]

theorem isolated_of_error {fault : Fault}
    (hjob : job (w.busyWith path) = (.error fault, u, d)) :
    w.isolated path job =
      (.faulted (u.activity.file.getD path) fault, { u with activity := w.activity }, d) := by
  simp only [busyWith, Activity.setFile] at hjob
  simp only [isolated, hjob, Activity.setFile, Activity.Guard.release, Outcome.faulted]

theorem restores_of_activity_eq
    (hjob : (job (w.busyWith path)).2.1.activity = (w.busyWith path).activity) :
    w.Restores path job := by
  have hfile : (job (w.busyWith path)).2.1.activity.file = some path := by
    rw [hjob]
    rfl
  rcases hended : job (w.busyWith path) with ⟨result, u, d⟩
  rw [hended] at hfile
  cases result with
  | ok outcome =>
    refine ⟨by rw [isolated_of_ok hended], by rw [hended, hfile], fun fault hfault => ?_⟩
    simp [hended] at hfault
  | error fault =>
    refine ⟨by rw [isolated_of_error hended], by rw [hended, hfile], fun fault' hfault => ?_⟩
    rw [hended, Except.error.injEq] at hfault
    rw [isolated_of_error hended, hfile, Option.getD_some, hfault]

end Isolated

theorem activity_lookUp (w : Worker) (d : Disk) (path : Path) (bytes : Text.Bytes) :
    (w.lookUp d path bytes).2.1.activity = w.activity := by
  unfold lookUp
  cases w.cache <;> rfl

theorem activity_keep (w : Worker) (d : Disk) (path : Path) (bytes : Text.Bytes)
    (findings : List Finding) : (w.keep d path bytes findings).1.activity = w.activity := by
  cases hcache : w.cache with
  | none => simp only [keep, hcache]
  | some cache =>
    by_cases hfailed : (findings.any (·.kind == .processingError)) = true
    · simp only [keep, hcache, if_pos hfailed]
    · simp only [keep, hcache, if_neg hfailed]

/-- An analysis leaves the activity as it was, whether it ends in a fault or not. -/
theorem activity_attempt (w : Worker) (d : Disk) (path : Path) :
    (w.attempt d path).2.1.activity = w.activity := by
  cases hread : d.read path with
  | error e => simp only [attempt, hread]
  | ok doc =>
    have hlookUp := w.activity_lookUp d path doc.bytes
    rcases hanswer : w.lookUp d path doc.bytes with ⟨found, u, d'⟩
    rw [hanswer] at hlookUp
    cases found with
    | some findings => simpa only [attempt, hread, hanswer] using hlookUp
    | none =>
      cases hresult : doc.analyze u.limits path.text with
      | error fault =>
        simpa only [attempt, hread, hanswer, Syntax.Document.staged_apply, hresult] using hlookUp
      | ok findings =>
        simpa only [attempt, hread, hanswer, Syntax.Document.staged_apply, hresult, activity_keep]
          using hlookUp

end Worker

/-- If guards are released in the reverse order of their making, a release brings back the activity
before its guard was made. Meanwhile, as long as no later guard is held, the activity is that one
with what the step set. If the steps stop anywhere, releasing what is held brings back the activity
before them. So a worker that does a job has its activity back, whether the job ends well or in a
fault and in whichever phase, and knows its file when it sees the fault; analyzing a file is such a
job. -/
theorem guards_bring_back (steps : List ActivityStep) (hsteps : Bracketed steps) (a : Activity) :
    (∀ before x between rest,
      steps = before ++ x :: (between ++ .release before.length :: rest) →
      x.makesGuard = true ∧
      a.after (before ++ x :: (between ++ [.release before.length])) = a.after before ∧
      ∀ inner, inner <+: between →
        (∀ k, before.length < k → ¬Held (before ++ x :: inner) k) →
        a.after (before ++ x :: inner) = x.setting (a.after before)) ∧
    a.after (steps ++ unwinding steps) = a ∧
    (∀ (w : Worker) (path : Path) (result : Except Fault Outcome) (u : Worker) (d : Disk),
      w.Restores path (Worker.taking steps result u d)) ∧
    ∀ (w : Worker) (d : Disk) (path : Path),
      w.analyze d path = w.isolated path (·.attempt d path) ∧
      w.Restores path (·.attempt d path) := by
  refine ⟨?_, a.after_unwinding hsteps, ?_, ?_⟩
  · rintro before x between rest rfl
    have hclosed : Bracketed ((before ++ x :: between) ++ [.release before.length]) := by
      have hsplit : before ++ x :: (between ++ .release before.length :: rest) =
          (before ++ x :: between ++ [.release before.length]) ++ rest := by simp
      exact (hsplit ▸ hsteps).of_append
    obtain ⟨hdone, hlast⟩ := bracketed_concat.mp hclosed
    have hheld := (hlast before.length rfl).1
    refine ⟨by simpa using hheld.1, ?_, ?_⟩
    · rw [← List.cons_append, ← List.append_assoc, a.after_release hclosed, List.take_left' rfl]
    · rintro inner ⟨later, rfl⟩ hlater
      rw [← List.cons_append, ← List.append_assoc] at hdone hheld
      exact a.after_innermost hdone.of_append (hheld.of_append (by simp)) hlater
  · intro w path result u d
    exact Worker.restores_of_activity_eq (Activity.after_unwinding _ hsteps)
  · intro w d path
    exact ⟨rfl, Worker.restores_of_activity_eq (Worker.activity_attempt _ d path)⟩

/-- The steps of a worker that looks into another file in the midst of its own. -/
def nestedSteps : List ActivityStep :=
  [.file "a.py", .phase .parsing, .look, .release 1, .phase .detection, .file "b.py", .look,
    .release 5, .look, .release 4, .release 0]

/-- The guard of the detection brings back what it found. A fault while the other file is looked
into does not hide the file of the job. -/
theorem guards_bring_back_nestedSteps :
    Bracketed nestedSteps ∧ Bracketed (nestedSteps.take 7) ∧
    Activity.after {} (nestedSteps.take 10) = { file := some "a.py" } ∧
    Activity.after {} (nestedSteps.take 8) =
      { phase := some .detection, file := some "a.py" } ∧
    (Worker.isolated { limits := {} } "main.py"
      (Worker.taking (nestedSteps.take 7) (.error .additionOverflow) { limits := {} }
        (.blank []))).1 = .faulted "main.py" .additionOverflow := by
  have hsteps : Bracketed nestedSteps := by decide
  have hstopped : Bracketed (nestedSteps.take 7) := by decide
  have hlater : ∀ k < 8, 4 < k → ¬Held (nestedSteps.take 8) k := by decide
  obtain ⟨hguards, _, _, _⟩ := guards_bring_back nestedSteps hsteps {}
  obtain ⟨_, _, hjob, _⟩ := guards_bring_back (nestedSteps.take 7) hstopped {}
  obtain ⟨_, hrelease, hmeanwhile⟩ :=
    hguards (nestedSteps.take 4) (.phase .detection) [.file "b.py", .look, .release 5, .look]
      [.release 0] rfl
  refine ⟨hsteps, hstopped, hrelease, ?_, ?_⟩
  · exact hmeanwhile [.file "b.py", .look, .release 5] (by decide) fun k hk hheld =>
      hlater k hheld.lt hk hheld
  · exact (hjob { limits := {} } "main.py" (.error .additionOverflow) { limits := {} }
      (.blank [])).fault_eq _ rfl

end Coupling
