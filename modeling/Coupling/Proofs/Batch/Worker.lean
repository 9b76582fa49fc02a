import Coupling.Batch.Run

/-!
# What a worker does with a file

The file that a worker is busy with and the phases of the analysis leave no trace. What remains is
reading the file, asking the cache, analyzing and keeping the result.
-/

namespace Coupling

/-- The outcome of a file whose analysis ended in a fault. -/
def Outcome.faulted (path : Path) (fault : Fault) : Outcome :=
  .failed path (.failure path.text s!"analysis panicked: {fault.message}")

namespace Worker

variable {w : Worker} {d : Disk} {path : Path}

theorem analyze_of_read_error {e : DiskError} (h : d.read path = .error e) :
    w.analyze d path = (.failed path (.unreadable path.text e.message), w, d) := by
  simp [analyze, isolated, attempt, h, Activity.setFile, Activity.Guard.release]

/-- A worker without a cache analyzes what it reads. -/
theorem analyze_of_cache_none {doc : Syntax.Document} (hcache : w.cache = none)
    (h : d.read path = .ok doc) :
    w.analyze d path =
      (match doc.analyze w.limits path.text with
        | .error fault => .faulted path fault
        | .ok findings => ⟨path, findings, Text.lineCount doc.bytes, none⟩,
        { w with lines := Text.lineCount doc.bytes }, d) := by
  obtain ⟨limits, cache, activity, lines⟩ := w
  obtain rfl : cache = none := hcache
  cases hresult : doc.analyze limits path.text with
  | error fault =>
    simp [analyze, isolated, attempt, h, Activity.setFile, Activity.Guard.release, lookUp,
      Syntax.Document.staged_apply, hresult, Outcome.faulted]
  | ok findings =>
    simp [analyze, isolated, attempt, h, Activity.setFile, Activity.Guard.release, lookUp, keep,
      Syntax.Document.staged_apply, hresult]

/-- The same worker without a cache. -/
def uncached (w : Worker) : Worker := { limits := w.limits }

theorem analyze_uncached (w : Worker) {doc : Syntax.Document} (h : d.read path = .ok doc) :
    (w.uncached.analyze d path).1 =
      match doc.analyze w.limits path.text with
      | .error fault => .faulted path fault
      | .ok findings => ⟨path, findings, Text.lineCount doc.bytes, none⟩ := by
  rw [analyze_of_cache_none rfl h]
  rfl

/-- A worker with a cache analyzes what the cache does not know, and keeps it there. -/
theorem analyze_of_cache_some {c : ResultCache} {doc : Syntax.Document}
    {answer : ResultCache.Answer} (hcache : w.cache = some c) (h : d.read path = .ok doc)
    (hanswer : c.getBytes d path doc.bytes = answer) :
    w.analyze d path =
      match answer.found with
      | some findings =>
        (⟨path, findings, Text.lineCount doc.bytes, some true⟩,
          { w with cache := some answer.cache }, answer.disk)
      | none =>
        match doc.analyze w.limits path.text with
        | .error fault =>
          (.faulted path fault,
            { w with cache := some answer.cache, lines := Text.lineCount doc.bytes }, answer.disk)
        | .ok findings =>
          let kept :=
            if findings.any (·.kind == .processingError) then (answer.cache, answer.disk)
            else answer.cache.setBytes answer.disk path doc.bytes findings
          (⟨path, findings, Text.lineCount doc.bytes, some false⟩,
            { w with cache := some kept.1, lines := Text.lineCount doc.bytes }, kept.2) := by
  cases hfound : answer.found with
  | some findings =>
    simp [analyze, isolated, attempt, h, Activity.setFile, Activity.Guard.release, lookUp, hcache,
      hanswer, hfound]
  | none =>
    cases hresult : doc.analyze w.limits path.text with
    | error fault =>
      simp [analyze, isolated, attempt, h, Activity.setFile, Activity.setPhase,
        Activity.Guard.release, lookUp, hcache, hanswer, hfound, Syntax.Document.staged_apply,
        hresult, Outcome.faulted]
    | ok findings =>
      by_cases hfailed : findings.any (·.kind == .processingError)
      · simp [analyze, isolated, attempt, h, Activity.setFile, Activity.Guard.release, lookUp, keep,
          hcache, hanswer, hfound, Syntax.Document.staged_apply, hresult, hfailed]
      · simp [analyze, isolated, attempt, h, Activity.setFile, Activity.Guard.release, lookUp, keep,
          hcache, hanswer, hfound, Syntax.Document.staged_apply, hresult, hfailed]

theorem limits_analyze (w : Worker) (d : Disk) (path : Path) :
    (w.analyze d path).2.1.limits = w.limits := by
  cases hread : d.read path with
  | error e => rw [analyze_of_read_error hread]
  | ok doc =>
    cases hcache : w.cache with
    | none => rw [analyze_of_cache_none hcache hread]
    | some c =>
      rw [analyze_of_cache_some hcache hread rfl]
      split
      · rfl
      · split <;> rfl

/-- After a miss the findings are those of an analysis. -/
theorem analyze_of_miss (h : (w.analyze d path).1.hit = some false) :
    ∃ doc, d.read path = .ok doc ∧
      doc.analyze w.limits path.text = .ok (w.analyze d path).1.findings := by
  cases hread : d.read path with
  | error e =>
    rw [analyze_of_read_error hread] at h
    simp [Outcome.failed] at h
  | ok doc =>
    refine ⟨doc, rfl, ?_⟩
    cases hcache : w.cache with
    | none =>
      rw [analyze_of_cache_none hcache hread] at h
      cases hresult : doc.analyze w.limits path.text <;>
        simp [hresult, Outcome.faulted, Outcome.failed] at h
    | some c =>
      rw [analyze_of_cache_some hcache hread rfl] at h ⊢
      cases hfound : (c.getBytes d path doc.bytes).found with
      | some findings => simp [hfound] at h
      | none =>
        cases hresult : doc.analyze w.limits path.text with
        | error fault => simp [hfound, hresult, Outcome.faulted, Outcome.failed] at h
        | ok findings => simp

end Worker

end Coupling
