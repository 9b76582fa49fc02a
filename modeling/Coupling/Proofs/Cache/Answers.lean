import Coupling.Proofs.Cache.Kept
import Coupling.Proofs.Finding.Sites

/-!
# What a worker answers

What a worker reports of a file is in the directory of its cache, or it comes from an analysis and
goes there. Files elsewhere it leaves alone.
-/

namespace Coupling

open Cache

/-! ### Answers -/

namespace Cache

theorem Stamp.at?_of_look {d d' : Disk} {path : Path} (h : d'.look path = d.look path) :
    Stamp.at? d' path = Stamp.at? d path := by
  rw [at?, at?, h]

/-- The findings that a directory has for a file as it is. -/
def saved? (directory : Path) (d : Disk) (path : Path) : Option (List Finding) :=
  (Stamp.at? d path).bind fun s => (entryIn? directory d s.state).bind fun e =>
    if e.path = path.text then some e.findings else none

/-- The findings of an analysis, if the file can be read and the analysis returns. -/
def analyzed? (l : Limits) (d : Disk) (path : Path) : Option (List Finding) :=
  (d.read path).toOption.bind fun doc => (doc.analyze l path.text).toOption

/-- The findings that are reported of a file, if it does not fail. -/
def answer? (directory : Path) (l : Limits) (d : Disk) (path : Path) : Option (List Finding) :=
  (saved? directory d path).or (analyzed? l d path)

variable {directory path : Path} {l : Limits} {d d' : Disk} {s : Stamp} {findings : List Finding}

theorem saved?_eq_some_iff (h : Stamp.at? d path = some s) :
    saved? directory d path = some findings ↔
      entryIn? directory d s.state = some ⟨path.text, findings⟩ := by
  rw [saved?, h, Option.bind_some]
  cases entryIn? directory d s.state with
  | none => simp
  | some e =>
    obtain ⟨path', findings'⟩ := e
    by_cases hpath : path' = path.text <;> simp [hpath]

theorem saved?_of_at?_none (h : Stamp.at? d path = none) : saved? directory d path = none := by
  rw [saved?, h, Option.bind_none]

theorem saved?_of_look (hlook : d'.look path = d.look path)
    (hentry : ∀ s, Stamp.at? d path = some s →
      entryIn? directory d' s.state = entryIn? directory d s.state) :
    saved? directory d' path = saved? directory d path := by
  rw [saved?, saved?, Stamp.at?_of_look hlook]
  cases hstamp : Stamp.at? d path with
  | none => rfl
  | some s => rw [Option.bind_some, Option.bind_some, hentry s hstamp]

theorem analyzed?_of_look (h : d'.look path = d.look path) :
    analyzed? l d' path = analyzed? l d path := by
  rw [analyzed?, analyzed?, Disk.read, Disk.read, h]

theorem analyzed?_of_read {doc : Syntax.Document} (h : d.read path = .ok doc) :
    analyzed? l d path = (doc.analyze l path.text).toOption := by
  rw [analyzed?, h]
  rfl

theorem answer?_of_at?_none (h : Stamp.at? d path = none) : answer? directory l d path = none := by
  obtain ⟨e, hread⟩ := Stamp.read_of_at?_none h
  rw [answer?, saved?_of_at?_none h, analyzed?, hread]
  rfl

end Cache

/-- The outcome of a file, given what a directory has for it. -/
def Outcome.expected (l : Limits) (d : Disk) (path : Path) (saved : Option (List Finding)) :
    Outcome :=
  match d.read path with
  | .error e => .failed path (.unreadable path.text e.message)
  | .ok doc =>
    match saved with
    | some findings => ⟨path, findings, Text.lineCount doc.bytes, some true⟩
    | none =>
      match doc.analyze l path.text with
      | .error fault => .faulted path fault
      | .ok findings => ⟨path, findings, Text.lineCount doc.bytes, some false⟩

theorem Outcome.expected_of_look {l : Limits} {d d' : Disk} {path : Path}
    (h : d'.look path = d.look path) (saved : Option (List Finding)) :
    expected l d' path saved = expected l d path saved := by
  rw [expected, expected, Disk.read, Disk.read, h]

/-- Once the answer is in the directory, it is found there: the findings are the same, and what did
not fail is a hit. -/
theorem Outcome.expected_or_analyzed? (l : Limits) (d : Disk) (path : Path)
    (saved : Option (List Finding)) :
    (expected l d path (saved.or (analyzed? l d path))).findings =
        (expected l d path saved).findings ∧
      (expected l d path (saved.or (analyzed? l d path))).hit =
        if (expected l d path saved).hit.isSome then some true else none := by
  cases hread : d.read path with
  | error e => simp [expected, hread, failed]
  | ok doc =>
    cases saved with
    | some findings => simp [expected, hread]
    | none =>
      rw [Option.none_or, analyzed?_of_read hread]
      cases hresult : doc.analyze l path.text with
      | error fault => simp [expected, hread, hresult, Except.toOption, faulted, failed]
      | ok findings => simp [expected, hread, hresult, Except.toOption]

/-- An analysis that returns never reports that a file could not be processed, so its result is
kept. -/
theorem Syntax.Document.not_any_processingError {l : Limits} {path : String}
    {doc : Syntax.Document} {findings : List Finding} (h : doc.analyze l path = .ok findings) :
    findings.any (·.kind == .processingError) = false := by
  have hkinds : ∀ v ∈ findings, v.kind ≠ .processingError := by
    intro v hv
    rcases Document.analyze_eq_ok h with ⟨u, hu, rfl⟩ | ⟨source, w, _, rfl, hw, rfl⟩
    · rw [List.mem_singleton] at hv
      rw [hv, (Source.genuine_of_ofDocument hu).1.kind_eq]
      decide
    · have hcoupling : ∀ kind ∈ .name :: Kind.duringWalk, kind ≠ .processingError := by decide
      obtain ⟨kind, hkind, hv⟩ := hw.finish v (mem_of_mem_distinct hv)
      exact hv.kind_eq ▸ hcoupling kind hkind
  simpa using hkinds

/-! ### One file -/

namespace ResultCache

variable {directory : Path} {met : FileState → Prop} {c : ResultCache} {d : Disk}
  {path : Path} {s : Stamp}

theorem Backed.found_eq_saved? (hc : c.Backed directory met d)
    (happart : ∀ s t, met s → met t → s.key = t.key → s.path.text = t.path.text)
    (hstamp : Stamp.at? d path = some s) (hmet : met s.state) {bytes : Text.Bytes}
    {state : FileState} (hstate : FileState.ofDisk? d path bytes = some state)
    (hkey : state.key = s.state.key) :
    (c.getBytes d path bytes).found = saved? directory d path := by
  ext findings
  rw [(hc.getBytes happart hstate hkey (Stamp.text_of_at? hstamp) hmet).1,
    saved?_eq_some_iff hstamp]

/-- What the look-up removed is not written again as a result. -/
theorem look_of_look_setBytes {c' : ResultCache} {bytes : Text.Bytes} {findings : List Finding}
    {node : DiskNode} (h : d.look path = .ok node)
    (hstays : (c'.setBytes (c.getBytes d path bytes).disk path bytes findings).2.look path =
      .ok node) : (c.getBytes d path bytes).disk.look path = .ok node := by
  rcases look_getBytes h c bytes with hlook | hlook
  · exact hlook
  · rwa [setBytes, FileState.ofDisk?, hlook] at hstays

end ResultCache

namespace Worker

variable {directory : Path} {met : FileState → Prop} {w : Worker} {c : ResultCache} {d : Disk}
  {path : Path}

theorem outcome_of_backed (hcache : w.cache = some c) (hc : c.Backed directory met d)
    (happart : ∀ s t, met s → met t → s.key = t.key → s.path.text = t.path.text)
    (hmet : ∀ s, Stamp.at? d path = some s → met s.state) :
    (w.analyze d path).1 = .expected w.limits d path (saved? directory d path) := by
  cases hstamp : Stamp.at? d path with
  | none =>
    obtain ⟨e, hread⟩ := Stamp.read_of_at?_none hstamp
    simp only [analyze_of_read_error hread, Outcome.expected, hread]
  | some s =>
    obtain ⟨doc, state, hread, hstate, hkey⟩ := Stamp.read_of_at? hstamp
    have hfound := hc.found_eq_saved? happart hstamp (hmet s hstamp) hstate hkey
    simp only [analyze_of_cache_some hcache hread rfl, hfound, Outcome.expected, hread]
    cases saved? directory d path with
    | some findings => rfl
    | none => cases doc.analyze w.limits path.text <;> rfl

/-- After a file that stays as it is, the directory has the answer for it, and what it has under
other keys is as before. -/
theorem analyze_backed (hcache : w.cache = some c) (hc : c.Backed directory met d)
    (happart : ∀ s t, met s → met t → s.key = t.key → s.path.text = t.path.text)
    (hmet : ∀ s, Stamp.at? d path = some s → met s.state)
    (hstays : (w.analyze d path).2.2.look path = d.look path)
    (hreadable : ∀ findings, analyzed? w.limits d path = some findings →
      Entry.ofBytes? (Entry.mk path.text findings).toBytes = some ⟨path.text, findings⟩) :
    (∃ c', (w.analyze d path).2.1.cache = some c' ∧
      c'.Backed directory met (w.analyze d path).2.2) ∧
    saved? directory (w.analyze d path).2.2 path = answer? directory w.limits d path ∧
    ∀ t, (∀ s, Stamp.at? d path = some s → t.key ≠ s.state.key) →
      entryIn? directory (w.analyze d path).2.2 t = entryIn? directory d t := by
  cases hstamp : Stamp.at? d path with
  | none =>
    obtain ⟨e, hread⟩ := Stamp.read_of_at?_none hstamp
    rw [analyze_of_read_error hread, answer?_of_at?_none hstamp]
    exact ⟨⟨c, hcache, hc⟩, saved?_of_at?_none hstamp, fun _ _ => rfl⟩
  | some s =>
    obtain ⟨doc, state, hread, hstate, hkey⟩ := Stamp.read_of_at? hstamp
    have hpath := Stamp.text_of_at? hstamp
    obtain ⟨_, hbacked, hentries⟩ := hc.getBytes happart hstate hkey hpath (hmet s hstamp)
    have hanalyze := analyze_of_cache_some hcache hread rfl
    rw [hc.found_eq_saved? happart hstamp (hmet s hstamp) hstate hkey] at hanalyze
    cases hsaved : saved? directory d path with
    | some findings =>
      simp only [hsaved] at hanalyze
      rw [hanalyze] at hstays ⊢
      refine ⟨⟨_, rfl, hbacked⟩, ?_, fun t _ => hentries t⟩
      rw [saved?_of_look hstays fun s _ => hentries s.state, answer?, hsaved, Option.some_or]
    | none =>
      cases hresult : doc.analyze w.limits path.text with
      | error fault =>
        simp only [hsaved, hresult] at hanalyze
        rw [hanalyze] at hstays ⊢
        refine ⟨⟨_, rfl, hbacked⟩, ?_, fun t _ => hentries t⟩
        rw [saved?_of_look hstays fun s _ => hentries s.state, answer?, hsaved, Option.none_or,
          analyzed?_of_read hread, hresult]
        rfl
      | ok findings =>
        simp only [hsaved, hresult, Syntax.Document.not_any_processingError hresult,
          Bool.false_eq_true, if_false] at hanalyze
        rw [hanalyze] at hstays ⊢
        have hanalyzed : analyzed? w.limits d path = some findings := by
          rw [analyzed?_of_read hread, hresult]
          rfl
        obtain ⟨document, modified, hlook, _⟩ := Stamp.at?_eq_some.mp hstamp
        have hlook' := ResultCache.look_of_look_setBytes hlook (hstays.trans hlook)
        rw [FileState.ofDisk?, hlook, ← hlook', ← FileState.ofDisk?] at hstate
        obtain ⟨hbacked', hself, hothers⟩ :=
          hbacked.setBytes hstate hkey hpath (hmet s hstamp) (hreadable findings hanalyzed)
        refine ⟨⟨_, rfl, hbacked'⟩, ?_, fun t ht => (hothers t (ht s rfl)).trans (hentries t)⟩
        rw [answer?, hsaved, Option.none_or, hanalyzed]
        exact (saved?_eq_some_iff ((Stamp.at?_of_look hstays).trans hstamp)).mpr hself

/-- A worker changes files in the directory of its cache only. -/
theorem within_analyze (hw : ∀ c ∈ w.cache, c.directory = directory) (path : Path) :
    (∀ c ∈ (w.analyze d path).2.1.cache, c.directory = directory) ∧
      d.Within directory (w.analyze d path).2.2 := by
  cases hread : d.read path with
  | error e =>
    rw [analyze_of_read_error hread]
    exact ⟨hw, .refl directory d⟩
  | ok doc =>
    cases hcache : w.cache with
    | none =>
      rw [analyze_of_cache_none hcache hread]
      exact ⟨hw, .refl directory d⟩
    | some c =>
      obtain rfl := hw c hcache
      obtain ⟨hdirectory, hwithin⟩ := c.frame_getBytes d path doc.bytes
      rw [analyze_of_cache_some hcache hread rfl]
      split
      · exact ⟨fun c' hc' => Option.some.inj hc' ▸ hdirectory, hwithin⟩
      · split
        · exact ⟨fun c' hc' => Option.some.inj hc' ▸ hdirectory, hwithin⟩
        · rename_i findings hresult
          obtain ⟨hdirectory', hwithin'⟩ := (c.getBytes d path doc.bytes).cache.frame_setBytes
            (c.getBytes d path doc.bytes).disk path doc.bytes findings
          simp only [Syntax.Document.not_any_processingError hresult, Bool.false_eq_true, if_false]
          rw [hdirectory] at hdirectory' hwithin'
          exact ⟨fun c' hc' => Option.some.inj hc' ▸ hdirectory', hwithin.trans hwithin'⟩

end Worker

end Coupling
