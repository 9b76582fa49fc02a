import Coupling.Settings.Load

/-!
# Which settings file decides

A search for settings goes up from a directory and stops at the first settings file that can be
read; settings in it that are malformed or invalid are an error. Something of that name that cannot
be read as text is passed over, and then the search finds what is further up, or nothing. So the
nearest file decides if and only if it can be read.
-/

namespace Coupling.Settings

/-- The path of the settings file in a directory. -/
def pathIn (directory : Path) : Path := Paths.join directory fileName

/-- The directory holds something of the name of settings files. -/
def present (d : Disk) (directory : Path) : Bool := (d.look (pathIn directory)).isOk

/-- The directory holds a settings file that is text. -/
def readable (d : Disk) (directory : Path) : Bool := (d.readText (pathIn directory)).isOk

/-- The settings of the first directory with a property, or the usual ones if there is none. -/
def loadFirst (d : Disk) (start : Path) (p : Path → Bool) : Except SettingsError Settings :=
  match (Paths.ancestors searchDepth start).find? p with
  | some directory => load d (pathIn directory)
  | none => .ok {}

variable {d : Disk} {start directory : Path}

/-! ### What can be read -/

theorem readable_iff : readable d directory = true ↔
    ∃ document modified cs, d.look (pathIn directory) = .ok (.file document modified) ∧
      Text.decode? document.bytes = some cs := by
  simp only [readable, Disk.readText, Disk.read]
  cases d.look (pathIn directory) with
  | error e => simp [Except.isOk, Except.toBool]
  | ok node =>
    cases node with
    | directory => simp [Except.isOk, Except.toBool]
    | file document modified =>
      cases hdecode : Text.decode? document.bytes with
      | none => simp [hdecode, Except.isOk, Except.toBool]
      | some cs => simp [hdecode, Except.isOk, Except.toBool]

theorem present_of_readable (h : readable d directory = true) : present d directory = true := by
  obtain ⟨document, modified, cs, hlook, _⟩ := readable_iff.mp h
  rw [present, hlook]
  rfl

/-- What is there and cannot be read is a directory or holds bytes that are no text. -/
theorem readable_eq_false_iff (h : present d directory = true) :
    readable d directory = false ↔ d.look (pathIn directory) = .ok .directory ∨
      ∃ document modified, d.look (pathIn directory) = .ok (.file document modified) ∧
        Text.decode? document.bytes = none := by
  rw [← Bool.not_eq_true, readable_iff]
  unfold present at h
  cases hlook : d.look (pathIn directory) with
  | error e => simp [hlook, Except.isOk, Except.toBool] at h
  | ok node =>
    cases node with
    | directory => simp
    | file document modified => simp [Option.eq_none_iff_forall_ne_some]

/-- A file that cannot be read has no settings, and the error says so. -/
theorem load_of_readable_eq_false (h : readable d directory = false) :
    ∃ e, load d (pathIn directory) = .error (.unreadable (pathIn directory) e) := by
  unfold readable at h
  unfold load
  cases hread : d.readText (pathIn directory) with
  | error e => exact ⟨e, rfl⟩
  | ok cs => simp [hread, Except.isOk, Except.toBool] at h

/-! ### The search -/

theorem nearest?_eq (d : Disk) (start : Path) :
    nearest? d start =
      ((Paths.ancestors searchDepth start).find? (readable d)).bind fun directory =>
        (d.readText (pathIn directory)).toOption := by
  show (Paths.ancestors searchDepth start).findSome? (fun directory =>
    (d.readText (pathIn directory)).toOption) = _
  induction Paths.ancestors searchDepth start with
  | nil => rfl
  | cons directory rest ih =>
    rw [List.findSome?_cons, List.find?_cons, readable]
    cases hread : d.readText (pathIn directory) with
    | error e => exact ih
    | ok cs => simp [Except.isOk, Except.toBool, Except.toOption, hread]

/-- The search stops at the first file that can be read. -/
theorem discover_eq_loadFirst (d : Disk) (start : Path) :
    discover d start = loadFirst d start (readable d) := by
  unfold discover loadFirst
  rw [nearest?_eq]
  cases hfind : (Paths.ancestors searchDepth start).find? (readable d) with
  | none => rfl
  | some directory =>
    have hreadable := List.find?_some hfind
    unfold readable at hreadable
    cases hread : d.readText (pathIn directory) with
    | error e => simp [hread, Except.isOk, Except.toBool] at hreadable
    | ok cs => simp only [Option.bind_some, Except.toOption, load, hread]

theorem ofText_ne_unreadable (cs : List Char) (path : Path) (e : DiskError) :
    ofText cs ≠ .error (.unreadable path e) := by
  unfold ofText
  split
  · simp
  · unfold validated
    split
    · simp
    · simp

/-- A search never fails for want of reading. -/
theorem discover_ne_unreadable (d : Disk) (start path : Path) (e : DiskError) :
    discover d start ≠ .error (.unreadable path e) := by
  unfold discover
  split
  · exact ofText_ne_unreadable _ path e
  · simp

/-- If the first file that is there can be read, it is the first one that can be read. -/
theorem find?_readable {directories : List Path}
    (hfind : directories.find? (present d) = some directory) (h : readable d directory = true) :
    directories.find? (readable d) = some directory := by
  rw [List.find?_eq_some_iff_append] at hfind ⊢
  obtain ⟨_, before, after, hsplit, hbefore⟩ := hfind
  refine ⟨h, before, after, hsplit, fun other hother => ?_⟩
  have habsent := hbefore other hother
  rw [Bool.not_eq_true'] at habsent ⊢
  exact Bool.eq_false_iff.mpr fun hreadable =>
    Bool.eq_false_iff.mp habsent (present_of_readable hreadable)

theorem find?_readable_eq_none {directories : List Path}
    (hfind : directories.find? (present d) = none) : directories.find? (readable d) = none := by
  rw [List.find?_eq_none] at hfind ⊢
  exact fun other hother hreadable => hfind other hother (present_of_readable hreadable)

theorem discover_eq_loadFirst_present_iff :
    discover d start = loadFirst d start (present d) ↔
      ∀ directory, (Paths.ancestors searchDepth start).find? (present d) = some directory →
        readable d directory = true := by
  constructor
  · intro hdiscover directory hfind
    cases hreadable : readable d directory with
    | true => rfl
    | false =>
      obtain ⟨e, hload⟩ := load_of_readable_eq_false hreadable
      rw [loadFirst, hfind] at hdiscover
      exact absurd (hdiscover.trans hload) (discover_ne_unreadable d start _ e)
  · intro hnearest
    rw [discover_eq_loadFirst, loadFirst, loadFirst]
    cases hfind : (Paths.ancestors searchDepth start).find? (present d) with
    | none => rw [find?_readable_eq_none hfind]
    | some directory => rw [find?_readable hfind (hnearest directory hfind)]

/-- A search for settings loads the nearest settings file that can be read, and takes the usual
settings if there is none. That is the nearest settings file, unless this one is a directory or no
text: a disk here refuses nothing that is there, so these are the ways in which reading fails. -/
theorem discover_loads_nearest (d : Disk) (start : Path) :
    discover d start = loadFirst d start (readable d) ∧
    (discover d start = loadFirst d start (present d) ↔
      ∀ directory, (Paths.ancestors searchDepth start).find? (present d) = some directory →
        readable d directory = true) ∧
    ∀ directory, present d directory = true →
      (readable d directory = false ↔ d.look (pathIn directory) = .ok .directory ∨
        ∃ document modified, d.look (pathIn directory) = .ok (.file document modified) ∧
          Text.decode? document.bytes = none) :=
  ⟨discover_eq_loadFirst d start, discover_eq_loadFirst_present_iff,
    fun _ => readable_eq_false_iff⟩

/-- A disk with a directory that holds a settings file of one byte, which is no text. -/
def garbledDisk : Disk :=
  ((Disk.blank ["work"]).put ["work", "pkg"] .directory).put ["work", "pkg", fileName]
    (.file ⟨[0xff], none⟩ 0)

theorem discover_loads_nearest_garbledDisk :
    present garbledDisk "pkg" = true ∧ readable garbledDisk "pkg" = false ∧
      discover garbledDisk "pkg" ≠ loadFirst garbledDisk "pkg" (present garbledDisk) := by
  have hfind : (Paths.ancestors searchDepth "pkg").find? (present garbledDisk) =
      some (.ofText "pkg") := by
    decide +kernel
  have hunreadable : readable garbledDisk "pkg" = false := by decide +kernel
  refine ⟨List.find?_some hfind, hunreadable, fun hdiscover => ?_⟩
  have hreadable := (discover_loads_nearest garbledDisk "pkg").2.1.mp hdiscover "pkg" hfind
  simp [hunreadable] at hreadable

/-- The nearest settings file is there and cannot be loaded. The search takes the usual settings. -/
theorem garbled_file_ignored :
    present garbledDisk "pkg" = true ∧ (load garbledDisk (pathIn "pkg")).isOk = false ∧
      discover garbledDisk "pkg" = .ok {} := by
  have hnone : nearest? garbledDisk "pkg" = none := by decide +kernel
  refine ⟨by decide +kernel, by decide +kernel, ?_⟩
  rw [discover, hnone]

end Coupling.Settings
