import Coupling.Ignore.Rules
import Coupling.Paths.Exclusion
import Coupling.Proofs.Paths.Shown
import Mathlib.Data.List.Induction

/-!
# Paths below a path

A name that is joined to a path adds one component and changes no other, whatever the path looks
like. So what leaves a directory out leaves out everything below it: its text is the start of every
text below it, and its names are directories of every path below it.
-/

namespace Coupling.Paths

open Disk (IsName)

variable {name : Path}

theorem bytes_join (hname : IsName name) (base : Path) :
    (join base name).bytes =
      if base.bytes = [] ∨ base.bytes.getLast? = some slash then base.bytes ++ name.bytes
      else base.bytes ++ slash :: name.bytes := by
  have hhead : name.bytes.head? ≠ some slash := fun hhead => hname.2.2.2 (List.mem_of_head? hhead)
  rw [join, if_neg hhead]
  split <;> rfl

/-- A path is shown as the start of what is below it, since a slash stands between them. -/
theorem text_prefix_join (hname : IsName name) (base : Path) :
    base.text.toList <+: (join base name).text.toList := by
  have hslash : ∀ front rest : Text.Bytes,
      Text.lossy front ++ ['/'] <+: Text.lossy (front ++ slash :: rest) := by
    intro front rest
    rw [Text.lossy_append_cons slash_lt]
    exact ⟨Text.lossy rest, List.append_assoc ..⟩
  rw [Path.text, Path.text, String.toList_ofList, String.toList_ofList, bytes_join hname]
  by_cases hempty : base.bytes = []
  · rw [hempty]
    exact List.nil_prefix
  by_cases hlast : base.bytes.getLast? = some slash
  · obtain ⟨front, hfront⟩ := List.getLast?_eq_some_iff.mp hlast
    rw [if_pos (.inr hlast), hfront, List.append_assoc, List.singleton_append,
      Text.lossy_append_cons slash_lt front []]
    exact hslash front name.bytes
  · rw [if_neg (not_or.mpr ⟨hempty, hlast⟩)]
    exact (List.prefix_append _ _).trans (hslash base.bytes name.bytes)

/-! ### Components -/

/-- A piece after others adds its component. An empty piece before others is the root. -/
theorem ofSegments_append_singleton {front : List Text.Bytes} (hfront : front ≠ [])
    (last : Text.Bytes) :
    ofSegments (front ++ [last]) =
      (if front = [[]] then [.root] else ofSegments front) ++ (component? last).toList := by
  rcases front with _ | ⟨first, rest⟩
  · exact absurd rfl hfront
  have hlast : [last].filterMap component? = (component? last).toList := by
    cases h : component? last <;> simp [h]
  rw [List.cons_append, ofSegments, ofSegments, List.filterMap_append, hlast, ← List.append_assoc]
  by_cases hfirst : first = []
  · cases rest <;> simp [hfirst]
  · simp [hfirst]

theorem segments_ne_nil (bytes : Text.Bytes) : segments bytes ≠ [] := by
  cases bytes with
  | nil => simp [segments]
  | cons b bytes =>
    rw [segments]
    split
    · simp
    · split <;> simp

theorem segments_ne_singleton_nil {bytes : Text.Bytes} (hbytes : bytes ≠ []) :
    segments bytes ≠ [[]] := by
  cases bytes with
  | nil => exact absurd rfl hbytes
  | cons b bytes =>
    rw [segments]
    split
    · simp [segments_ne_nil]
    · split <;> simp

/-- Joining a name to a path adds the component of that name. -/
theorem components_join (hname : IsName name) (base : Path) :
    components (join base name) = components base ++ [.normal name] := by
  have hsegments : segments name.bytes = [name.bytes] := Disk.segments_of_notMem hname.2.2.2
  rw [components_eq, components_eq, bytes_join hname]
  by_cases hempty : base.bytes = []
  · have hne : name.bytes.isEmpty = false := by simpa using hname.1
    simp [hempty, hsegments, ofSegments, segments, hne, hname.2.1, component?_of_isName hname]
  by_cases hlast : base.bytes.getLast? = some slash
  · obtain ⟨front, hfront⟩ := List.getLast?_eq_some_iff.mp hlast
    rw [if_pos (.inr hlast), hfront, List.append_assoc, List.singleton_append,
      Disk.segments_append_slash, Disk.segments_append_slash, hsegments, segments,
      ofSegments_append_singleton (segments_ne_nil front),
      ofSegments_append_singleton (segments_ne_nil front), component?_of_isName hname]
    simp [component?]
  · rw [if_neg (not_or.mpr ⟨hempty, hlast⟩), Disk.segments_append_slash, hsegments,
      ofSegments_append_singleton (segments_ne_nil _), if_neg (segments_ne_singleton_nil hempty),
      component?_of_isName hname]
    rfl

/-- Some names below a path. -/
def AllNames (names : List Path) : Prop := ∀ name ∈ names, IsName name

instance (names : List Path) : Decidable (AllNames names) :=
  inferInstanceAs (Decidable (∀ name ∈ names, IsName name))

variable {names : List Path}

theorem components_foldl_join (hnames : AllNames names) (base : Path) :
    components (names.foldl join base) = components base ++ names.map .normal := by
  induction names generalizing base with
  | nil => simp
  | cons name rest ih =>
    rw [List.foldl_cons, ih (fun n hn => hnames n (List.mem_cons_of_mem name hn)),
      components_join (hnames name List.mem_cons_self)]
    simp

theorem text_prefix_foldl_join (hnames : AllNames names) (base : Path) :
    base.text.toList <+: (names.foldl join base).text.toList := by
  induction names generalizing base with
  | nil => exact List.prefix_rfl
  | cons name rest ih =>
    exact (text_prefix_join (hnames name List.mem_cons_self) base).trans
      (ih (fun n hn => hnames n (List.mem_cons_of_mem name hn)) (join base name))

/-- Different names lead to different paths. -/
theorem foldl_join_injective {others : List Path} (hnames : AllNames names)
    (hothers : AllNames others) {base : Path}
    (h : names.foldl join base = others.foldl join base) : names = others := by
  have hcomponents := congrArg components h
  rw [components_foldl_join hnames, components_foldl_join hothers] at hcomponents
  exact List.map_injective_iff.mpr (fun _ _ => Component.normal.inj)
    (List.append_cancel_left hcomponents)

theorem join_empty (hname : IsName name) : join ⟨[]⟩ name = name := by
  have hbytes := bytes_join hname ⟨[]⟩
  rw [if_pos (.inl rfl), List.nil_append] at hbytes
  exact Path.ext hbytes

/-- The extension of a path is that of its last name. -/
theorem extension?_join (hname : IsName name) (base : Path) :
    extension? (join base name) = extension? name := by
  have hfile : ∀ base, fileName? (join base name) = some name := by
    intro base
    rw [fileName?, components_join hname]
    simp
  have hself := hfile ⟨[]⟩
  rw [join_empty hname] at hself
  rw [extension?, extension?, hfile, hself]

/-! ### Names as one path -/

theorem bytes_pathOf_append_singleton {front : List Path} (hfront : front ≠ []) (last : Path) :
    (Ignore.pathOf (front ++ [last])).bytes =
      (Ignore.pathOf front).bytes ++ slash :: last.bytes := by
  induction front with
  | nil => exact absurd rfl hfront
  | cons first front ih =>
    rcases eq_or_ne front [] with rfl | hne
    · simp [Ignore.pathOf, List.intercalate]
    · simp only [Ignore.pathOf, List.map_append, List.map_cons, List.map_nil] at ih
      simp only [Ignore.pathOf, List.map_append, List.map_cons, List.map_nil, List.cons_append]
      rw [List.intercalate_cons_of_ne_nil (by simp), List.intercalate_cons_of_ne_nil (by simpa),
        ih hne, List.append_assoc, List.append_assoc, List.append_assoc]

/-- The path of some names ends with the last of them. -/
theorem getLast?_pathOf {last : Path} (hlast : last.bytes ≠ []) (front : List Path) :
    (Ignore.pathOf (front ++ [last])).bytes.getLast? = last.bytes.getLast? := by
  by_cases hfront : front = []
  · simp [hfront, Ignore.pathOf]
  · rw [bytes_pathOf_append_singleton hfront, ← List.singleton_append, ← List.append_assoc,
      List.getLast?_append_of_ne_nil _ hlast]

theorem pathOf_append_singleton (hnames : AllNames (names ++ [name])) :
    Ignore.pathOf (names ++ [name]) = join (Ignore.pathOf names) name := by
  have hname : IsName name := hnames name (by simp)
  rcases List.eq_nil_or_concat names with rfl | ⟨front, last, rfl⟩
  · have hself : Ignore.pathOf [name] = name := Path.ext (by simp [Ignore.pathOf])
    exact hself.trans (join_empty hname).symm
  rw [List.concat_eq_append] at hnames ⊢
  have hlast : IsName last := hnames last (by simp)
  have hend : (Ignore.pathOf (front ++ [last])).bytes.getLast? = last.bytes.getLast? :=
    getLast?_pathOf hlast.1 front
  have hslash : last.bytes.getLast? ≠ some slash := fun h => hlast.2.2.2 (List.mem_of_getLast? h)
  have hne : (Ignore.pathOf (front ++ [last])).bytes ≠ [] := by
    intro hnil
    rw [hnil, List.getLast?_nil, eq_comm, List.getLast?_eq_none_iff] at hend
    exact hlast.1 hend
  apply Path.ext
  rw [bytes_join hname, if_neg (not_or.mpr ⟨hne, hend ▸ hslash⟩),
    bytes_pathOf_append_singleton (by simp)]

theorem pathOf_eq_foldl_join (hnames : AllNames names) :
    Ignore.pathOf names = names.foldl join ⟨[]⟩ := by
  induction names using List.reverseRecOn with
  | nil => rfl
  | append_singleton front last ih =>
    rw [pathOf_append_singleton hnames, List.foldl_append,
      ih fun n hn => hnames n (List.mem_append_left _ hn)]
    rfl

theorem pathOf_append {below : List Path} (hnames : AllNames (names ++ below)) :
    Ignore.pathOf (names ++ below) = below.foldl join (Ignore.pathOf names) := by
  rw [pathOf_eq_foldl_join hnames, List.foldl_append,
    pathOf_eq_foldl_join fun n hn => hnames n (List.mem_append_left _ hn)]

/-! ### Exclusions -/

theorem occurs_iff {needle cs : List Char} : Text.occurs needle cs = true ↔ needle <:+: cs := by
  induction cs with
  | nil => simp [Text.occurs]
  | cons c cs ih =>
    rw [Text.occurs, Bool.or_eq_true, List.isPrefixOf_iff_prefix, ih, List.infix_cons_iff]

/-- The directories of a path are among those of every path below it. -/
theorem directories_below (hnames : AllNames names) (hne : names ≠ []) (path : Path)
    (isDir : Bool) :
    Exclusion.directories path true <+: Exclusion.directories (names.foldl join path) isDir := by
  obtain ⟨name?, hname?, hdirectories⟩ : ∃ name? : Component → Option Path,
      (∀ name, name? (.normal name) = some name) ∧ ∀ path isDir,
        Exclusion.directories path isDir = if isDir then (components path).filterMap name?
          else ((components path).filterMap name?).dropLast :=
    ⟨_, fun _ => rfl, fun _ _ => rfl⟩
  have hself : (names.map Component.normal).filterMap name? = names := by
    simp [List.filterMap_map, hname?]
  rw [hdirectories, hdirectories, components_foldl_join hnames, List.filterMap_append, hself,
    List.dropLast_append_of_ne_nil hne, if_pos rfl]
  cases isDir with
  | true => exact List.prefix_append _ _
  | false => exact List.prefix_append _ _

/-- What leaves a directory out leaves out everything below it. -/
theorem Exclusion.excludes_below (hnames : AllNames names) (hne : names ≠ []) {e : Exclusion}
    {path : Path} (h : e.excludes path true = true) (isDir : Bool) :
    e.excludes (names.foldl join path) isDir = true := by
  cases e with
  | directory g =>
    obtain ⟨name, hname, haccepts⟩ := List.any_eq_true.mp h
    exact List.any_eq_true.mpr
      ⟨name, (directories_below hnames hne path isDir).subset hname, haccepts⟩
  | glob g => simp [excludes] at h
  | text s =>
    rw [excludes, occurs_iff] at h ⊢
    exact h.trans (text_prefix_foldl_join hnames path).isInfix

theorem isExcluded_below (hnames : AllNames names) (hne : names ≠ [])
    {exclusions : List Exclusion} {path : Path} (h : isExcluded exclusions path true = true)
    (isDir : Bool) : isExcluded exclusions (names.foldl join path) isDir = true := by
  obtain ⟨e, he, hexcludes⟩ := List.any_eq_true.mp h
  exact List.any_eq_true.mpr ⟨e, he, e.excludes_below hnames hne hexcludes isDir⟩

/-! ### The order of paths -/

namespace Component

theorem le_total (a b : Component) : (a.le b || b.le a) = true := by
  have hnames : ∀ x y : Path, (compare x y).isLE = true ∨ (compare y x).isLE = true := by
    intro x y
    rw [Std.OrientedOrd.eq_swap (a := y) (b := x)]
    cases compare x y <;> simp
  cases a <;> cases b <;> simp [le, rank, hnames]

theorem le_trans {a b c : Component} (hab : a.le b = true) (hbc : b.le c = true) :
    a.le c = true := by
  cases a <;> cases b <;> cases c <;> simp_all [le, rank]
  exact Std.TransCmp.isLE_trans hab hbc

theorem le_antisymm {a b : Component} (hab : a.le b = true) (hba : b.le a = true) : a = b := by
  cases a <;> cases b <;> simp_all [le, rank]
  exact Std.LawfulEqCmp.eq_of_compare (Std.OrientedCmp.isLE_antisymm hab hba)

end Component

theorem leComponents_total (as bs : List Component) :
    (leComponents as bs || leComponents bs as) = true := by
  induction as generalizing bs with
  | nil => simp [leComponents]
  | cons a as ih =>
    cases bs with
    | nil => simp [leComponents]
    | cons b bs =>
      by_cases hab : a = b
      · simpa [leComponents, hab] using ih bs
      · simpa [leComponents, hab, Ne.symm hab] using Component.le_total a b

theorem leComponents_trans {as bs cs : List Component} (hab : leComponents as bs = true)
    (hbc : leComponents bs cs = true) : leComponents as cs = true := by
  induction as generalizing bs cs with
  | nil => simp [leComponents]
  | cons a as ih =>
    rcases bs with _ | ⟨b, bs⟩
    · simp [leComponents] at hab
    rcases cs with _ | ⟨c, cs⟩
    · simp [leComponents] at hbc
    simp only [leComponents] at hab hbc ⊢
    by_cases heqab : a = b
    · subst heqab
      by_cases heqac : a = c
      · rw [if_pos heqac] at hbc ⊢
        rw [if_pos rfl] at hab
        exact ih hab hbc
      · rwa [if_neg heqac] at hbc ⊢
    rw [if_neg heqab] at hab
    by_cases heqbc : b = c
    · subst heqbc
      rwa [if_neg heqab]
    rw [if_neg heqbc] at hbc
    -- two steps up do not come back to the same component
    have heqac : a ≠ c := by
      rintro rfl
      exact heqab (Component.le_antisymm hab hbc)
    rw [if_neg heqac]
    exact Component.le_trans hab hbc

theorem lePaths_total (a b : Path) : (lePaths a b || lePaths b a) = true :=
  leComponents_total _ _

theorem lePaths_trans (a b c : Path) (hab : lePaths a b = true) (hbc : lePaths b c = true) :
    lePaths a c = true :=
  leComponents_trans hab hbc

end Coupling.Paths
