import Coupling.Disk.Discovery
import Coupling.Proofs.Disk.Contents
import Coupling.Proofs.Paths.Below
import Mathlib.Data.List.Nodup

/-!
# What a search finds

A search does not enter the directories that an exclusion leaves out. Since such an exclusion leaves
out the files below them as well, the search finds what it would find by looking at every file.
-/

namespace Coupling.Ignore

theorem subset_of_upTo {α : Type} (p : α → Bool) (xs : List α) : upTo p xs ⊆ xs := by
  unfold upTo
  split
  · rw [List.append_subset]
    refine ⟨List.takeWhile_subset _, ?_⟩
    intro x hx
    exact List.mem_of_find?_eq_some (Option.mem_toList.mp hx)
  · exact List.nil_subset xs

theorem isIgnored_of_no_rules {d : Disk}
    (h : ∀ here, (Rulebook.ofDirectory d here).own = [] ∧
      (Rulebook.ofDirectory d here).versioned = [] ∧ (Rulebook.ofDirectory d here).excluded = [])
    (location : Location) (isDir : Bool) : isIgnored d location isDir = false := by
  let books : List (Rulebook × Text.Bytes) :=
    (views location).map fun view => (Rulebook.ofDirectory d view.1, view.2)
  let repository := upTo (fun book => book.1.isRepository) books
  have hsilent : ∀ part ⊆ books, ∀ rules : Rulebook → List Rule,
      (∀ here, rules (Rulebook.ofDirectory d here) = []) →
        (part.findSome? fun book => judge (rules book.1) book.2 isDir) = none := by
    intro part hpart rules hrules
    rw [List.findSome?_eq_none_iff]
    intro book hmem
    obtain ⟨view, -, rfl⟩ := List.mem_map.mp (hpart hmem)
    simp [hrules, judge]
  have hwithin : repository ⊆ books := subset_of_upTo _ books
  change (((books.findSome? fun book => judge book.1.own book.2 isDir).or <|
    (repository.findSome? fun book => judge book.1.versioned book.2 isDir).or <|
    repository.findSome? fun book => judge book.1.excluded book.2 isDir) == some true) = false
  rw [hsilent books (List.Subset.refl _) Rulebook.own fun here => (h here).1,
    hsilent repository hwithin Rulebook.versioned fun here => (h here).2.1,
    hsilent repository hwithin Rulebook.excluded fun here => (h here).2.2]
  rfl

end Coupling.Ignore

namespace Coupling.Disk

/-- A file is at a location. -/
def HasFile (d : Disk) (location : Location) : Prop :=
  ∃ document modified, d.node? location = some (.file document modified)

/-- Everything on a disk is reached by names. -/
def Named (d : Disk) : Prop := ∀ location, (d.node? location).isSome → Paths.AllNames location

/-- No rule ignores a file below a location, or a directory on the way to one. -/
def Unruled (d : Disk) (here : Location) : Prop :=
  ∀ above below, above ≠ [] → d.HasFile (here ++ (above ++ below)) →
    Ignore.isIgnored d (here ++ above) (!below.isEmpty) = false

theorem Named.allNames_of_hasFile {d : Disk} (hd : d.Named) {here names : Location}
    (h : d.HasFile (here ++ names)) : Paths.AllNames names := by
  obtain ⟨document, modified, hnode⟩ := h
  have hall : Paths.AllNames (here ++ names) := hd _ (by rw [hnode]; rfl)
  exact fun name hname => hall name (List.mem_append_right here hname)

theorem Named.put {d : Disk} (hd : d.Named) {here : Location} (hne : here ≠ [])
    (hhere : Paths.AllNames here) (node : DiskNode) : (d.put here node).Named := by
  intro location hsome
  rw [node?_put d hne] at hsome
  split at hsome
  · subst location
    exact hhere
  · exact hd location hsome

/-- Without files of rules, nothing is ignored. -/
theorem unruled_of_no_rules {d : Disk}
    (h : ∀ (above : Location) (name : String), name ∈ [".ignore", ".gitignore", "exclude"] →
      ¬ d.HasFile (above ++ [.ofText name]))
    (here : Location) : d.Unruled here := by
  have hrules : ∀ (above : Location) (name : String),
      name ∈ [".ignore", ".gitignore", "exclude"] →
      Ignore.rulesAt d (above ++ [.ofText name]) = [] := by
    intro above name hname
    unfold Ignore.rulesAt
    split
    · rename_i document modified hnode
      exact absurd ⟨document, modified, hnode⟩ (h above name hname)
    · rfl
  intro above below _ _
  apply Ignore.isIgnored_of_no_rules
  intro inside
  refine ⟨hrules inside ".ignore" (by simp), hrules inside ".gitignore" (by simp), ?_⟩
  have hexclude := hrules (inside ++ [".git", "info"].map Path.ofText) "exclude" (by simp)
  rwa [List.append_assoc] at hexclude

end Coupling.Disk

namespace Coupling.Discovery

open Paths

namespace Search

variable {s : Search}

theorem admits_of_not_isIgnored {names : List Path} (isDir : Bool)
    (h : Ignore.isIgnored s.disk (s.root ++ names) isDir = false) :
    s.admits names isDir = !isExcluded s.exclusions (Ignore.pathOf names) isDir := by
  rw [admits, h, Bool.not_false, Bool.and_true]

/-- Where nothing is ignored, the directories on the way to a file take no part in whether the
search gets to it. -/
theorem reaches_iff (above : List Path) {names : List Path} (hnames : AllNames (above ++ names))
    (hne : names ≠ [])
    (hkept : ∀ part rest, part ++ rest = names → part ≠ [] →
      Ignore.isIgnored s.disk (s.root ++ (above ++ part)) (!rest.isEmpty) = false)
    (base : Path) :
    s.reaches above names = true ↔
      extension? (names.foldl join base) = some sourceExtension ∧
        isExcluded s.exclusions (Ignore.pathOf (above ++ names)) false = false := by
  induction names generalizing above base with
  | nil => exact absurd rfl hne
  | cons name rest ih =>
    have hname : Disk.IsName name := hnames name (by simp)
    have hself := hkept [name] rest rfl (by simp)
    cases rest with
    | nil =>
      have hadmits := admits_of_not_isIgnored false hself
      rw [reaches, List.foldl_cons, List.foldl_nil, extension?_join hname, Bool.and_eq_true,
        beq_iff_eq, hadmits, Bool.not_eq_true']
    | cons next rest =>
      have hadmits := admits_of_not_isIgnored true hself
      have hassoc : above ++ name :: next :: rest = above ++ [name] ++ next :: rest := by simp
      rw [hassoc] at hnames ⊢
      have hinner := ih (above ++ [name]) hnames (by simp)
        (fun part rest' hpart _ => by
          simpa using hkept (name :: part) rest' (by simp [hpart]) (by simp))
        (join base name)
      -- a directory that is left out takes the file below it along
      have hpruned : isExcluded s.exclusions (Ignore.pathOf (above ++ [name])) true = true →
          isExcluded s.exclusions
            (Ignore.pathOf (above ++ [name] ++ next :: rest)) false = true := by
        intro hexcluded
        rw [pathOf_append hnames]
        exact isExcluded_below (fun n hn => hnames n (List.mem_append_right _ hn)) (by simp)
          hexcluded false
      rw [reaches, Bool.and_eq_true, hinner, List.foldl_cons, hadmits, Bool.not_eq_true']
      · apply and_iff_right_of_imp
        rintro ⟨-, hfile⟩
        cases hdirectory : isExcluded s.exclusions (Ignore.pathOf (above ++ [name])) true with
        | false => rfl
        | true => exact absurd (hpruned hdirectory) (by rw [hfile]; decide)
      · simp

/-- The candidates are picked from the entries of the disk. -/
theorem candidates_eq (s : Search) :
    ∃ below? : Location × DiskNode → Option (List Path),
      s.candidates = s.disk.nodes.toList.filterMap below? ∧ ∀ location node names,
        below? (location, node) = some names ↔
          location = s.root ++ names ∧ ∃ document modified, node = .file document modified := by
  refine ⟨_, rfl, ?_⟩
  intro location node names
  cases node with
  | directory => simp
  | file document modified =>
    simp only [Option.ite_none_right_eq_some, List.isPrefixOf_iff_prefix, Option.some.injEq]
    constructor
    · rintro ⟨⟨rest, rfl⟩, hdrop⟩
      exact ⟨by rw [← hdrop, List.drop_left], document, modified, rfl⟩
    · rintro ⟨rfl, -⟩
      exact ⟨List.prefix_append _ _, List.drop_left⟩

theorem mem_candidates_iff {names : List Path} :
    names ∈ s.candidates ↔
      ∃ document modified, s.disk.nodes[s.root ++ names]? = some (.file document modified) := by
  obtain ⟨below?, hcandidates, hbelow⟩ := s.candidates_eq
  rw [hcandidates, List.mem_filterMap]
  constructor
  · rintro ⟨⟨location, node⟩, hmem, hsome⟩
    obtain ⟨rfl, document, modified, rfl⟩ := (hbelow _ _ _).mp hsome
    exact ⟨document, modified, Std.TreeMap.mem_toList_iff_getElem?_eq_some.mp hmem⟩
  · rintro ⟨document, modified, hnode⟩
    exact ⟨(s.root ++ names, .file document modified),
      Std.TreeMap.mem_toList_iff_getElem?_eq_some.mpr hnode,
      (hbelow _ _ _).mpr ⟨rfl, document, modified, rfl⟩⟩

theorem nodup_candidates (s : Search) : s.candidates.Nodup := by
  obtain ⟨below?, hcandidates, hbelow⟩ := s.candidates_eq
  rw [hcandidates, List.Nodup, List.pairwise_filterMap]
  refine Std.TreeMap.distinct_keys_toList.imp ?_
  rintro ⟨a, m⟩ ⟨b, n⟩ hne names ha _ hb rfl
  apply hne
  rw [((hbelow _ _ _).mp ha).1, ((hbelow _ _ _).mp hb).1]
  exact Std.ReflCmp.compare_self

/-- Where nothing is ignored, a search finds the source files that are not left out. -/
theorem mem_found_iff (hnamed : s.disk.Named) (hunruled : s.disk.Unruled s.root)
    (hroot : s.disk.node? s.root = some .directory) {names : List Path} (base : Path) :
    names ∈ s.found ↔
      s.disk.HasFile (s.root ++ names) ∧
        extension? (names.foldl join base) = some sourceExtension ∧
        isExcluded s.exclusions (Ignore.pathOf names) false = false := by
  rw [found, List.mem_filter, mem_candidates_iff]
  by_cases hne : names = []
  · subst hne
    simp [reaches, Disk.HasFile, hroot]
  have hnode : s.disk.node? (s.root ++ names) = s.disk.nodes[s.root ++ names]? := by
    rw [Disk.node?, if_neg (by simp [hne])]
  rw [← hnode]
  apply and_congr_right
  intro (hfile : s.disk.HasFile (s.root ++ names))
  exact reaches_iff [] (hnamed.allNames_of_hasFile hfile) hne
    (fun part rest hpart hpartne => hunruled part rest hpartne (hpart ▸ hfile)) base

end Search

theorem sourceFiles_of_opens {d : Disk} {root : Path} (h : d.Opens root)
    (patterns : List String) :
    sourceFiles d patterns root = .ok
      (((Search.mk d (Disk.destination d.workDir root) (exclusionsOf patterns)).found.map
        fun names => names.foldl join root).mergeSort lePaths) := by
  unfold sourceFiles
  rw [h.locate_eq]
  simp only [h.node?_eq]

/-- What leaves a directory out leaves out all that is below it. So a search that does not enter
it returns, in the order of their components and each once, the source files that are not left
out themselves. -/
theorem pruning_agrees (patterns : List String) :
    (∀ (path : Path) (below : List Path), AllNames below → below ≠ [] →
      isExcluded (exclusionsOf patterns) path true = true → ∀ isDir,
        isExcluded (exclusionsOf patterns) (below.foldl join path) isDir = true) ∧
    ∀ (d : Disk) (root : Path), d.Named → d.Opens root →
      d.Unruled (Disk.destination d.workDir root) →
        ∃ files, sourceFiles d patterns root = .ok files ∧
          files.Pairwise (fun a b => lePaths a b = true) ∧ files.Nodup ∧
          ∀ file, file ∈ files ↔
            ∃ names, d.HasFile (Disk.destination d.workDir root ++ names) ∧
              file = names.foldl join root ∧ extension? file = some sourceExtension ∧
              isExcluded (exclusionsOf patterns) (Ignore.pathOf names) false = false := by
  refine ⟨fun path below hbelow hne h isDir => isExcluded_below hbelow hne h isDir, ?_⟩
  intro d root hnamed hopens hunruled
  have hroot := hopens.node?_eq
  refine ⟨_, sourceFiles_of_opens hopens patterns, ?_, ?_, ?_⟩
  · exact List.pairwise_mergeSort lePaths_trans lePaths_total _
  · rw [(List.mergeSort_perm _ _).nodup_iff]
    refine List.Nodup.map_on ?_ ((Search.nodup_candidates _).filter _)
    intro names hnames others hothers heq
    rw [Search.mem_found_iff hnamed hunruled hroot root] at hnames hothers
    exact foldl_join_injective (hnamed.allNames_of_hasFile hnames.1)
      (hnamed.allNames_of_hasFile hothers.1) heq
  · intro file
    rw [(List.mergeSort_perm _ _).mem_iff, List.mem_map]
    constructor
    · rintro ⟨names, hnames, rfl⟩
      obtain ⟨hfile, hextension, hkept⟩ :=
        (Search.mem_found_iff hnamed hunruled hroot root).mp hnames
      exact ⟨names, hfile, rfl, hextension, hkept⟩
    · rintro ⟨names, hfile, rfl, hextension, hkept⟩
      exact ⟨names, (Search.mem_found_iff hnamed hunruled hroot root).mpr
        ⟨hfile, hextension, hkept⟩, rfl⟩

/-- A project with a test in a directory of tests. -/
def testedProject : Disk :=
  let bare : Disk := ⟨["work"], ∅⟩
  ((((bare.put ["work"] .directory).put ["work", "main.py"] (.file ⟨[], none⟩ 0)).put
    ["work", "tests"] .directory).put ["work", "tests", "unit"] .directory).put
      ["work", "tests", "unit", "first.py"] (.file ⟨[], none⟩ 0)

theorem node?_testedProject (location : Location) :
    testedProject.node? location =
      if location = ["work", "tests", "unit", "first.py"] then some (.file ⟨[], none⟩ 0)
      else if location = ["work", "tests", "unit"] then some .directory
      else if location = ["work", "tests"] then some .directory
      else if location = ["work", "main.py"] then some (.file ⟨[], none⟩ 0)
      else if location = ["work"] then some .directory
      else if location = [] then some .directory
      else none := by
  unfold testedProject
  simp only
  rw [Disk.node?_put _ (by simp), Disk.node?_put _ (by simp), Disk.node?_put _ (by simp),
    Disk.node?_put _ (by simp), Disk.node?_put _ (by simp)]
  rfl

theorem named_testedProject : testedProject.Named := by
  have hbare : (⟨["work"], ∅⟩ : Disk).Named := by
    intro location hsome
    cases location with
    | nil => exact fun _ hname => absurd hname List.not_mem_nil
    | cons => simp [Disk.node?] at hsome
  exact ((((hbare.put (by simp) (by decide +kernel) _).put (by simp) (by decide +kernel) _).put
    (by simp) (by decide +kernel) _).put (by simp) (by decide +kernel) _).put
      (by simp) (by decide +kernel) _

theorem hasFile_testedProject {location : Location} (h : testedProject.HasFile location) :
    location = ["work", "tests", "unit", "first.py"] ∨ location = ["work", "main.py"] := by
  obtain ⟨document, modified, hnode⟩ := h
  rw [node?_testedProject] at hnode
  split_ifs at hnode <;> simp_all

theorem unruled_testedProject : testedProject.Unruled ["work"] := by
  apply Disk.unruled_of_no_rules
  intro above name hname hfile
  rcases hasFile_testedProject hfile with hlocation | hlocation
  · obtain rfl : name = "first.py" := by simpa using congrArg List.getLast? hlocation
    exact absurd hname (by decide)
  · obtain rfl : name = "main.py" := by simpa using congrArg List.getLast? hlocation
    exact absurd hname (by decide)

theorem pruning_agrees_testedProject :
    ∃ files, sourceFiles testedProject ["tests/"] "/work" = .ok files ∧
      .ofText "/work/main.py" ∈ files ∧ .ofText "/work/tests/unit/first.py" ∉ files := by
  have hopens : testedProject.Opens "/work" := ⟨["work"], rfl, rfl⟩
  obtain ⟨files, hfiles, -, -, hmem⟩ := (pruning_agrees ["tests/"]).2 testedProject "/work"
    named_testedProject hopens unruled_testedProject
  refine ⟨files, hfiles, (hmem _).mpr
    ⟨["main.py"], ⟨⟨[], none⟩, 0, rfl⟩, rfl, by decide +kernel, by decide +kernel⟩, ?_⟩
  intro hfirst
  obtain ⟨names, hfile, hpath, -, hkept⟩ := (hmem _).mp hfirst
  -- the path has only these names below the directory
  obtain rfl : names = ["tests", "unit", "first.py"] :=
    foldl_join_injective (named_testedProject.allNames_of_hasFile hfile) (by decide +kernel)
      hpath.symm
  exact absurd hkept (by decide +kernel)

end Coupling.Discovery
