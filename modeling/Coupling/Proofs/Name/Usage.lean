import Coupling.Proofs.Finding.Sites
import Mathlib.Data.List.Forall2

/-!
# Names that are used too often

A walk counts the uses of each name and keeps the place of the first. What it has counted after some
events is what the nodes entered so far show, so at the end of a file the table of names says how
often each name is used in the tree. The findings on names are read off the table in its order.
Findings with one identity are dropped but for the first, and an identity covers only the start of a
description: two names with a long common start are told apart by where they are used first.
-/

namespace Coupling

open Syntax

/-! ### Uses of a name -/

namespace Syntax.Source

/-- The nodes, among some nodes, that use a name. -/
def usesAmong (source : Source) (name : String) (nodes : List Focus) : List Focus :=
  nodes.filter fun f => NameUsage.isReference f && source.text.text f.tree == name

/-- The nodes that use a name, in preorder. -/
def usesOf (source : Source) (name : String) : List Focus :=
  source.usesAmong name source.root.preorder

variable {source : Source} {name : String}

theorem usesAmong_append (first second : List Focus) :
    source.usesAmong name (first ++ second) =
      source.usesAmong name first ++ source.usesAmong name second :=
  List.filter_append ..

theorem mem_usesOf {f : Focus} (hf : f ∈ source.usesOf name) :
    f ∈ source.root.preorder ∧ NameUsage.isReference f = true ∧
      source.text.text f.tree = name := by
  simpa [usesOf, usesAmong, List.mem_filter] using hf

end Syntax.Source

/-- How often some nodes use a name, and where first. -/
def Usage.ofUses? (source : Source) : List Focus → Option Usage
  | [] => none
  | first :: rest => some ⟨rest.length + 1, source.text.placeOf first.tree⟩

theorem Usage.ofUses?_eq_some {source : Source} {uses : List Focus} {usage : Usage} :
    ofUses? source uses = some usage ↔
      usage.count = uses.length ∧ ∃ first, uses.head? = some first ∧
        usage.place = source.text.placeOf first.tree := by
  cases uses with
  | nil => simp [ofUses?]
  | cons first rest =>
    cases usage
    simp [ofUses?, eq_comm]

theorem Usage.ofUses?_append_singleton (source : Source) (uses : List Focus) (f : Focus) :
    ofUses? source (uses ++ [f]) = match ofUses? source uses with
      | some usage => some { usage with count := usage.count + 1 }
      | none => some ⟨1, source.text.placeOf f.tree⟩ := by
  cases uses with
  | nil => rfl
  | cons first rest => simp [ofUses?]

/-! ### The table of names -/

/-- The table counts the uses among some nodes. -/
def NameTable.Counts (source : Source) (nodes : List Focus) (table : NameTable) : Prop :=
  ∀ name : String, table[name]? = Usage.ofUses? source (source.usesAmong name nodes)

section Table

variable {l : Limits} {source : Source}

theorem Survey.counts_entering {s : Survey} {nodes : List Focus}
    (hs : s.names.Counts source nodes) (f : Focus) :
    (s.entering source f).names.Counts source (nodes ++ [f]) := by
  intro name
  have hold := hs name
  rw [Source.usesAmong_append, Survey.entering]
  cases href : NameUsage.isReference f with
  | false => simpa [Source.usesAmong, href] using hold
  | true =>
    rw [if_pos rfl]
    show (s.names.alter _ _)[name]? = _
    rw [Std.TreeMap.getElem?_alter]
    by_cases hname : source.text.text f.tree = name
    · have hnew : source.usesAmong name [f] = [f] := by simp [Source.usesAmong, href, hname]
      rewrite [if_pos (Std.compare_eq_iff_eq.mpr hname), hnew, Usage.ofUses?_append_singleton,
        ← hold, hname]
      rfl
    · have hnew : source.usesAmong name [f] = [] := by simp [Source.usesAmong, hname]
      rw [if_neg (mt Std.compare_eq_iff_eq.mp hname), hnew, List.append_nil, hold]

/-- The table counts the uses among the nodes that have been entered. -/
theorem Walk.counts_run {events : List Event} {w u : Walk} {nodes : List Focus}
    (hw : w.survey.names.Counts source nodes) (hrun : w.run l source events = .ok u) :
    u.survey.names.Counts source (nodes ++ events.filterMap Event.entered?) := by
  induction events generalizing w nodes with
  | nil =>
    rw [run, Except.ok.injEq] at hrun
    simpa [← hrun] using hw
  | cons e rest ih =>
    obtain ⟨v, hstep, hrest⟩ := run_cons_eq_ok.mp hrun
    cases e with
    | enter f =>
      obtain ⟨new, _, rfl⟩ := enter_eq_ok hstep
      have hlater := ih (Survey.counts_entering hw f) hrest
      rwa [List.append_assoc] at hlater
    | leave f =>
      rw [step, leave_eq, Except.ok.injEq] at hstep
      subst hstep
      exact ih (w := ⟨w.survey.leaving f, _⟩) hw hrest

theorem Walk.counts_start (source : Source) : start.survey.names.Counts source [] := by
  intro name
  simp [start, Survey.empty, Source.usesAmong, Usage.ofUses?]

theorem Walk.counts_at_end {w : Walk} (hrun : start.run l source source.events = .ok w) :
    w.survey.names.Counts source source.root.preorder := by
  have hcounts := counts_run (counts_start source) hrun
  rwa [List.nil_append, Source.events, Event.filterMap_entered?_ofTree] at hcounts

end Table

/-! ### Findings on names -/

namespace NameUsage

/-- The entries of a table that are reported. -/
def reported (l : Limits) (table : NameTable) : List (String × Usage) :=
  table.toList.filter fun (name, usage) => l.highNameUsageThreshold < usage.count && counts name

theorem check_eq (l : Limits) (path : String) (table : NameTable) :
    check l path table = (reported l table).map fun entry => finding path entry.1 entry.2 := rfl

theorem mem_reported {l : Limits} {table : NameTable} {name : String} {usage : Usage} :
    (name, usage) ∈ reported l table ↔
      table[name]? = some usage ∧ l.highNameUsageThreshold < usage.count ∧
        counts name = true := by
  rw [reported, List.mem_filter, Std.TreeMap.mem_toList_iff_getElem?_eq_some]
  simp

/-- The entries are in increasing order of the bytes of their names. -/
theorem pairwise_reported (l : Limits) (table : NameTable) :
    (reported l table).Pairwise fun a b => Text.encode a.1 < Text.encode b.1 := by
  have hordered : table.toList.Pairwise fun a b => compare a.1 b.1 = .lt :=
    Std.TreeMap.ordered_keys_toList
  refine (hordered.filter _).imp fun {a b} hlt => ?_
  apply Text.encode_lt_encode
  have hless := (compareOfLessAndEq_eq_lt (x := a.1) (y := b.1)).mp hlt
  exact hless

theorem counts_iff {name : String} :
    counts name = true ↔ name ≠ "self" ∧ name ≠ "cls" ∧ name.toList.head? ≠ some '_' := by
  simp [counts, and_assoc]

end NameUsage

/-! ### What is kept of them -/

/-- A finding is kept if no earlier one has its identity. -/
theorem filter_distinctFrom {p : Finding → Bool} {seen : List String} {findings : List Finding}
    (hseen : ∀ v ∈ findings, p v = true → v.id ∉ seen)
    (hfirst : findings.Pairwise fun u v => p v = true → u.id ≠ v.id) :
    (distinctFrom seen findings).filter p = findings.filter p := by
  induction findings generalizing seen with
  | nil => rfl
  | cons f rest ih =>
    rw [List.pairwise_cons] at hfirst
    have hrest : ∀ v ∈ rest, p v = true → v.id ∉ seen := fun v hv =>
      hseen v (List.mem_cons_of_mem f hv)
    rw [distinctFrom]
    by_cases hf : f.id ∈ seen
    · have hdropped : ¬p f = true := fun hpf => hseen f List.mem_cons_self hpf hf
      rw [if_pos hf, ih hrest hfirst.2, List.filter_cons_of_neg hdropped]
    · have hlater : ∀ v ∈ rest, p v = true → v.id ∉ f.id :: seen := by
        intro v hv hpv hmem
        rcases List.mem_cons.mp hmem with hid | hid
        · exact hfirst.1 v hv hpv hid.symm
        · exact hrest v hv hpv hid
      rw [if_neg hf, List.filter_cons, List.filter_cons, ih hlater hfirst.2]

section Kept

variable {l : Limits} {source : Source} {w : Walk}

/-- Uses of different names start at different bytes. -/
def Syntax.Source.NamesApart (source : Source) : Prop :=
  ∀ f ∈ source.root.preorder, ∀ g ∈ source.root.preorder,
    NameUsage.isReference f = true → NameUsage.isReference g = true →
    source.text.text f.tree ≠ source.text.text g.tree → f.tree.label.start ≠ g.tree.label.start

/-- Different names are used first at different places. -/
theorem Syntax.Source.NamesApart.eq_of_place_eq {table : NameTable} (hapart : source.NamesApart)
    (hcounts : table.Counts source source.root.preorder) {name name' : String}
    {usage usage' : Usage} (husage : table[name]? = some usage)
    (husage' : table[name']? = some usage') (hplace : usage.place = usage'.place) :
    name = name' := by
  rw [hcounts] at husage husage'
  obtain ⟨_, first, hfirst, hat⟩ := Usage.ofUses?_eq_some.mp husage
  obtain ⟨_, first', hfirst', hat'⟩ := Usage.ofUses?_eq_some.mp husage'
  obtain ⟨hmem, href, rfl⟩ := mem_usesOf (List.mem_of_head? hfirst)
  obtain ⟨hmem', href', rfl⟩ := mem_usesOf (List.mem_of_head? hfirst')
  by_contra hne
  rw [hat, hat'] at hplace
  exact hapart first hmem first' hmem' href href' hne (SourceText.place_injective hplace)

theorem Walk.kind_ne_name (hw : w.Sited source) {u : Finding}
    (hu : u ∈ w.findings ++ Duplicate.check l source.path w.survey.routines) : u.kind ≠ .name := by
  rcases List.mem_append.mp hu with hu | hu
  · obtain ⟨kind, hkind, hreported⟩ := hw.findings u hu
    have hother : ∀ kind ∈ Kind.duringWalk, kind ≠ .name := by decide
    exact hreported.kind_eq ▸ hother kind hkind
  · rw [(Duplicate.genuine_of_mem_check hu).kind_eq]
    decide

/-- The findings on names are those of the last check. -/
theorem Walk.filter_name_finish (hw : w.Sited source) :
    (w.finish l source.path).filter (·.kind = .name) =
      NameUsage.check l source.path w.survey.names := by
  rw [finish, List.filter_append, List.filter_eq_nil_iff.mpr, List.filter_eq_self.mpr,
    List.nil_append]
  · intro v hv
    simp [(NameUsage.genuine_of_mem_check hv).kind_eq]
  · intro u hu
    simpa using kind_ne_name hw hu

/-- All findings on names are kept. -/
theorem Walk.filter_name_distinct (hapart : source.NamesApart)
    (hdigest : Finding.DigestsApart (w.finish l source.path)) (hw : w.Sited source)
    (hcounts : w.survey.names.Counts source source.root.preorder) :
    (distinct (w.finish l source.path)).filter (·.kind = .name) =
      NameUsage.check l source.path w.survey.names := by
  have hgenuine : ∀ v ∈ w.finish l source.path, ∃ kind, v.Genuine kind source.path := by
    intro v hv
    obtain ⟨kind, _, hv⟩ := hw.finish v hv
    exact ⟨kind, hv.toGenuine⟩
  have hfacts : ∀ u ∈ w.finish l source.path, ∀ v ∈ w.finish l source.path, u.id = v.id →
      v.SameFacts u := fun u hu v hv => (Finding.id_eq_iff_sameFacts hgenuine hdigest hv hu).mp
  rw [← filter_name_finish hw]
  refine filter_distinctFrom (by simp) (List.pairwise_append.mpr ⟨?_, ?_, ?_⟩)
  · refine List.pairwise_of_forall_mem_list fun u _ v hv hname => ?_
    exact absurd (of_decide_eq_true hname) (kind_ne_name hw hv)
  · rw [NameUsage.check_eq, List.pairwise_map]
    refine (NameUsage.pairwise_reported l w.survey.names).imp_of_mem fun {a b} ha hb hlt _ hid => ?_
    have hlisted : ∀ entry ∈ NameUsage.reported l w.survey.names,
        NameUsage.finding source.path entry.1 entry.2 ∈ w.finish l source.path := fun entry he =>
      List.mem_append_right _ (List.mem_map_of_mem he)
    have hsame := hfacts _ (hlisted a ha) _ (hlisted b hb) hid
    have hname := hapart.eq_of_place_eq hcounts (NameUsage.mem_reported.mp hb).1
      (NameUsage.mem_reported.mp ha).1 hsame.2.1
    rw [hname] at hlt
    exact List.lt_irrefl _ hlt
  · intro u hu v hv _ hid
    have hsame := hfacts u (List.mem_append_left _ hu) v (List.mem_append_right _ hv) hid
    exact kind_ne_name hw hu (hsame.1.symm.trans (NameUsage.genuine_of_mem_check hv).kind_eq)

end Kept

/-! ### The whole analysis -/

/-- The finding names a name, says how often the tree of a document uses it, and stands at its first
use. -/
structure Finding.CountsUses (doc : Document) (source : Source) (v : Finding) (name : String) :
    Prop where
  path_eq : v.path = source.path
  name_eq : v.context.lookup "name" = some (.str name)
  count_eq : v.context.lookup "usage_count" = some (.nat (source.usesOf name).length)
  place_eq : ∃ first, (source.usesOf name).head? = some first ∧
    v.place = Text.placeAt doc.bytes first.tree.label.start

theorem NameUsage.countsUses_finding {doc : Document} {path : String} {source : Source}
    {table : NameTable} {name : String} {usage : Usage}
    (hsource : Source.ofDocument path doc = .ok source)
    (hcounts : table.Counts source source.root.preorder) (husage : table[name]? = some usage) :
    (finding source.path name usage).CountsUses doc source name := by
  obtain ⟨_, _, cs, htext, hbytes⟩ := Source.ofDocument_eq_ok hsource
  rw [hcounts] at husage
  obtain ⟨hcount, first, hfirst, hplace⟩ := Usage.ofUses?_eq_some.mp husage
  refine ⟨rfl, rfl, congrArg (fun n => some (Json.nat n)) hcount, first, hfirst, ?_⟩
  rw [← hbytes, ← SourceText.place_ofChars, ← htext]
  exact hplace

/-- A name is reported if it counts and is used more often than the limit allows. -/
theorem NameUsage.mem_names_reported {l : Limits} {source : Source} {table : NameTable}
    (hcounts : table.Counts source source.root.preorder) {name : String} :
    name ∈ (reported l table).map (·.1) ↔
      l.highNameUsageThreshold < (source.usesOf name).length ∧ counts name = true := by
  constructor
  · intro hmem
    obtain ⟨⟨_, usage⟩, hentry, rfl⟩ := List.mem_map.mp hmem
    obtain ⟨husage, hmany, hname⟩ := mem_reported.mp hentry
    rw [hcounts] at husage
    rw [(Usage.ofUses?_eq_some.mp husage).1] at hmany
    exact ⟨hmany, hname⟩
  · rintro ⟨hmany, hname⟩
    cases huses : source.usesOf name with
    | nil => simp [huses] at hmany
    | cons first rest =>
      have husage : table[name]? = some ⟨rest.length + 1, source.text.placeOf first.tree⟩ := by
        rw [hcounts name]
        exact congrArg (Usage.ofUses? source) huses
      rw [huses] at hmany
      exact List.mem_map.mpr ⟨(name, _), mem_reported.mpr ⟨husage, hmany, hname⟩, rfl⟩

/-- The findings on names that an analysis returns are, in increasing order of the bytes of the
names, one for each name that is used too often and is neither a receiver nor private. -/
theorem Syntax.Document.name_findings (l : Limits) (path : String) (doc : Document)
    (source : Source) (hsource : Source.ofDocument path doc = .ok source)
    (hdigest : ∀ emitted, source.emitted l = .ok emitted → Finding.DigestsApart emitted)
    (hapart : source.NamesApart) :
    (source.Fits l → ∃ findings, doc.analyze l path = .ok findings) ∧
    ∀ findings, doc.analyze l path = .ok findings →
      ∃ names : List String,
        names.Pairwise (fun a b => Text.encode a < Text.encode b) ∧
        (∀ name, name ∈ names ↔
          l.highNameUsageThreshold < (source.usesOf name).length ∧
            name ≠ "self" ∧ name ≠ "cls" ∧ name.toList.head? ≠ some '_') ∧
        List.Forall₂ (Finding.CountsUses doc source) (findings.filter (·.kind = .name)) names := by
  have hanalyze : doc.analyze l path = (source.emitted l).map distinct := by
    simp only [Document.analyze, hsource, Source.analyze]
  rw [hanalyze]
  constructor
  · intro hfits
    obtain ⟨w, hrun⟩ := Walk.run_ok hfits .start source.events
    exact ⟨_, by rw [Walk.emitted_eq_run, hrun, Except.map, Except.map]⟩
  · intro findings hreturns
    cases hemitted : source.emitted l with
    | error fault => simp [hemitted, Except.map] at hreturns
    | ok emitted =>
      rw [hemitted, Except.map, Except.ok.injEq] at hreturns
      obtain ⟨w, hrun, hw, rfl⟩ := Walk.emitted_eq_ok hemitted
      have hcounts := Walk.counts_at_end hrun
      refine ⟨(NameUsage.reported l w.survey.names).map (·.1), ?_, fun name => ?_, ?_⟩
      · rw [List.pairwise_map]
        exact NameUsage.pairwise_reported l w.survey.names
      · rw [NameUsage.mem_names_reported hcounts, NameUsage.counts_iff]
      · rw [← hreturns, Walk.filter_name_distinct hapart (hdigest _ hemitted) hw hcounts,
          NameUsage.check_eq, List.forall₂_map_left_iff, List.forall₂_map_right_iff,
          List.forall₂_same]
        intro entry hentry
        exact NameUsage.countsUses_finding hsource hcounts (NameUsage.mem_reported.mp hentry).1

/-! ### Names with a long common start -/

namespace Syntax

/-- A name that differs from another in its last character only. -/
def alikeName (last : Char) : List Char := List.replicate 44 'a' ++ [last]

def alikeChars : List Char :=
  alikeName 'y' ++ '\n' :: (alikeName 'x' ++ '\n' :: (alikeName 'x' ++ '\n' :: alikeName 'y'))

def alikeStatement (start stop : Nat) : Tree :=
  .span .expressionStatement none start stop [.span .identifier none start stop []]

/-- Two names that agree in all that an identity covers, each used twice. -/
def alikeSource : Source where
  path := "alike.py"
  text := .ofChars alikeChars
  root := .span (.other "module") none 0 183
    [alikeStatement 0 45, alikeStatement 46 91, alikeStatement 92 137, alikeStatement 138 183]

def alikeDocument : Document := ⟨Text.encode (String.ofList alikeChars), some alikeSource.root⟩

def onceLimits : Limits := { highNameUsageThreshold := 1 }

theorem name_findings_alikeDocument :
    ∃ findings names, alikeDocument.analyze onceLimits "alike.py" = .ok findings ∧
      String.ofList (alikeName 'x') ∈ names ∧ String.ofList (alikeName 'y') ∈ names ∧
      List.Forall₂ (Finding.CountsUses alikeDocument alikeSource)
        (findings.filter (·.kind = .name)) names := by
  have hsource : Source.ofDocument "alike.py" alikeDocument = .ok alikeSource := by
    have hencoded : Source.ofDocument "alike.py" alikeDocument =
        .ok ⟨"alike.py", .ofChars (String.ofList alikeChars).toList, alikeSource.root⟩ :=
      Source.ofDocument_encode _ _ rfl
    rwa [String.toList_ofList] at hencoded
  have hfacts : (alikeSource.emitted onceLimits).toOption.map (·.map fun v =>
      (v.kind, v.path, v.place, v.description)) = some
      [(.name, "alike.py", ⟨2, 0⟩,
         "Name 'aaaaaaaaaaaaaaaaaaaaaaaaaaaaaaaaaaaaaaaaaaaax' used 2 times (high coupling)"),
       (.name, "alike.py", ⟨1, 0⟩,
         "Name 'aaaaaaaaaaaaaaaaaaaaaaaaaaaaaaaaaaaaaaaaaaaay' used 2 times (high coupling)")] := by
    decide +kernel
  have hidentity :
      identity .name "alike.py" ⟨2, 0⟩
        "Name 'aaaaaaaaaaaaaaaaaaaaaaaaaaaaaaaaaaaaaaaaaaaax' used 2 times (high coupling)" ≠
      identity .name "alike.py" ⟨1, 0⟩
        "Name 'aaaaaaaaaaaaaaaaaaaaaaaaaaaaaaaaaaaaaaaaaaaay' used 2 times (high coupling)" := by
    decide +kernel
  have hdigest : ∀ emitted, alikeSource.emitted onceLimits = .ok emitted →
      Finding.DigestsApart emitted := by
    intro emitted hemitted
    rw [hemitted, Except.toOption, Option.map_some, Option.some.injEq] at hfacts
    obtain ⟨v, rest, rfl, hv, hrest⟩ := List.map_eq_cons_iff.mp hfacts
    obtain ⟨u, rest', rfl, hu, hnil⟩ := List.map_eq_cons_iff.mp hrest
    obtain rfl := List.map_eq_nil_iff.mp hnil
    simp only [Prod.mk.injEq] at hv hu
    intro x hx y hy hid
    simp only [List.mem_cons, List.not_mem_nil, or_false] at hx hy
    rcases hx with rfl | rfl <;> rcases hy with rfl | rfl
    · rfl
    · exact absurd (by simpa only [hv, hu] using hid) hidentity
    · exact absurd (by simpa only [hv, hu] using hid) hidentity.symm
    · rfl
  have hapart : alikeSource.NamesApart := by
    unfold Source.NamesApart
    decide +kernel
  have hfits : alikeSource.Fits onceLimits := by
    unfold Source.Fits
    decide +kernel
  obtain ⟨hreturns, hnames⟩ :=
    Document.name_findings onceLimits "alike.py" alikeDocument alikeSource hsource hdigest hapart
  obtain ⟨findings, hfindings⟩ := hreturns hfits
  obtain ⟨names, _, hmem, hall⟩ := hnames findings hfindings
  refine ⟨findings, names, hfindings, (hmem _).mpr ?_, (hmem _).mpr ?_, hall⟩
  · decide +kernel
  · decide +kernel

end Syntax

end Coupling
