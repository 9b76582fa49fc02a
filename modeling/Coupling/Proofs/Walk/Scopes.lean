import Coupling.Proofs.Finding.Origin
import Coupling.Proofs.Walk.Counters
import Mathlib.Data.List.Forall2

/-!
# Scopes and receivers

The open scopes at any moment of a walk are the definitions around the place it has come to. So a
function is taken to be in a class exactly if the nearest definition around it is one, and its first
parameter is left out of the count of positional parameters in that case only.
-/

namespace Coupling

open Syntax

/-- An open definition without its counters. -/
inductive Definition where
  | function (name : String) (place : Place)
  | cls (name : String)
deriving DecidableEq, Repr

namespace Definition

def isClass : Definition → Bool
  | .function _ _ => false
  | .cls _ => true

end Definition

def Scope.definition : Scope → Definition
  | .function tally => .function tally.name tally.place
  | .cls name => .cls name

/-- The open definitions, innermost first. -/
def Survey.definitions (s : Survey) : List Definition := s.scopes.map Scope.definition

namespace Syntax.Focus

/-- The definition that a node is. -/
def definition? (source : Source) (f : Focus) : Option Definition :=
  match f.kind with
  | .functionDefinition =>
    some (.function (ClassSize.name source.text f.tree) (source.text.placeOf f.tree))
  | .classDefinition => some (.cls (ClassSize.name source.text f.tree))
  | _ => none

/-- The nearest definition around a node is a class. -/
def inClass (f : Focus) : Bool :=
  ((enclosing f.above).find? Focus.defines).any (·.kind == .classDefinition)

theorem definition?_eq_map_frame? (source : Source) (f : Focus) :
    f.definition? source = (f.frame? source).map Scope.definition := by
  unfold definition? frame?
  cases f.kind <;> rfl

theorem isSome_definition? (source : Source) (f : Focus) :
    (f.definition? source).isSome = f.defines := by
  unfold definition? defines
  split <;> simp_all

theorem isClass_definition? {source : Source} {f : Focus} {d : Definition}
    (hd : f.definition? source = some d) : d.isClass = (f.kind == .classDefinition) := by
  unfold definition? at hd
  split at hd
  · rename_i hkind
    rw [← Option.some.inj hd, hkind]
    rfl
  · rename_i hkind
    rw [← Option.some.inj hd, hkind]
    rfl
  · simp at hd

end Syntax.Focus

/-! ### Scopes at any moment -/

theorem Scope.definition_mapTally {change : Tally → Tally}
    (hname : ∀ t, (change t).name = t.name) (hplace : ∀ t, (change t).place = t.place)
    (s : Scope) : (s.mapTally change).definition = s.definition := by
  cases s with
  | function tally => rw [mapTally, definition, definition, hname, hplace]
  | cls name => rfl

namespace Survey

theorem definitions_of_map {s : Survey} {scopes : List Scope} {change : Tally → Tally}
    (hscopes : s.scopes = scopes.map (·.mapTally change))
    (hname : ∀ t, (change t).name = t.name) (hplace : ∀ t, (change t).place = t.place) :
    s.definitions = scopes.map Scope.definition := by
  rw [definitions, hscopes, List.map_map]
  apply List.map_congr_left
  intro scope _
  exact Scope.definition_mapTally hname hplace scope

theorem definitions_entering (source : Source) (f : Focus) (s : Survey) :
    (s.entering source f).definitions = (f.definition? source).toList ++ s.definitions := by
  have hscopes : (s.entering source f).scopes =
      ((f.frame? source).toList ++ s.scopes).map (·.mapTally (Tally.entering f.kind)) := rfl
  rw [definitions_of_map hscopes (fun t => ?_) fun t => ?_]
  · rw [List.map_append, Focus.definition?_eq_map_frame?, definitions]
    cases f.frame? source <;> rfl
  · unfold Tally.entering
    split <;> rfl
  · unfold Tally.entering
    split <;> rfl

/-- The innermost open definition decides whether the walk is directly in a class. -/
theorem inClass_eq (s : Survey) : s.inClass = s.definitions.head?.any Definition.isClass := by
  unfold inClass definitions
  rcases s.scopes with _ | ⟨_ | _, _⟩ <;> rfl

theorem inClass_eq_of_definitions {source : Source} {f : Focus} {s : Survey}
    (hs : s.definitions = (enclosing f.above).filterMap (Focus.definition? source)) :
    s.inClass = f.inClass := by
  rw [inClass_eq, hs, Focus.inClass]
  induction enclosing f.above with
  | nil => rfl
  | cons g rest ih =>
    have hsome := Focus.isSome_definition? source g
    cases hd : g.definition? source with
    | none =>
      rw [List.filterMap_cons_none hd, List.find?_cons_of_neg (by simp [← hsome, hd]), ih]
    | some d =>
      rw [List.filterMap_cons_some hd, List.find?_cons_of_pos (by simp [← hsome, hd])]
      exact Focus.isClass_definition? hd

end Survey

namespace Walk

variable {l : Limits} {source : Source}

/-- A complete walk through a node leaves the open definitions as they were. -/
theorem definitions_run {above : List (Tree × Nat)} {t : Tree} {w u : Walk}
    (hlevel : w.survey.Level) (hrun : w.run l source (Event.ofTree above t) = .ok u) :
    u.survey.definitions = w.survey.definitions :=
  Survey.definitions_of_map (scopes_run.1 above t w u hlevel hrun) (fun _ => rfl) fun _ => rfl

theorem definitions_run_children {above : List (Tree × Nat)} {parent : Tree} {index : Nat}
    {ts : List Tree} {w u : Walk} (hlevel : w.survey.Level)
    (hrun : w.run l source (Event.ofChildren above parent index ts) = .ok u) :
    u.survey.definitions = w.survey.definitions :=
  Survey.definitions_of_map (scopes_run.2 above parent index ts w u hlevel hrun) (fun _ => rfl)
    fun _ => rfl

/-- The open definitions before an event are those around its place, if they were so at the start of
the walk. -/
theorem definitions_split :
    (∀ above t, ∀ (w u : Walk) (done : List Event) (e : Event) (todo : List Event),
      w.survey.Level →
      w.survey.definitions = (enclosing above).filterMap (Focus.definition? source) →
      Event.ofTree above t = done ++ e :: todo → w.run l source done = .ok u →
      u.survey.definitions = e.around.filterMap (Focus.definition? source)) ∧
    ∀ above parent index ts, ∀ (w u : Walk) (done : List Event) (e : Event) (todo : List Event),
      w.survey.Level →
      w.survey.definitions =
        (⟨parent, above⟩ :: enclosing above).filterMap (Focus.definition? source) →
      Event.ofChildren above parent index ts = done ++ e :: todo → w.run l source done = .ok u →
      u.survey.definitions = e.around.filterMap (Focus.definition? source) := by
  refine walk_induction ?_ ?_ ?_
  · intro above label children hchildren w u done e todo hlevel hw hsplit hrun
    -- After the node is entered, its definition is on top of those around it.
    have hentered : ∀ v, w.step l source (.enter ⟨.node label children, above⟩) = .ok v →
        v.survey.definitions = (⟨.node label children, above⟩ :: enclosing above).filterMap
          (Focus.definition? source) := by
      intro v henter
      obtain ⟨new, _, rfl⟩ := enter_eq_ok henter
      rw [Survey.definitions_entering, hw]
      cases hd : Focus.definition? source ⟨.node label children, above⟩ with
      | none => rw [List.filterMap_cons_none hd, Option.toList_none, List.nil_append]
      | some d => rw [List.filterMap_cons_some hd, Option.toList_some, List.singleton_append]
    rcases Event.split_ofTree hsplit with ⟨rfl, rfl⟩ | ⟨before, after, rfl, hinner⟩ | ⟨rfl, rfl⟩
    · rw [run, Except.ok.injEq] at hrun
      rw [← hrun, hw]
      rfl
    · obtain ⟨v, henter, hrun⟩ := run_cons_eq_ok.mp hrun
      exact hchildren v u before e after (step_level henter hlevel) (hentered v henter) hinner hrun
    · obtain ⟨v, henter, hrun⟩ := run_cons_eq_ok.mp hrun
      rw [definitions_run_children (step_level henter hlevel) hrun, hentered v henter]
      rfl
  · intro above parent index w u done e todo hlevel hw hsplit
    simp [Event.ofChildren] at hsplit
  · intro above parent index t rest ht hrest w u done e todo hlevel hw hsplit hrun
    rcases Event.split_ofChildren hsplit with ⟨after, hinner⟩ | ⟨before, rfl, hinner⟩
    · exact ht w u done e after hlevel hw hinner hrun
    · obtain ⟨v, hfirst, hsecond⟩ := run_append_eq_ok.mp hrun
      refine hrest v u before e todo (run_level hfirst hlevel) ?_ hinner hsecond
      rw [definitions_run hlevel hfirst, hw]

/-- The open definitions before any event of the walk through a source. -/
theorem definitions_before {done todo : List Event} {e : Event} {w : Walk}
    (hsplit : source.events = done ++ e :: todo) (hrun : start.run l source done = .ok w) :
    w.survey.definitions = e.around.filterMap (Focus.definition? source) :=
  definitions_split.1 [] source.root start w done e todo level_start rfl hsplit hrun

end Walk

/-! ### Counts of parameters -/

namespace Syntax.Focus

/-- Positional parameters of a function that its callers do not pass. -/
def receivers (f : Focus) (s : Signature) : Nat :=
  if f.inClass ∧ "staticmethod" ∉ s.decorators then 1 else 0

/-- A finding gives the number and the names of the positional parameters of a function, a receiver
left out. -/
structure Reports (l : Limits) (source : Source) (f : Focus) (v : Finding) : Prop where
  kind_eq : v.kind = .position
  path_eq : v.path = source.path
  place_eq : v.place = source.text.placeOf f.tree
  facts : ∃ s count, Signature.ofFocus? source.text f = some s ∧
    count = s.positional.length - f.receivers s ∧
    v.description =
      s!"Function '{s.name}' has {count} positional parameters (>{l.maxPositionalParams})" ∧
    v.context.lookup "function_name" = some (.str s.name) ∧
    v.context.lookup "parameter_count" = some (.nat count) ∧
    v.context.lookup "parameter_names" =
      some (.arr ((s.positional.drop (f.receivers s)).map fun p => .str p.name))

end Syntax.Focus

namespace Position

theorem visible_eq (s : Signature) (f : Focus) :
    visible s f.inClass = s.positional.drop (f.receivers s) := by
  have hmethod : (s.isMethod f.inClass = true) = (f.inClass ∧ "staticmethod" ∉ s.decorators) := by
    simp [Signature.isMethod]
  simp only [visible, Focus.receivers, hmethod]

end Position

namespace Syntax.Focus

variable {l : Limits} {source : Source}

end Syntax.Focus

namespace Walk

variable {l : Limits} {source : Source}

/-! ### Findings of one sort -/

section OneSort

variable {R : Focus → Finding → Prop} {q : Focus → Bool} {p : Finding → Bool}
  (hentry : ∀ {f : Focus} {new}, f.entryFindings l source f.inClass = .ok new →
    List.Forall₂ R ([f].filter q) (new.filter p))
  (hexit : ∀ f scopes, (Focus.exitFindings l source.path scopes f).filter p = [])

include hentry hexit

/-- If findings of some sort come up on entering nodes only, then at any moment those found so far
match the nodes entered so far that call for one. -/
theorem forall₂_run {done todo : List Event} {w : Walk} (hsplit : source.events = done ++ todo)
    (hrun : start.run l source done = .ok w) :
    List.Forall₂ R ((done.filterMap Event.entered?).filter q) (w.findings.filter p) := by
  induction done using List.reverseRecOn generalizing todo w with
  | nil =>
    rw [run, Except.ok.injEq] at hrun
    rw [← hrun]
    exact .nil
  | append_singleton done e ih =>
    rw [List.append_assoc, List.singleton_append] at hsplit
    obtain ⟨u, hdone, hlast⟩ := run_append_eq_ok.mp hrun
    obtain ⟨_, hstep, hnil⟩ := run_cons_eq_ok.mp hlast
    rw [run, Except.ok.injEq] at hnil
    subst hnil
    have hbefore := ih hsplit hdone
    rw [List.filterMap_append, List.filter_append]
    cases e with
    | enter f =>
      obtain ⟨new, hnew, rfl⟩ := enter_eq_ok hstep
      rw [Survey.inClass_eq_of_definitions (definitions_before hsplit hdone)] at hnew
      rw [List.filter_append]
      exact List.rel_append hbefore (hentry hnew)
    | leave f =>
      rw [step, leave_eq, Except.ok.injEq] at hstep
      rw [← hstep, List.filter_append, hexit f u.survey.scopes]
      exact List.rel_append hbefore .nil

theorem forall₂_emitted
    (hduplicates : ∀ routines, (Duplicate.check l source.path routines).filter p = [])
    (hnames : ∀ table, (NameUsage.check l source.path table).filter p = [])
    {findings : List Finding} (hemitted : source.emitted l = .ok findings) :
    List.Forall₂ R (source.root.preorder.filter q) (findings.filter p) := by
  rw [emitted_eq_run] at hemitted
  cases hrun : start.run l source source.events with
  | error fault => simp [hrun, Except.map] at hemitted
  | ok w =>
    simp only [hrun, Except.map, Except.ok.injEq] at hemitted
    have hall := forall₂_run hentry hexit (List.append_nil _).symm hrun
    rw [← hemitted, finish, List.filter_append, List.filter_append, hduplicates, hnames,
      List.append_nil, List.append_nil]
    rwa [Source.events, Event.filterMap_entered?_ofTree] at hall

end OneSort

end Walk

end Coupling
