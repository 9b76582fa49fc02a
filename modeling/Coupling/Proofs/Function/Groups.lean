import Coupling.Proofs.Walk.Faults

/-!
# Groups of duplicates

The functions with one digest are a group, and the first of them is the model of the others. A pass
over the functions knows the models of those it has seen, and another one has counted the groups
before. Together they report every member of a group but its model, in the order of the functions,
with the model and the size of the group.
-/

namespace Coupling.Duplicate

/-- The functions that are long enough to be compared. -/
def eligible (l : Limits) (routines : List Routine) : List Routine :=
  routines.filter fun r => l.duplicateStatementMinimum ≤ r.shape.statements

/-! ### Positions -/

section Positions

variable (members : List Routine)

def digestAt (i : Nat) : Option UInt64 := members[i]?.map (·.shape.digest)

/-- The positions of the functions with a digest. -/
def group (digest : UInt64) : List Nat :=
  (List.range members.length).filter fun i => digestAt members i = some digest

/-- An earlier function has the digest of the one at the position. -/
def IsCopy (i : Nat) : Prop := ∃ j < i, digestAt members j = digestAt members i

instance (i : Nat) : Decidable (IsCopy members i) := inferInstanceAs (Decidable (∃ j < i, _))

/-- The positions of the functions that repeat an earlier one. -/
def copies : List Nat := (List.range members.length).filter fun i => IsCopy members i

theorem group_cons (r : Routine) (digest : UInt64) :
    group (r :: members) digest =
      (if r.shape.digest = digest then [0] else []) ++ (group members digest).map (· + 1) := by
  have hlater : ((List.range members.length).map Nat.succ).filter
      (fun i => digestAt (r :: members) i = some digest) =
      (group members digest).map (· + 1) := by
    rw [List.filter_map]
    rfl
  rw [group, List.length_cons, List.range_succ_eq_map, List.filter_cons, hlater]
  by_cases hdigest : r.shape.digest = digest <;> simp [digestAt, hdigest]

theorem length_group (digest : UInt64) :
    (group members digest).length = members.countP (·.shape.digest == digest) := by
  induction members with
  | nil => rfl
  | cons r rest ih =>
    rw [group_cons, List.length_append, List.length_map, ih, List.countP_cons]
    by_cases hdigest : r.shape.digest = digest <;> simp [hdigest, Nat.add_comm]

/-- The first position of a group is that of its model. -/
theorem head?_group (digest : UInt64) :
    ((group members digest).head?.bind fun i => members[i]?) =
      members.find? (·.shape.digest == digest) := by
  induction members with
  | nil => rfl
  | cons r rest ih =>
    rw [group_cons]
    by_cases hdigest : r.shape.digest = digest
    · simp [hdigest]
    · rw [List.find?_cons_of_neg (by simpa using hdigest), ← ih]
      simp [hdigest, Option.bind_map]

/-- A number that follows another one with the property is not the first one with it. -/
theorem filter_range_tail (p : Nat → Prop) [DecidablePred p] (n : Nat) :
    (List.range n).filter (fun i => p i ∧ ∃ j < i, p j) = ((List.range n).filter p).tail := by
  induction n with
  | zero => rfl
  | succ n ih =>
    rw [List.range_succ, List.filter_append, List.filter_append, ih]
    by_cases hearlier : ∃ j < n, p j
    · have hne : (List.range n).filter p ≠ [] := by
        obtain ⟨j, hj, hpj⟩ := hearlier
        exact List.ne_nil_of_mem (List.mem_filter.mpr ⟨List.mem_range.mpr hj, by simpa using hpj⟩)
      rw [List.tail_append_of_ne_nil hne]
      by_cases hn : p n <;> simp [hn, hearlier]
    · have hnil : (List.range n).filter p = [] := by
        simpa [List.filter_eq_nil_iff] using hearlier
      by_cases hn : p n <;> simp [hn, hearlier, hnil]

theorem filter_copies (digest : UInt64) :
    (copies members).filter (fun i => digestAt members i = some digest) =
      (group members digest).tail := by
  rw [copies, List.filter_filter, group, ← filter_range_tail]
  refine List.filter_congr fun i _ => ?_
  rw [← Bool.decide_and, decide_eq_decide]
  refine and_congr_right fun hdigest => ?_
  rw [IsCopy, hdigest]

end Positions

/-! ### Findings -/

/-- The finding says that a function repeats a model, and how large their group is. -/
structure Reports (path : String) (copy model : Routine) (size : Nat) (v : Finding) : Prop where
  kind : v.kind = .algorithm
  path : v.path = path
  place : v.place = copy.place
  description : v.description =
    s!"Function '{copy.name}' duplicates algorithm from '{model.name}'"
  copyName : v.context.lookup "function_name" = some (.str copy.name)
  modelName : v.context.lookup "similar_function" = some (.str model.name)
  modelLine : v.context.lookup "original_line" = some (.nat model.place.line)
  size : v.context.lookup "duplicate_count" = some (.nat size)

theorem reports_finding (path : String) (copy model : Routine) (size : Nat) :
    Reports path copy model size (finding path copy model size) :=
  ⟨rfl, rfl, rfl, rfl, rfl, rfl, rfl, rfl⟩

/-- The finding reports the function at a position as a copy of the first one with its digest. -/
def ReportsAt (path : String) (members : List Routine) (i : Nat) (v : Finding) : Prop :=
  ∃ copy model, members[i]? = some copy ∧
    members.find? (·.shape.digest == copy.shape.digest) = some model ∧
    Reports path copy model (members.countP (·.shape.digest == copy.shape.digest)) v

/-- The models are the first functions with their digests. -/
def FirstModels (seen : List Routine) (models : Std.HashMap UInt64 Routine) : Prop :=
  ∀ digest : UInt64, models[digest]? = seen.find? (·.shape.digest == digest)

theorem FirstModels.later {seen : List Routine} {models : Std.HashMap UInt64 Routine}
    (h : FirstModels seen models) {r model : Routine}
    (hmodel : models[r.shape.digest]? = some model) : FirstModels (seen ++ [r]) models := by
  intro digest
  rw [List.find?_append, ← h]
  by_cases hdigest : r.shape.digest = digest
  · rw [← hdigest, hmodel, Option.some_or]
  · simp [hdigest]

theorem FirstModels.insert {seen : List Routine} {models : Std.HashMap UInt64 Routine}
    (h : FirstModels seen models) {r : Routine} (hnone : models[r.shape.digest]? = none) :
    FirstModels (seen ++ [r]) (models.insert r.shape.digest r) := by
  intro digest
  rw [List.find?_append, ← h, Std.HashMap.getElem?_insert]
  by_cases hdigest : r.shape.digest = digest
  · simp [← hdigest, hnone]
  · simp [hdigest]

theorem isCopy_length_iff (seen rest : List Routine) (r : Routine) :
    IsCopy (seen ++ r :: rest) seen.length ↔
      (seen.find? (·.shape.digest == r.shape.digest)).isSome := by
  have hlast : digestAt (seen ++ r :: rest) seen.length = some r.shape.digest := by simp [digestAt]
  rw [IsCopy, hlast, List.find?_isSome]
  constructor
  · rintro ⟨j, hj, hdigest⟩
    rw [digestAt, List.getElem?_append_left hj, Option.map_eq_some_iff] at hdigest
    obtain ⟨s, hs, hdigest⟩ := hdigest
    exact ⟨s, List.mem_of_getElem? hs, by simpa using hdigest⟩
  · rintro ⟨s, hs, hdigest⟩
    obtain ⟨j, hj, rfl⟩ := List.mem_iff_getElem.mp hs
    refine ⟨j, hj, ?_⟩
    rw [digestAt, List.getElem?_append_left hj, List.getElem?_eq_getElem hj, Option.map_some]
    simpa using hdigest

/-- The pass over the functions after those seen. -/
theorem forall₂_reportFrom (path : String) {sizes : Std.HashMap UInt64 Nat}
    {models : Std.HashMap UInt64 Routine} {seen rest : List Routine}
    (hsizes : ∀ digest : UInt64, sizes[digest]?.getD 0 =
      (seen ++ rest).countP (·.shape.digest == digest))
    (hmodels : FirstModels seen models) :
    List.Forall₂ (ReportsAt path (seen ++ rest))
      ((List.range' seen.length rest.length).filter fun i => IsCopy (seen ++ rest) i)
      (reportFrom path sizes models rest) := by
  -- Positions count from the first function, so the functions seen stay in the statement.
  induction rest generalizing seen models with
  | nil => exact .nil
  | cons r rest ih =>
    have hassoc : seen ++ r :: rest = seen ++ [r] ++ rest := by simp
    have hlater {models : Std.HashMap UInt64 Routine} (hmodels : FirstModels (seen ++ [r]) models) :
        List.Forall₂ (ReportsAt path (seen ++ r :: rest))
          ((List.range' (seen.length + 1) rest.length).filter fun i => IsCopy (seen ++ r :: rest) i)
          (reportFrom path sizes models rest) := by
      rw [hassoc] at hsizes ⊢
      simpa using ih hsizes hmodels
    rw [List.length_cons, List.range'_succ, reportFrom]
    cases hmodel : models[r.shape.digest]? with
    | none =>
      have hnew : ¬ IsCopy (seen ++ r :: rest) seen.length := by
        rw [isCopy_length_iff, ← hmodels, hmodel]
        simp
      rw [List.filter_cons_of_neg (by simpa using hnew)]
      exact hlater (hmodels.insert hmodel)
    | some model =>
      have hcopy : IsCopy (seen ++ r :: rest) seen.length := by
        rw [isCopy_length_iff, ← hmodels, hmodel]
        rfl
      rw [List.filter_cons_of_pos (by simpa using hcopy)]
      refine .cons ⟨r, model, by simp, ?_, ?_⟩ (hlater (hmodels.later hmodel))
      · rw [List.find?_append, ← hmodels, hmodel, Option.some_or]
      · rw [hsizes]
        exact reports_finding ..

/-- Every function that repeats an earlier one is reported once, in the order of the functions, at
its place and with the name and the line of the first function of its group and the size of the
group. In each group all functions but the first are such copies. -/
theorem groups_reported (l : Limits) (path : String) (routines : List Routine) :
    List.Forall₂ (ReportsAt path (eligible l routines)) (copies (eligible l routines))
      (check l path routines) ∧
    ∀ digest : UInt64,
      (group (eligible l routines) digest).length =
        (eligible l routines).countP (·.shape.digest == digest) ∧
      ((group (eligible l routines) digest).head?.bind fun i => (eligible l routines)[i]?) =
        (eligible l routines).find? (·.shape.digest == digest) ∧
      (copies (eligible l routines)).filter
        (fun i => digestAt (eligible l routines) i = some digest) =
          (group (eligible l routines) digest).tail := by
  refine ⟨?_, fun digest => ⟨length_group _ digest, head?_group _ digest, filter_copies _ digest⟩⟩
  have hnone : FirstModels [] ∅ := fun digest => by simp
  have hreport := forall₂_reportFrom path (getD_groupSizes ([] ++ eligible l routines)) hnone
  rwa [List.nil_append, List.length_nil, ← List.range_eq_range'] at hreport

end Coupling.Duplicate
