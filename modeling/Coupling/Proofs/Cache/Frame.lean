import Coupling.Proofs.Batch.Worker
import Coupling.Proofs.Cache.Key

/-!
# What a cache leaves alone

All results are kept below one directory. Whatever a worker does with its cache, the files outside
of that directory stay as they are.
-/

namespace Coupling

/-- Where workers find their files: the working directory, the directory of all results and the
grammar of the language. -/
structure Site where
  workDir : Location
  root : Location
  grammar : Text.Bytes → Option Syntax.Tree

namespace Site

variable (S : Site)

/-- Inside the directory of results. -/
def Inside (here : Location) : Prop := S.root <+: here ∧ here ≠ S.root

instance (here : Location) : Decidable (S.Inside here) := inferInstanceAs (Decidable (_ ∧ _))

/-- A disk that differs from another at most by directories and by results. -/
structure Spares (d d' : Disk) : Prop where
  workDir_eq : d'.workDir = d.workDir
  file_iff : ∀ {here doc modified}, ¬ S.Inside here →
    (d'.node? here = some (.file doc modified) ↔ d.node? here = some (.file doc modified))

/-- A cache with a directory among the results. -/
def Houses (c : ResultCache) : Prop :=
  ∃ name, Disk.destination S.workDir c.directory = S.root ++ [name]

variable {S} {d d' d'' : Disk} {path : Path}

theorem Spares.refl (S : Site) (d : Disk) : S.Spares d d := ⟨rfl, fun _ => Iff.rfl⟩

theorem Spares.trans (h : S.Spares d d') (h' : S.Spares d' d'') : S.Spares d d'' :=
  ⟨h'.workDir_eq.trans h.workDir_eq, fun hhere => (h'.file_iff hhere).trans (h.file_iff hhere)⟩

theorem Spares.of_sameFiles (h : d.SameFiles d') : S.Spares d d' :=
  ⟨h.workDir_eq, fun _ => h.file_iff⟩

/-- A change at one location inside the directory of results. -/
theorem Spares.of_node? {place : Location} {node : Option DiskNode} (hplace : S.Inside place)
    (hworkDir : d'.workDir = d.workDir)
    (hnode : ∀ there, d'.node? there = if there = place then node else d.node? there) :
    S.Spares d d' := by
  refine ⟨hworkDir, fun {here _ _} hhere => ?_⟩
  have hne : here ≠ place := fun heq => hhere (heq ▸ hplace)
  rw [hnode, if_neg hne]

theorem Spares.write (hplace : S.Inside (Disk.destination d.workDir path)) (doc : Syntax.Document)
    (modified : Int) : S.Spares d ((d.write path doc modified).toOption.getD d) := by
  cases hwrite : d.write path doc modified with
  | error e => exact .refl S d
  | ok d' =>
    obtain ⟨hworkDir, hnode⟩ := Disk.write_eq_ok hwrite
    exact .of_node? hplace hworkDir hnode

theorem Spares.removeFile (hplace : S.Inside (Disk.destination d.workDir path)) :
    S.Spares d ((d.removeFile path).toOption.getD d) := by
  cases hremove : d.removeFile path with
  | error e => exact .refl S d
  | ok d' =>
    obtain ⟨hworkDir, hnode⟩ := Disk.removeFile_eq_ok hremove
    exact .of_node? hplace hworkDir hnode

/-! ### Caches -/

variable {c : ResultCache} {bytes : Text.Bytes}

theorem Houses.of_directory_eq {c c' : ResultCache} (hc : S.Houses c)
    (h : c'.directory = c.directory) : S.Houses c' := by
  rw [Houses, h]
  exact hc

theorem Houses.inside_entryPath (hc : S.Houses c) (s : Cache.FileState) :
    S.Inside (Disk.destination S.workDir (c.entryPath s.key)) := by
  obtain ⟨name, hname⟩ := hc
  rw [ResultCache.entryPath, Disk.destination_join s.isName_key, hname, List.append_assoc]
  exact ⟨List.prefix_append _ _, by simp⟩

end Site

@[simp] theorem ResultCache.directory_remember (c : ResultCache) (key : String)
    (findings : List Finding) : (c.remember key findings).directory = c.directory := by
  simp only [remember]
  split <;> rfl

namespace Site

variable {S : Site} {d : Disk} {path : Path} {c : ResultCache} {bytes : Text.Bytes}

theorem Houses.getBytes (hc : S.Houses c) (hd : d.workDir = S.workDir) (path : Path)
    (bytes : Text.Bytes) :
    S.Houses (c.getBytes d path bytes).cache ∧ S.Spares d (c.getBytes d path bytes).disk := by
  unfold ResultCache.getBytes
  split
  · exact ⟨hc.of_directory_eq rfl, .refl S d⟩
  · rename_i s _
    have hinside := hc.inside_entryPath s
    rw [← hd] at hinside
    split
    · exact ⟨hc.of_directory_eq rfl, .refl S d⟩
    · split
      · exact ⟨hc.of_directory_eq (c.directory_remember s.key _), .refl S d⟩
      · exact ⟨hc.of_directory_eq rfl, .refl S d⟩
      · refine ⟨hc.of_directory_eq rfl, ?_⟩
        simp only [ResultCache.miss]
        exact .removeFile hinside

theorem Houses.setBytes (hc : S.Houses c) (hd : d.workDir = S.workDir) (path : Path)
    (bytes : Text.Bytes) (findings : List Finding) :
    S.Houses (c.setBytes d path bytes findings).1 ∧
      S.Spares d (c.setBytes d path bytes findings).2 := by
  unfold ResultCache.setBytes
  split
  · exact ⟨hc, .refl S d⟩
  · rename_i s _
    have hinside := hc.inside_entryPath s
    rw [← hd] at hinside
    dsimp only
    exact ⟨hc.of_directory_eq (c.directory_remember s.key findings), .write hinside _ _⟩

end Site

/-- A worker touches results only. -/
theorem Worker.analyze_spares {S : Site} {w : Worker} {d : Disk} (hd : d.workDir = S.workDir)
    (hw : ∀ c, w.cache = some c → S.Houses c) (path : Path) :
    S.Spares d (w.analyze d path).2.2 ∧
      ∀ c, (w.analyze d path).2.1.cache = some c → S.Houses c := by
  cases hread : d.read path with
  | error e =>
    rw [analyze_of_read_error hread]
    exact ⟨.refl S d, hw⟩
  | ok doc =>
    cases hcache : w.cache with
    | none =>
      rw [analyze_of_cache_none hcache hread]
      exact ⟨.refl S d, hw⟩
    | some c =>
      obtain ⟨hhouses, hspares⟩ := (hw c hcache).getBytes hd path doc.bytes
      rw [analyze_of_cache_some hcache hread rfl]
      split
      · exact ⟨hspares, fun _ h => Option.some.inj h ▸ hhouses⟩
      · split
        · exact ⟨hspares, fun _ h => Option.some.inj h ▸ hhouses⟩
        · rename_i findings _
          obtain ⟨hhouses', hspares'⟩ :=
            hhouses.setBytes (hspares.workDir_eq.trans hd) path doc.bytes findings
          by_cases hfailed : findings.any (·.kind == .processingError) = true
          · simp only [if_pos hfailed]
            exact ⟨hspares, fun _ h => Option.some.inj h ▸ hhouses⟩
          · simp only [if_neg hfailed]
            exact ⟨hspares.trans hspares', fun _ h => Option.some.inj h ▸ hhouses'⟩

end Coupling
