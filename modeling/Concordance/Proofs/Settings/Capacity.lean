import Mathlib
import Concordance.Proofs.Service.Log
import Concordance.Proofs.Settings.Overrides

/-! Services created from settings files. A file may allow any number of builds at once that a word can hold, but a
    service can only be created for so many of them (`Service.buildLimit`), and nothing between the file and the service
    brings the number down. -/

namespace Concordance.Settings

open Json

variable {parallel : Option UInt64}

/-- A service can be created if no more builds are allowed at once than can be counted. That at least one is allowed
    makes no difference to that. -/
theorem create_eq (s : Settings) : Service.create s =
    if s.maxConcurrentBuilds ≤ Service.buildLimit then .ok (.fresh s) else .error ⟨s.maxConcurrentBuilds⟩ := by
  have hiff : max s.maxConcurrentBuilds 1 ≤ Service.buildLimit ↔ s.maxConcurrentBuilds ≤ Service.buildLimit := by
    show (if s.maxConcurrentBuilds ≤ 1 then 1 else s.maxConcurrentBuilds) ≤ Service.buildLimit ↔ _
    split
    next h => exact iff_of_true (by decide) (UInt64.le_trans h (by decide))
    next => exact Iff.rfl
  rw [Service.create]
  simp only [hiff]
  rfl

/-- The text of a file that says how many builds are allowed at once, and nothing else. -/
def buildsText (n : UInt64) : String := (Value.object [("max_concurrent_builds", .number n.toNat)]).compact

/-- Every number of builds can be loaded. -/
theorem load_builds {w : Workspace} {path : String} {n : UInt64} (there : w.read path = .ok (buildsText n).toUTF8) :
    load parallel w path = .ok { standard with maxConcurrentBuilds := n } := by
  have hreads : Reads (form parallel).reader (.object [("max_concurrent_builds", .number n.toNat)])
      { standard with maxConcurrentBuilds := n } := by
    refine Reads.record [fun t => { t with maxConcurrentBuilds := n }] (.cons ⟨_, rfl, ?_⟩ .nil) (by simp) (by simp)
      (by simp [form, fields, setting]) rfl
    exact (Reads.count64 n).map _
  have hdecode : decode parallel (buildsText n).toUTF8.toList = .ok { standard with maxConcurrentBuilds := n } :=
    Reader.read_compact hreads
  rw [load, there, ofContent, hdecode]

/-- From what a file is loaded as a service can be created exactly if the file does not allow more builds at once than
    can be counted. Where a file cannot be loaded, a service can be created from the standard settings that are taken
    then, exactly if the machine is not known to run more in parallel than can be counted. -/
theorem create_loaded (parallel : Option UInt64) (w : Workspace) (path : String) :
    (∀ s, load parallel w path = .ok s →
      (Service.create s = .ok (.fresh s) ↔ s.maxConcurrentBuilds ≤ Service.buildLimit) ∧
      (Service.create s = .error ⟨s.maxConcurrentBuilds⟩ ↔ Service.buildLimit < s.maxConcurrentBuilds)) ∧
    ∀ e, load parallel w path = .error e →
      (Service.create (orStandard parallel (load parallel w path)) = .ok (.fresh (.standard parallel)) ↔
        ∀ n ∈ parallel, n ≤ Service.buildLimit) := by
  have hcreate (s : Settings) : Service.create s = .ok (.fresh s) ↔ s.maxConcurrentBuilds ≤ Service.buildLimit := by
    rw [create_eq]
    split
    next hle => exact iff_of_true rfl hle
    next hle => exact iff_of_false nofun hle
  refine ⟨fun s _ => ⟨hcreate s, ?_⟩, fun e he => ?_⟩
  · rw [create_eq]
    split
    next hle => exact iff_of_false nofun (UInt64.not_lt.mpr hle)
    next hle => exact iff_of_true rfl (UInt64.not_le.mp hle)
  · rw [he, orStandard, hcreate]
    cases parallel with
    | none => exact iff_of_true (by decide) nofun
    | some n => exact ⟨fun hle m hm => Option.some.inj hm ▸ hle, fun hall => hall n rfl⟩

/-- As many builds as can be counted. -/
theorem create_loaded_limit :
    let w : Workspace := .ofRoot "w" (.folder [("c", .file (buildsText 2305843009213693951).toUTF8)])
    load none w "c" = .ok { standard with maxConcurrentBuilds := 2305843009213693951 } ∧
    Service.create { standard with maxConcurrentBuilds := 2305843009213693951 } =
      .ok (.fresh { standard with maxConcurrentBuilds := 2305843009213693951 }) := by
  intro w
  have hload : load none w "c" = .ok { standard with maxConcurrentBuilds := 2305843009213693951 } :=
    load_builds (read_file _)
  exact ⟨hload, (((create_loaded none w "c").1 _ hload).1).mpr (by decide)⟩

/-- One more is loaded as well, but no service can be created then. -/
theorem too_many_builds :
    load none (.ofRoot "w" (.folder [("c", .file (buildsText 2305843009213693952).toUTF8)])) "c" =
      .ok { standard with maxConcurrentBuilds := 2305843009213693952 } ∧
    Service.create { standard with maxConcurrentBuilds := 2305843009213693952 } =
      .error ⟨2305843009213693952⟩ := by
  refine ⟨load_builds (read_file _), ?_⟩
  rw [create_eq]
  exact if_neg (by decide)

end Concordance.Settings
