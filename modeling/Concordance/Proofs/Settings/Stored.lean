import Mathlib
import Concordance.Settings.File
import Concordance.Proofs.Json.Typed
import Concordance.Proofs.Workspace.Writing

/-! Settings that are saved are loaded again: the text of a settings file holds all of them, and the file is found
    where it was written, be its path relative or absolute. Only a device can take them and keep nothing. -/

namespace Concordance.Settings

open Json

variable {parallel : Option UInt64}

theorem strings_faithful (items : List String) : Reads (Reader.list Reader.string) (.strings items) items :=
  Reads.list (List.forall₂_map_left_iff.mpr (List.forall₂_same.mpr fun s _ => Reads.string s))

/-- Settings are read off each layout of their JSON value. -/
theorem encode_faithful (s : Settings) : Reads (form parallel).reader s.encode s := by
  refine Reads.record [fun t => { t with sourceExtensions := s.sourceExtensions },
      fun t => { t with excludedDirs := s.excludedDirs }, fun t => { t with maxFileSize := s.maxFileSize },
      fun t => { t with maxConcurrentBuilds := s.maxConcurrentBuilds },
      fun t => { t with publishPartialOnFirstFailure := s.publishPartialOnFirstFailure },
      fun t => { t with respectGitignore := s.respectGitignore }]
    (.cons ⟨_, rfl, ?sourceExtensions⟩ (.cons ⟨_, rfl, ?excludedDirs⟩ (.cons ⟨_, rfl, ?maxFileSize⟩
      (.cons ⟨_, rfl, ?maxConcurrentBuilds⟩ (.cons ⟨_, rfl, ?publishPartial⟩
        (.cons ⟨_, rfl, ?respectGitignore⟩ .nil)))))) (by simp) (by simp) (by simp [form, fields, setting]) rfl
  case sourceExtensions => exact (strings_faithful s.sourceExtensions).map _
  case excludedDirs => exact (strings_faithful s.excludedDirs).map _
  case maxFileSize => exact (Reads.word64 s.maxFileSize).map _
  case maxConcurrentBuilds => exact (Reads.count64 s.maxConcurrentBuilds).map _
  case publishPartial => exact (Reads.boolean s.publishPartialOnFirstFailure).map _
  case respectGitignore => exact (Reads.boolean s.respectGitignore).map _

theorem decode_text (s : Settings) : decode parallel s.text.toUTF8.toList = .ok s := by
  rw [decode, text, Value.pretty, toList_toUTF8, Reader.readBytes_spread (encode_faithful s)]

/-- Settings that are saved to a file are loaded from it again, by either loader. -/
theorem load_save {s : Settings} {w w' : Workspace} {path : String} (saved : s.save w path = .ok w')
    (nodevice : ∀ old, w'.lookup (Path.components path) ≠ .ok (.device old)) (parallel : Option UInt64) :
    load parallel w' path = .ok s ∧ orStandard parallel (load parallel w' path) = s := by
  have hload : load parallel w' path = .ok s := by
    rw [load, Workspace.read_save saved nodevice]
    simp only [ofContent, decode_text]
  rw [hload]
  exact ⟨rfl, rfl⟩

/-- Settings of unusual names, saved at an absolute path in a folder that has to be made. -/
theorem load_save_unusual : ∃ w' : Workspace,
    save { standard with excludedDirs := ["\"é\\\"\n", "𝄞"] } (.ofRoot "w" .empty) "/a/b.json" = .ok w' ∧
    (∀ old, w'.lookup (Path.components "/a/b.json") ≠ .ok (.device old)) ∧
    load none w' "/a/b.json" = .ok { standard with excludedDirs := ["\"é\\\"\n", "𝄞"] } ∧
    orStandard none (load none w' "/a/b.json") = { standard with excludedDirs := ["\"é\\\"\n", "𝄞"] } := by
  have hcheck : Workspace.checkPath "/a/b.json" = .ok () := by cbv
  have hsteps : Path.components "/a/b.json" = [.root, .name "a", .name "b.json"] := by decide
  have hhere : Path.endsHere "/a/b.json" = false := by decide
  have hidle : Path.endsIdle "/a/b.json" = false := by decide
  let made : Workspace := { Workspace.ofRoot "w" .empty with top := .folder [("w", .empty), ("a", .empty)] }
  have hparents : (Workspace.ofRoot "w" .empty).makeParents (Path.components "/a/b.json") = .ok made := by
    rw [hsteps]
    cbv
  have hplace : made.destination (Path.components "/a/b.json") = .ok ["a", "b.json"] := by
    rw [hsteps]
    cbv
  have hsave (content : ByteArray) : (Workspace.ofRoot "w" .empty).save "/a/b.json" content =
      .ok (made.placed ["a", "b.json"] (.file content)) := Workspace.save_eq hcheck hhere hidle hparents hplace content
  have hfile (content : ByteArray) : (made.placed ["a", "b.json"] (.file content)).lookup
      [.root, .name "a", .name "b.json"] = .ok (.file content) := by cbv
  have nodevice (content old : ByteArray) : (made.placed ["a", "b.json"] (.file content)).lookup
      (Path.components "/a/b.json") ≠ .ok (.device old) := by
    rw [hsteps, hfile]
    intro hsame
    cases hsame
  exact ⟨_, hsave _, nodevice _, load_save (hsave _) (nodevice _) none⟩

/-- What is saved to the null device is lost, and saving does not fail. -/
theorem lost_at_device :
    let w : Workspace := { top := .folder [("dev", .folder [("null", .device .empty)])], root := [] }
    let s : Settings := { standard with respectGitignore := false }
    s.save w "/dev/null" = .ok w ∧ load none w "/dev/null" = .error (.invalid ⟨.endInValue, 1, 0⟩) ∧
      orStandard none (load none w "/dev/null") ≠ s := by
  intro w s
  have hcheck : Workspace.checkPath "/dev/null" = .ok () := by cbv
  have hsteps : Path.components "/dev/null" = [.root, .name "dev", .name "null"] := by decide
  have hhere : Path.endsHere "/dev/null" = false := by decide
  have hidle : Path.endsIdle "/dev/null" = false := by decide
  have hparents : w.makeParents (Path.components "/dev/null") = .ok w := by
    rw [hsteps]
    cbv
  have hplace : w.destination (Path.components "/dev/null") = .ok ["dev", "null"] := by
    rw [hsteps]
    cbv
  have hbytes : w.bytesAt (Path.components "/dev/null") = .ok .empty := by
    rw [hsteps]
    cbv
  have hload : load none w "/dev/null" = .error (.invalid ⟨.endInValue, 1, 0⟩) := by
    simp only [load, Workspace.read, hcheck, hbytes, hidle, bind, Except.bind, Bool.false_eq_true, ↓reduceIte]
    cbv
  refine ⟨Workspace.save_eq hcheck hhere hidle hparents hplace _, hload, ?_⟩
  rw [hload]
  decide

end Concordance.Settings
