import Mathlib
import Concordance.Settings.File
import Concordance.Proofs.Json.Exact

/-! Settings files that say something about some settings only. Whatever they leave out is standard; they may say it in
    any order and any spelling, and may have members of other names, with values of any shape, anywhere between. -/

namespace Concordance.Settings

open Json

/-- The settings that a file can say something about. -/
inductive Field where
  | sourceExtensions
  | excludedDirs
  | maxFileSize
  | maxConcurrentBuilds
  | publishPartialOnFirstFailure
  | respectGitignore
deriving DecidableEq

namespace Field

def name : Field → String
  | sourceExtensions => "source_extensions"
  | excludedDirs => "excluded_dirs"
  | maxFileSize => "max_file_size_bytes"
  | maxConcurrentBuilds => "max_concurrent_builds"
  | publishPartialOnFirstFailure => "publish_partial_on_first_failure"
  | respectGitignore => "respect_gitignore"

def all : List Field :=
  [sourceExtensions, excludedDirs, maxFileSize, maxConcurrentBuilds, publishPartialOnFirstFailure, respectGitignore]

/-- The field of that name, if there is one. -/
def named? (name : String) : Option Field := all.find? fun f => f.name = name

/-- The text gives the field the value that it has in some settings. -/
def Gives (s : Settings) : Field → List UInt8 → Prop
  | sourceExtensions, text => QuotedList s.sourceExtensions text
  | excludedDirs, text => QuotedList s.excludedDirs text
  | maxFileSize, text => text = utf8 s.maxFileSize.toNat.repr.toList
  | maxConcurrentBuilds, text => text = utf8 s.maxConcurrentBuilds.toNat.repr.toList
  | publishPartialOnFirstFailure, text => text = utf8 (Value.bool s.publishPartialOnFirstFailure).scalar
  | respectGitignore, text => text = utf8 (Value.bool s.respectGitignore).scalar

end Field

/-- The fields that a file's members are about, in their order. -/
def fieldsOf (entries : List (String × List UInt8)) : List Field := entries.filterMap fun entry => Field.named? entry.1

/-- Settings `t`, but for some fields, which are as in `s`. -/
def onto (s : Settings) (fields : List Field) (t : Settings) : Settings where
  sourceExtensions := (if .sourceExtensions ∈ fields then s else t).sourceExtensions
  excludedDirs := (if .excludedDirs ∈ fields then s else t).excludedDirs
  maxFileSize := (if .maxFileSize ∈ fields then s else t).maxFileSize
  maxConcurrentBuilds := (if .maxConcurrentBuilds ∈ fields then s else t).maxConcurrentBuilds
  publishPartialOnFirstFailure :=
    (if .publishPartialOnFirstFailure ∈ fields then s else t).publishPartialOnFirstFailure
  respectGitignore := (if .respectGitignore ∈ fields then s else t).respectGitignore

variable {s t : Settings} {f : Field} {key : String} {text : List UInt8} {parallel : Option UInt64}

/-! ### The form's fields -/

/-- How a field is read. -/
def Field.entry (f : Field) : RecordField Settings := fields.get ⟨f.ctorIdx, by cases f <;> decide⟩

theorem fields_eq : fields = Field.all.map Field.entry := rfl

theorem find?_fields (key : String) :
    fields.find? (fun f => f.name = key) = (Field.named? key).map Field.entry := by
  have hname (f : Field) : f.entry.name = f.name := by cases f <;> rfl
  rw [fields_eq, List.find?_map, Field.named?]
  congr 1

/-- A field's own text sets the field and nothing else. -/
theorem takes_entry (h : f.Gives s text) : Takes f.entry.read text (s.onto [f]) := by
  cases f with
  | sourceExtensions | excludedDirs => exact (Takes.strings h).map _
  | maxFileSize | maxConcurrentBuilds =>
    obtain rfl := h
    exact (Takes.natural rfl).map _
  | publishPartialOnFirstFailure | respectGitignore =>
    obtain rfl := h
    exact (Takes.boolean _).map _

theorem onto_cons (s : Settings) (f : Field) (fields : List Field) (t : Settings) :
    s.onto (f :: fields) t = s.onto fields (s.onto [f] t) := by
  simp only [onto, List.mem_cons, List.not_mem_nil, or_false]
  congr 1 <;> grind

theorem Field.name_of_named? (h : Field.named? key = some f) : f.name = key := by
  simpa using List.find?_some h

/-- What a member changes. -/
def effect (s : Settings) (entry : String × List UInt8) : Settings → Settings :=
  match Field.named? entry.1 with
  | some f => s.onto [f]
  | none => id

section

variable {entry : String × List UInt8} {entries : List (String × List UInt8)}

theorem fieldsOf_cons_none (h : Field.named? entry.1 = none) : fieldsOf (entry :: entries) = fieldsOf entries :=
  List.filterMap_cons_none h

theorem fieldsOf_cons_some (h : Field.named? entry.1 = some f) :
    fieldsOf (entry :: entries) = f :: fieldsOf entries := List.filterMap_cons_some h

theorem effects_entries (values : ∀ entry ∈ entries, Written .value entry.2)
    (gives : ∀ entry ∈ entries, ∀ f : Field, f.name = entry.1 → f.Gives s entry.2) :
    List.Forall₂ (form parallel).Effect entries (entries.map s.effect) := by
  refine List.forall₂_map_right_iff.mpr (List.forall₂_same.mpr fun entry hentry => ?_)
  unfold RecordForm.Effect effect
  rw [show (form parallel).fields = fields from rfl, find?_fields]
  cases hfield : Field.named? entry.1 with
  | none => exact ⟨takes_skip (values entry hentry), rfl⟩
  | some f => exact takes_entry (gives entry hentry f (Field.name_of_named? hfield))

theorem foldl_effect (s : Settings) (entries : List (String × List UInt8)) (t : Settings) :
    (entries.map s.effect).foldl (fun t set => set t) t = s.onto (fieldsOf entries) t := by
  induction entries generalizing t with
  | nil => rfl
  | cons entry entries ih =>
    rw [List.map_cons, List.foldl_cons, ih, effect]
    cases hfield : Field.named? entry.1 with
    | none =>
      rw [fieldsOf_cons_none hfield]
      rfl
    | some f =>
      rw [fieldsOf_cons_some hfield, onto_cons]

theorem known_eq (entries : List (String × List UInt8)) :
    (form parallel).known entries = (fieldsOf entries).map Field.name := by
  induction entries with
  | nil => rfl
  | cons entry entries ih =>
    obtain ⟨key, value⟩ := entry
    have hfind := find?_fields key
    cases hfield : Field.named? key with
    | none =>
      rw [hfield] at hfind
      rw [RecordForm.known_cons_of_none hfind, ih, fieldsOf_cons_none hfield]
    | some f =>
      rw [hfield] at hfind
      rw [RecordForm.known_cons_of_field hfind, ih, fieldsOf_cons_some hfield, List.map_cons,
        Field.name_of_named? hfield]

theorem nodup_known_iff : ((form parallel).known entries).Nodup ↔ (fieldsOf entries).Nodup := by
  have hnamed (f : Field) : Field.named? f.name = some f := by cases f <;> rfl
  have hinj : Function.Injective Field.name := fun f g h =>
    Option.some.inj ((hnamed f).symm.trans ((congrArg Field.named? h).trans (hnamed g)))
  rw [known_eq, List.nodup_map_iff hinj]

end

theorem exact_fields : ∀ field ∈ fields, Exact field.read := by
  have hstrings : Exact (Reader.list Reader.string) := .list (.stringAs _ _)
  simp only [fields, setting, List.forall_mem_cons]
  exact ⟨hstrings.map _, hstrings.map _, (Exact.natural _ _).map _, (Exact.natural _ _).map _, Exact.boolean.map _,
    Exact.boolean.map _, List.forall_mem_nil _⟩

/-- A file with an object of members, in any spelling and with any white space. If no setting is there twice and each
    that is there has the value it has in `s`, it is loaded as those of `s` over the standard settings, in whatever
    order they come and whatever else comes between them. If one is there twice, with whatever values, the file cannot
    be loaded and the standard settings are taken. -/
theorem load_overrides {w : Workspace} {path : String} {content : ByteArray} (there : w.read path = .ok content)
    {before text after : List UInt8} (leading : Blank before) (trailing : Blank after)
    (object : content.toList = before ++ (123 :: (text ++ [125]) ++ after)) {entries : List (String × List UInt8)}
    (members : Series Keyed true entries text) (values : ∀ entry ∈ entries, Written .value entry.2)
    (parallel : Option UInt64) :
    ((fieldsOf entries).Nodup → ∀ s : Settings,
      (∀ entry ∈ entries, ∀ f : Field, f.name = entry.1 → f.Gives s entry.2) →
      load parallel w path = .ok (s.onto (fieldsOf entries) (.standard parallel))) ∧
    (¬(fieldsOf entries).Nodup →
      (∃ e, load parallel w path = .error e) ∧ orStandard parallel (load parallel w path) = .standard parallel) := by
  have hload : load parallel w path = ofContent parallel (.ok content) := by rw [load, there]
  refine ⟨fun hnodup s gives => ?_, fun htwice => ?_⟩
  · have heffects : List.Forall₂ (form parallel).Effect entries (entries.map s.effect) := effects_entries values gives
    have htakes := Takes.record heffects members (nodup_known_iff.mpr hnodup)
      (by simp [form, fields, setting])
    rw [foldl_effect] at htakes
    have hdecode : decode parallel content.toList = .ok (s.onto (fieldsOf entries) (.standard parallel)) := by
      rw [object]
      exact Reader.readBytes_takes htakes leading trailing
    rw [hload, ofContent, hdecode]
  · obtain ⟨e, he⟩ := RecordForm.exists_error_of_twice exact_fields members values (mt nodup_known_iff.mp htwice) leading
      after
    have hdecode : decode parallel content.toList = .error e := by
      rw [object]
      exact he
    rw [hload, ofContent, hdecode]
    exact ⟨⟨_, rfl⟩, rfl⟩

theorem read_file (content : ByteArray) :
    (Workspace.ofRoot "w" (.folder [("c", .file content)])).read "c" = .ok content := by cbv

/-- A member of another name before a setting, and a setting that is there twice. -/
theorem load_overrides_mixed :
    let member (key : String) (value : List UInt8) : List UInt8 := utf8 (quote key) ++ ([] ++ 58 :: ([] ++ value))
    let saved (members : List UInt8) : Workspace :=
      .ofRoot "w" (.folder [("c", .file ⟨(123 :: (members ++ [125])).toArray⟩)])
    let no := Reader.ascii "false"
    load none (saved (member "x" [91, 45, 48, 93] ++ 44 :: member "respect_gitignore" no)) "c" =
      .ok { standard with respectGitignore := false } ∧
    orStandard none
      (load none (saved (member "respect_gitignore" no ++ 44 :: member "respect_gitignore" [91, 45, 48, 93])) "c") =
      .standard := by
  intro member saved no
  have object (members : List UInt8) :
      (⟨(123 :: (members ++ [125])).toArray⟩ : ByteArray).toList = [] ++ (123 :: (members ++ [125]) ++ []) := by
    rw [toList_eq_data, List.append_nil, List.nil_append]
  have hmembers (key key' : String) (value value' : List UInt8) :
      Series Keyed true [(key, value), (key', value')] (member key value ++ 44 :: member key' value') := by
    have hseries : Series Keyed true [(key, value), (key', value')]
        ([] ++ (member key value ++ ([] ++ 44 :: [] ++ (member key' value' ++ [])))) :=
      .cons (.first .nil) (keyed_quote .nil .nil) (.cons (.comma .nil .nil) (keyed_quote .nil .nil) (.nil .nil))
    rwa [List.append_nil] at hseries
  have hno : Written .value no := .word (Or.inr (Or.inr rfl))
  have hlist : Written .value [91, 45, 48, 93] := by
    have hzero : Unsigned ([48] ++ ([] ++ [])) := .mk .zero .none .none
    have hinside : Written (.inside .list true) ([] ++ ([] ++ (45 :: ([48] ++ ([] ++ [])) ++ []))) :=
      .cons (.first .nil) .none (.negative hzero) (.nil .nil)
    exact .bracketed hinside
  constructor
  · have hvalues : ∀ entry ∈ [("x", [91, 45, 48, 93]), ("respect_gitignore", no)], Written .value entry.2 := by
      simp [hno, hlist]
    refine (load_overrides (read_file _) .nil .nil (object _) (hmembers _ _ _ _) hvalues none).1 (by decide)
      { standard with respectGitignore := false } ?_
    simp only [List.forall_mem_cons]
    refine ⟨fun f hf => ?_, fun f hf => ?_, List.forall_mem_nil _⟩
    · cases f <;> exact absurd hf (by decide)
    · cases f <;> first | rfl | exact absurd hf (by decide)
  · have hvalues : ∀ entry ∈ [("respect_gitignore", no), ("respect_gitignore", [91, 45, 48, 93])],
        Written .value entry.2 := by
      simp [hno, hlist]
    exact ((load_overrides (read_file _) .nil .nil (object _) (hmembers _ _ _ _) hvalues none).2 (by decide)).2

end Concordance.Settings
