import Concordance.Json.Typed
import Concordance.Json.Value
import Concordance.Settings.Basic

/-!
Settings as JSON. What a text does not say keeps its standard value, and members that are no settings
are passed over.
-/

namespace Concordance.Settings

open Json

def encode (s : Settings) : Value := .object [
  ("source_extensions", .strings s.sourceExtensions),
  ("excluded_dirs", .strings s.excludedDirs),
  ("max_file_size_bytes", .number s.maxFileSize.toNat),
  ("max_concurrent_builds", .number s.maxConcurrentBuilds.toNat),
  ("publish_partial_on_first_failure", .bool s.publishPartialOnFirstFailure),
  ("respect_gitignore", .bool s.respectGitignore)]

/-- A setting that may be left out. -/
def setting {α : Type} (name : String) (reader : Reader α) (set : α → Settings → Settings) :
    RecordField Settings where
  name := name
  read := set <$> reader
  required := false

def fields : List (RecordField Settings) := [
  setting "source_extensions" (Reader.list Reader.string)
    fun v s => { s with sourceExtensions := v },
  setting "excluded_dirs" (Reader.list Reader.string) fun v s => { s with excludedDirs := v },
  setting "max_file_size_bytes" Reader.word64 fun v s => { s with maxFileSize := v },
  setting "max_concurrent_builds" Reader.count64 fun v s => { s with maxConcurrentBuilds := v },
  setting "publish_partial_on_first_failure" Reader.boolean
    fun v s => { s with publishPartialOnFirstFailure := v },
  setting "respect_gitignore" Reader.boolean fun v s => { s with respectGitignore := v }]

def form (parallel : Option UInt64) : RecordForm Settings where
  name := "IndexConfig"
  blank := .standard parallel
  fields := fields

/-- The settings in a file's bytes. -/
def decode (parallel : Option UInt64) (bytes : List UInt8) : Except ReadError Settings :=
  (form parallel).reader.readBytes bytes

/-- The text of a settings file. -/
def text (s : Settings) : String := s.encode.pretty

end Concordance.Settings
