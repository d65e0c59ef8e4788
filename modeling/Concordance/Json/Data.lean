import Concordance.Json.Typed
import Concordance.Json.Value
import Concordance.Registry.Search
import Concordance.Service.Reference

/-!
The JSON forms of files, stamps, kinds, types and places. An identity is a string and a stamp a number;
kinds and reasons are words, and everything else is a record.
-/

namespace Concordance.Json

/-- How values of a type are written and read. -/
structure Codec (α : Type) where
  encode : α → Value
  reader : Reader α

namespace Codec

variable {α : Type}

/-- Reads a value. -/
def decode (codec : Codec α) (text : String) : Except ReadError α := codec.reader.read text

/-- Writes a value in the short form. -/
def write (codec : Codec α) (a : α) : String := (codec.encode a).compact

/-- One of some words. -/
def words (choices : List (String × α)) (word : α → String) : Codec α where
  encode a := .string (word a)
  reader := Reader.choice choices

end Codec

def fileId : Codec FileId where
  encode file := .string file.text
  reader := FileId.mk <$> Reader.string

def stamp : Codec Stamp where
  encode s := .number s.value.toNat
  reader := Stamp.mk <$> Reader.word64

def typeKind : Codec TypeKind := .words (TypeKind.all.map fun k => (k.name, k)) TypeKind.name

def matchReason : Codec MatchReason :=
  .words (MatchReason.all.map fun r => (r.name, r)) MatchReason.name

def position : Codec Position where
  encode p := .object [("line", .number p.line.toNat), ("character", .number p.character.toNat)]
  reader := RecordForm.reader {
    name := "Position"
    blank := default
    fields := [
      { name := "line", read := (fun v p => { p with line := v }) <$> Reader.word32 },
      { name := "character", read := (fun v p => { p with character := v }) <$> Reader.word32 }] }

def range : Codec Range where
  encode r := .object [("start", position.encode r.start), ("end", position.encode r.stop)]
  reader := RecordForm.reader {
    name := "Range"
    blank := default
    fields := [
      { name := "start", read := (fun v r => { r with start := v }) <$> position.reader },
      { name := "end", read := (fun v r => { r with stop := v }) <$> position.reader }] }

def location : Codec Location where
  encode l := .object [("file", fileId.encode l.file), ("range", range.encode l.range)]
  reader := RecordForm.reader {
    name := "Location"
    blank := default
    fields := [
      { name := "file", read := (fun v l => { l with file := v }) <$> fileId.reader },
      { name := "range", read := (fun v l => { l with range := v }) <$> range.reader }] }

def candidate : Codec Candidate where
  encode c := .object [("file", fileId.encode c.file), ("reason", matchReason.encode c.reason)]
  reader := RecordForm.reader {
    name := "Candidate"
    blank := default
    fields := [
      { name := "file", read := (fun v c => { c with file := v }) <$> fileId.reader },
      { name := "reason", read := (fun v c => { c with reason := v }) <$> matchReason.reader }] }

def typeLocation : Codec TypeLocation where
  encode t := .object [("file", fileId.encode t.file), ("qualified_name", .string t.qualifiedName),
    ("kind", typeKind.encode t.kind)]
  reader := RecordForm.reader {
    name := "TypeLocation"
    blank := default
    fields := [
      { name := "file", read := (fun v t => { t with file := v }) <$> fileId.reader },
      { name := "qualified_name",
        read := (fun v t => { t with qualifiedName := v }) <$> Reader.string },
      { name := "kind", read := (fun v t => { t with kind := v }) <$> typeKind.reader }] }

def topLevelType : Codec TopLevelType where
  encode t := .object [("name", .string t.name), ("kind", typeKind.encode t.kind)]
  reader := RecordForm.reader {
    name := "TopLevelType"
    blank := default
    fields := [
      { name := "name", read := (fun v t => { t with name := v }) <$> Reader.string },
      { name := "kind", read := (fun v t => { t with kind := v }) <$> typeKind.reader }] }

end Concordance.Json
