import Mathlib
import Concordance.Json.Data
import Concordance.Proofs.Json.Typed

/-! The JSON forms of files, stamps, kinds, types and places are lossless: what is written is read back, from every
    layout of its JSON value. -/

namespace Concordance.Json

namespace Codec

variable {α : Type} {codec : Codec α}

/-- What is written is read back, and so is the same with its members in another order and white space anywhere.
    What any text is read to, in whatever form the text gives it, comes back from the text that is written for it. -/
structure Lossless (codec : Codec α) : Prop where
  decode_write (a : α) : codec.decode (codec.write a) = .ok a
  decode_layout {text : String} {before layout after : List UInt8} {a : α} (hbefore : Blank before)
    (hlayout : Layout (codec.encode a) layout) (hafter : Blank after)
    (htext : text.toUTF8.toList = before ++ (layout ++ after)) : codec.decode text = .ok a
  decode_write_of_decode {text : String} {a : α} (h : codec.decode text = .ok a) : codec.decode (codec.write a) = .ok a

/-- Every value is read off each layout of its JSON value. -/
def Faithful (codec : Codec α) : Prop := ∀ a, Reads codec.reader (codec.encode a) a

theorem Faithful.lossless (h : codec.Faithful) : codec.Lossless where
  decode_write a := Reader.read_compact (h a)
  decode_layout hbefore hlayout hafter htext := by
    rw [decode, Reader.read, htext]
    exact Reader.readBytes_layout (h _) hbefore hlayout hafter
  decode_write_of_decode _ := Reader.read_compact (h _)

theorem words_faithful {choices : List (String × α)} {word : α → String}
    (h : ∀ a, choices.find? (fun c => c.1 = word a) = some (word a, a)) : (words choices word).Faithful :=
  fun a => Reads.choice (h a)

end Codec

theorem fileId_faithful : fileId.Faithful := fun file => (Reads.string file.text).map FileId.mk

theorem stamp_faithful : stamp.Faithful := fun s => (Reads.word64 s.value).map Stamp.mk

theorem typeKind_faithful : typeKind.Faithful := by
  refine Codec.words_faithful fun k => ?_
  cases k <;> rfl

theorem matchReason_faithful : matchReason.Faithful := by
  refine Codec.words_faithful fun r => ?_
  cases r <;> rfl

theorem position_faithful : position.Faithful := by
  intro p
  refine Reads.record [fun q => { q with line := p.line }, fun q => { q with character := p.character }]
    (.cons ⟨_, rfl, ?line⟩ (.cons ⟨_, rfl, ?character⟩ .nil)) (by simp) (by simp) (by simp) rfl
  case line => exact (Reads.word32 p.line).map _
  case character => exact (Reads.word32 p.character).map _

theorem range_faithful : range.Faithful := by
  intro r
  refine Reads.record [fun q => { q with start := r.start }, fun q => { q with stop := r.stop }]
    (.cons ⟨_, rfl, ?start⟩ (.cons ⟨_, rfl, ?stop⟩ .nil)) (by simp) (by simp) (by simp) rfl
  case start => exact (position_faithful r.start).map _
  case stop => exact (position_faithful r.stop).map _

theorem location_faithful : location.Faithful := by
  intro l
  refine Reads.record [fun k => { k with file := l.file }, fun k => { k with range := l.range }]
    (.cons ⟨_, rfl, ?file⟩ (.cons ⟨_, rfl, ?range⟩ .nil)) (by simp) (by simp) (by simp) rfl
  case file => exact (fileId_faithful l.file).map _
  case range => exact (range_faithful l.range).map _

theorem candidate_faithful : candidate.Faithful := by
  intro c
  refine Reads.record [fun d => { d with file := c.file }, fun d => { d with reason := c.reason }]
    (.cons ⟨_, rfl, ?file⟩ (.cons ⟨_, rfl, ?reason⟩ .nil)) (by simp) (by simp) (by simp) rfl
  case file => exact (fileId_faithful c.file).map _
  case reason => exact (matchReason_faithful c.reason).map _

theorem typeLocation_faithful : typeLocation.Faithful := by
  intro t
  refine Reads.record [fun u => { u with file := t.file }, fun u => { u with qualifiedName := t.qualifiedName },
      fun u => { u with kind := t.kind }]
    (.cons ⟨_, rfl, ?file⟩ (.cons ⟨_, rfl, ?qualifiedName⟩ (.cons ⟨_, rfl, ?kind⟩ .nil))) (by simp) (by simp) (by simp)
    rfl
  case file => exact (fileId_faithful t.file).map _
  case qualifiedName => exact (Reads.string t.qualifiedName).map _
  case kind => exact (typeKind_faithful t.kind).map _

theorem topLevelType_faithful : topLevelType.Faithful := by
  intro t
  refine Reads.record [fun u => { u with name := t.name }, fun u => { u with kind := t.kind }]
    (.cons ⟨_, rfl, ?name⟩ (.cons ⟨_, rfl, ?kind⟩ .nil)) (by simp) (by simp) (by simp) rfl
  case name => exact (Reads.string t.name).map _
  case kind => exact (typeKind_faithful t.kind).map _

/-- The JSON forms of all data are lossless. -/
theorem data_lossless : position.Lossless ∧ range.Lossless ∧ location.Lossless ∧ typeKind.Lossless ∧
    matchReason.Lossless ∧ candidate.Lossless ∧ typeLocation.Lossless ∧ topLevelType.Lossless ∧ stamp.Lossless ∧
    fileId.Lossless :=
  ⟨position_faithful.lossless, range_faithful.lossless, location_faithful.lossless, typeKind_faithful.lossless,
    matchReason_faithful.lossless, candidate_faithful.lossless, typeLocation_faithful.lossless,
    topLevelType_faithful.lossless, stamp_faithful.lossless, fileId_faithful.lossless⟩

example : position.decode "[3,4]" = .ok ⟨3, 4⟩ := by cbv
example : position.decode "\x7b \"x\": [null], \"character\": 4, \"line\": 3 \x7d" = .ok ⟨3, 4⟩ := by cbv

end Concordance.Json
