import Concordance.Json.Typed

/-! What readers make of texts that begin with what they read. A reader takes its text off the front and leaves
    the rest, so its steps are told one after the other, each by the text that it passes. -/

namespace Concordance.Json

/-- White space. -/
def Blank (text : List UInt8) : Prop := ∀ b ∈ text, Reader.isBlank b = true

namespace Blank

variable {text text' : List UInt8}

theorem nil : Blank [] := nofun

theorem append (h : Blank text) (h' : Blank text') : Blank (text ++ text') := List.forall_mem_append.mpr ⟨h, h'⟩

end Blank

/-- The characters of a text in bytes. -/
def utf8 (cs : List Char) : List UInt8 := cs.flatMap String.utf8EncodeChar

@[simp] theorem utf8_nil : utf8 [] = [] := rfl

@[simp] theorem utf8_append (cs ds : List Char) : utf8 (cs ++ ds) = utf8 cs ++ utf8 ds := List.flatMap_append

theorem utf8_cons (c : Char) (cs : List Char) : utf8 (c :: cs) = String.utf8EncodeChar c ++ utf8 cs := rfl

/-- An ASCII character is one byte. -/
theorem utf8_of_ascii {cs : List Char} (h : ∀ c ∈ cs, c.toNat < 128) : utf8 cs = cs.map Char.toUInt8 := by
  induction cs with
  | nil => rfl
  | cons c cs ih =>
    obtain ⟨hc, hcs⟩ := List.forall_mem_cons.mp h
    have hsize : c.utf8Size = 1 := Char.utf8Size_eq_one_iff.mpr (Nat.le_of_lt_succ hc)
    rw [utf8_cons, ih hcs, String.utf8EncodeChar_eq_singleton hsize]
    rfl

theorem toList_eq_data (bytes : ByteArray) : bytes.toList = bytes.data.toList := by
  have hloop (i : Nat) (read : List UInt8) :
      ByteArray.toList.loop bytes i read = read.reverse ++ bytes.data.toList.drop i := by
    fun_induction ByteArray.toList.loop bytes i read with
    | case1 i read h ih =>
      have hi : i < bytes.data.toList.length := h
      rw [ih, List.drop_eq_getElem_cons hi, List.reverse_cons, List.append_assoc, List.singleton_append]
      congr 2
      exact getElem!_pos bytes.data i h
    | case2 i read h =>
      rw [List.drop_eq_nil_of_le (Nat.le_of_not_lt h), List.append_nil]
  rw [ByteArray.toList, hloop, List.reverse_nil, List.nil_append, List.drop_zero]

/-- The bytes of a text are those of its characters. -/
theorem toList_toUTF8 (cs : List Char) : (String.ofList cs).toUTF8.toList = utf8 cs := by
  rw [toList_eq_data, String.toUTF8_eq_toByteArray, String.toByteArray_ofList, List.utf8Encode,
    List.toList_data_toByteArray, utf8]

namespace Reader

variable {α β : Type} {r : Reader α} {f : α → Reader β} {a : α} {c : UInt8} {blank text rest rest' : List UInt8}

theorem bind_ok (h : r text = .ok a rest) : (r >>= f) text = f a rest := by
  show EStateM.bind r f text = _
  rw [EStateM.bind, h]

theorem map_ok (g : α → β) (h : r text = .ok a rest) : (g <$> r) text = .ok (g a) rest := by
  show EStateM.map g r text = _
  rw [EStateM.map, h]

theorem peek_bind (f : Option UInt8 → Reader β) : (peek >>= f) text = f text.head? text := rfl

theorem pass_bind (f : Unit → Reader β) : (pass >>= f) text = f () text.tail := rfl

theorem take_bind (f : Option UInt8 → Reader β) : (take >>= f) text = f text.head? text.tail := rfl

theorem left_bind (f : Nat → Reader β) : (left >>= f) text = f text.length text := rfl

theorem placed_ok (h : r text = .ok a rest) : placed r text = .ok a rest := by rw [placed, h]

theorem closing_ok {stop : Reader Unit} (h : r text = .ok a rest) (hstop : stop rest = .ok () rest') :
    closing r stop text = .ok a rest' := by
  simp only [closing, h, hstop]

/-- White space is passed up to what comes next. -/
theorem blanks_bind (hblank : Blank blank) (hc : isBlank c = false) (f : Option UInt8 → Reader β) :
    (blanks >>= f) (blank ++ c :: rest) = f (some c) (c :: rest) := by
  refine bind_ok ?_
  rw [blanks, List.dropWhile_append_of_pos hblank, List.dropWhile_cons_of_neg (by rw [hc]; exact Bool.false_ne_true)]
  rfl

theorem word_append (bytes : List UInt8) : word bytes (bytes ++ rest) = .ok () rest := by
  induction bytes with
  | nil => rfl
  | cons b bytes ih =>
    rw [word, take_bind]
    show (if b = b then word bytes else _) (bytes ++ rest) = _
    rw [if_pos rfl, ih]

end Reader

end Concordance.Json
