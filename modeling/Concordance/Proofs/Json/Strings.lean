import Concordance.Proofs.Json.Reader
import Concordance.Json.Value

/-! Strings are read back in whatever way they are spelled, and as they are written in particular. A character is
    spelled as itself or as an escape, and its spelling is read in some number of pieces, which is never more than
    its bytes. -/

namespace Concordance.Json

/-- Four hexadecimal digits that write a number. -/
def HexDigits (n : Nat) (digits : List UInt8) : Prop := digits.length = 4 ∧ Reader.hexNumber digits = some n

/-- The ways to spell a character inside a string: as itself, by a letter after a backslash, by its number, or by the
    numbers of two surrogates. -/
inductive Spells (c : Char) : List UInt8 → Prop
  | plain (hquote : c ≠ '"') (hescape : c ≠ '\\') (hge : 32 ≤ c.toNat) : Spells c (utf8 [c])
  | letter {b : UInt8} (h : Reader.letterEscape b = some c.toUInt8) (hc : c.toNat < 128) : Spells c [92, b]
  | number {digits : List UInt8} (h : HexDigits c.toNat digits) : Spells c (92 :: 117 :: digits)
  | pair {high low : Nat} {digits digits' : List UInt8} (h : HexDigits (0xd800 + high) digits) (hhigh : high < 0x400)
      (h' : HexDigits (0xdc00 + low) digits') (hlow : low < 0x400) (hc : c.toNat = 0x10000 + high * 0x400 + low) :
      Spells c (92 :: 117 :: (digits ++ 92 :: 117 :: digits'))

/-- The ways to spell some characters. -/
inductive Spelled : List Char → List UInt8 → Prop
  | nil : Spelled [] []
  | cons {c : Char} {cs : List Char} {text texts : List UInt8} (h : Spells c text) (hs : Spelled cs texts) :
      Spelled (c :: cs) (text ++ texts)

namespace Reader

variable {text text' rest result result' : List UInt8} {c : Char} {cs : List Char}

/-! ### Pieces -/

theorem piece_byte {b : UInt8} (hquote : b ≠ 34) (hescape : b ≠ 92) (hge : 32 ≤ b) :
    piece (b :: rest) = .ok (some [b]) rest := by
  rw [piece, peek_bind, List.head?_cons]
  dsimp only
  rw [if_neg hquote, pass_bind, if_neg hescape, if_neg (UInt8.not_lt.mpr hge)]
  rfl

theorem piece_escape : piece (92 :: rest) = (some <$> escape) rest := by
  rw [piece, peek_bind, List.head?_cons]
  dsimp only
  rw [if_neg (by decide), pass_bind, if_pos rfl]
  rfl

theorem escape_letter {b x : UInt8} (h : letterEscape b = some x) : escape (b :: rest) = .ok [x] rest := by
  have hb : b ≠ 117 := by
    rintro rfl
    cases h
  rw [escape, take_bind, List.head?_cons, List.tail_cons]
  dsimp only
  rw [if_neg hb]
  simp only [h]
  rfl

theorem escape_number : escape (117 :: rest) = unicodeEscape rest := by
  rw [escape, take_bind, List.head?_cons, List.tail_cons]
  dsimp only
  rw [if_pos rfl]

/-- The text is read to these bytes, in at most as many pieces as it has bytes. -/
def Passes (text result : List UInt8) : Prop :=
  ∃ n ≤ text.length, ∀ fuel before rest,
    pieces (fuel + n) before (text ++ rest) = pieces fuel (result.reverse ++ before) rest

namespace Passes

theorem nil : Passes [] [] := ⟨0, Nat.le_refl 0, fun _ _ _ => rfl⟩

theorem append (h : Passes text result) (h' : Passes text' result') : Passes (text ++ text') (result ++ result') := by
  obtain ⟨n, hn, hpieces⟩ := h
  obtain ⟨n', hn', hpieces'⟩ := h'
  refine ⟨n' + n, by rw [List.length_append]; omega, fun fuel before rest => ?_⟩
  calc
    pieces (fuel + (n' + n)) before (text ++ text' ++ rest)
    _ = pieces (fuel + n' + n) before (text ++ (text' ++ rest)) := by rw [Nat.add_assoc, List.append_assoc]
    _ = pieces fuel (result'.reverse ++ (result.reverse ++ before)) rest := by rw [hpieces, hpieces']
    _ = pieces fuel ((result ++ result').reverse ++ before) rest := by rw [List.reverse_append, List.append_assoc]

/-- One piece. -/
theorem of_piece (hne : text ≠ []) (h : ∀ rest, piece (text ++ rest) = .ok (some result) rest) :
    Passes text result := by
  refine ⟨1, List.length_pos_iff.mpr hne, fun fuel before rest => ?_⟩
  rw [pieces, bind_ok (h rest)]

/-- A byte that stands for itself. -/
theorem byte {b : UInt8} (hquote : b ≠ 34) (hescape : b ≠ 92) (hge : 32 ≤ b) : Passes [b] [b] :=
  of_piece (List.cons_ne_nil b []) fun _ => piece_byte hquote hescape hge

theorem plain (h : ∀ b ∈ text, b ≠ 34 ∧ b ≠ 92 ∧ 32 ≤ b) : Passes text text := by
  induction text with
  | nil => exact nil
  | cons b text ih =>
    obtain ⟨⟨hquote, hescape, hge⟩, h⟩ := List.forall_mem_cons.mp h
    exact (byte hquote hescape hge).append (ih h)

/-- A backslash and what it begins. -/
theorem of_escape (h : ∀ rest, escape (text ++ rest) = .ok result rest) : Passes (92 :: text) result :=
  of_piece (List.cons_ne_nil 92 text) fun rest => piece_escape.trans (map_ok some (h rest))

/-- A letter after a backslash. -/
theorem letter {b x : UInt8} (h : letterEscape b = some x) : Passes [92, b] [x] := of_escape fun _ => escape_letter h

/-- A backslash, a `u` and what it begins. -/
theorem code (h : ∀ rest, unicodeEscape (text ++ rest) = .ok result rest) : Passes (92 :: 117 :: text) result :=
  of_escape fun rest => escape_number.trans (h rest)

end Passes

theorem hexEscape_append {n : Nat} {digits : List UInt8} (h : HexDigits n digits) :
    hexEscape (digits ++ rest) = .ok n rest := by
  obtain ⟨hlength, hnumber⟩ := h
  have htake : (digits ++ rest).take 4 = digits := by rw [← hlength, List.take_left]
  have hdrop : (digits ++ rest).drop 4 = rest := by rw [← hlength, List.drop_left]
  rw [hexEscape, if_neg (by rw [List.length_append]; omega), htake, hdrop, hnumber]

/-- The number of a character is no surrogate. -/
theorem unicodeEscape_number {digits : List UInt8} (h : HexDigits c.toNat digits) :
    unicodeEscape (digits ++ rest) = .ok (utf8 [c]) rest := by
  have hvalid : c.toNat < 0xd800 ∨ 0xdfff < c.toNat ∧ c.toNat < 0x110000 := c.valid
  rw [unicodeEscape, bind_ok (hexEscape_append h), if_neg (by omega), if_pos (by omega), codePoint, Char.ofNat_toNat,
    utf8_cons, utf8_nil, List.append_nil]
  rfl

theorem pairMark_cons (b : UInt8) : pairMark b (b :: rest) = .ok () rest := by
  rw [pairMark, take_bind]
  show (if b = b then _ else _ : Reader Unit) rest = _
  rw [if_pos rfl]
  rfl

theorem unicodeEscape_pair {high low : Nat} {digits digits' : List UInt8} (h : HexDigits (0xd800 + high) digits)
    (hhigh : high < 0x400) (h' : HexDigits (0xdc00 + low) digits') (hlow : low < 0x400)
    (hc : c.toNat = 0x10000 + high * 0x400 + low) :
    unicodeEscape (digits ++ 92 :: 117 :: digits' ++ rest) = .ok (utf8 [c]) rest := by
  have hnat : 0x10000 + (0xd800 + high - 0xd800) * 0x400 + (0xdc00 + low - 0xdc00) = c.toNat := by omega
  rw [unicodeEscape, List.append_assoc, List.cons_append, List.cons_append, bind_ok (hexEscape_append h),
    if_neg (by omega), if_neg (by omega), bind_ok (pairMark_cons 92), bind_ok (pairMark_cons 117),
    bind_ok (hexEscape_append h'), if_neg (by omega), hnat, codePoint, Char.ofNat_toNat, utf8_cons, utf8_nil,
    List.append_nil]
  rfl

/-- The bytes of a character beyond ASCII are beyond it, too. -/
theorem le_of_mem_utf8EncodeChar {b : UInt8} (hc : 128 ≤ c.toNat) (hb : b ∈ String.utf8EncodeChar c) :
    128 ≤ b.toNat := by
  have hval : ¬ c.val.toNat ≤ 127 := Nat.not_le_of_lt hc
  rw [String.utf8EncodeChar, if_neg hval] at hb
  split at hb
  · simp only [List.mem_cons, List.not_mem_nil, or_false] at hb
    rcases hb with rfl | rfl <;> simp <;> omega
  · split at hb
    · simp only [List.mem_cons, List.not_mem_nil, or_false] at hb
      rcases hb with rfl | rfl | rfl <;> simp <;> omega
    · simp only [List.mem_cons, List.not_mem_nil, or_false] at hb
      rcases hb with rfl | rfl | rfl | rfl <;> simp <;> omega

/-- No byte of a character that is written as itself is a quote, a backslash or a control character. -/
theorem plain_of_mem_utf8EncodeChar {b : UInt8} (hquote : c ≠ '"') (hescape : c ≠ '\\') (hge : 32 ≤ c.toNat)
    (hb : b ∈ String.utf8EncodeChar c) : b ≠ 34 ∧ b ≠ 92 ∧ 32 ≤ b := by
  by_cases hascii : c.toNat < 128
  · have hc : String.utf8EncodeChar c = [c.toUInt8] :=
      String.utf8EncodeChar_eq_singleton (Char.utf8Size_eq_one_iff.mpr (Nat.le_of_lt_succ hascii))
    obtain rfl : b = c.toUInt8 := List.mem_singleton.mp (hc ▸ hb)
    have hnat : c.toUInt8.toNat = c.toNat := Nat.mod_eq_of_lt (Nat.lt_trans hascii (by decide))
    refine ⟨fun h => hquote ?_, fun h => hescape ?_, UInt8.le_iff_toNat_le.mpr (hnat.symm ▸ hge)⟩
    · exact Char.toNat_inj.mp (hnat.symm.trans (congrArg UInt8.toNat h))
    · exact Char.toNat_inj.mp (hnat.symm.trans (congrArg UInt8.toNat h))
  · have hb := le_of_mem_utf8EncodeChar (Nat.le_of_not_lt hascii) hb
    refine ⟨?_, ?_, UInt8.le_iff_toNat_le.mpr (Nat.le_trans (by decide) hb)⟩
    · rintro rfl
      exact absurd hb (by decide)
    · rintro rfl
      exact absurd hb (by decide)

/-- A character is read off each of its spellings. -/
theorem passes_spells (h : Spells c text) : Passes text (utf8 [c]) := by
  cases h with
  | plain hquote hescape hge =>
    refine .plain fun b hb => ?_
    rw [utf8_cons, utf8_nil, List.append_nil] at hb
    exact plain_of_mem_utf8EncodeChar hquote hescape hge hb
  | letter h hc =>
    rw [utf8_of_ascii (List.forall_mem_singleton.mpr hc)]
    exact .letter h
  | number h => exact .code fun _ => unicodeEscape_number h
  | pair h hhigh h' hlow hc => exact .code fun _ => unicodeEscape_pair h hhigh h' hlow hc

theorem passes_spelled (h : Spelled cs text) : Passes text (utf8 cs) := by
  induction h with
  | nil => exact .nil
  | @cons c cs text texts h hs ih =>
    rw [← List.singleton_append (x := c), utf8_append]
    exact (passes_spells h).append ih

/-- A character below 32 is written as a number of four digits. -/
theorem spells_control (h : c.toNat < 32) :
    Spells c (utf8 ['\\', 'u', '0', '0', hexDigit (c.toNat / 16), hexDigit (c.toNat % 16)]) := by
  have hdigits : ∀ n < 32, utf8 [hexDigit (n / 16), hexDigit (n % 16)] =
      [(hexDigit (n / 16)).toUInt8, (hexDigit (n % 16)).toUInt8] ∧
      hexNumber [48, 48, (hexDigit (n / 16)).toUInt8, (hexDigit (n % 16)).toUInt8] = some n := by decide
  obtain ⟨hbytes, hnumber⟩ := hdigits c.toNat h
  have htext : utf8 ['\\', 'u', '0', '0', hexDigit (c.toNat / 16), hexDigit (c.toNat % 16)] =
      92 :: 117 :: [48, 48, (hexDigit (c.toNat / 16)).toUInt8, (hexDigit (c.toNat % 16)).toUInt8] :=
    congrArg ([92, 117, 48, 48] ++ ·) hbytes
  rw [htext]
  exact .number ⟨rfl, hnumber⟩

/-- What is written for a character spells it. -/
theorem spells_escape (c : Char) : Spells c (utf8 (Json.escape c)) := by
  unfold Json.escape
  split
  case h_8 hquote hescape _ _ _ _ _ =>
    split
    next hlt => exact spells_control hlt
    next hge => exact .plain hquote hescape (Nat.le_of_not_lt hge)
  -- The others have a letter.
  all_goals exact .letter rfl (by decide)

theorem spelled_escape (cs : List Char) : Spelled cs (utf8 (cs.flatMap Json.escape)) := by
  induction cs with
  | nil => exact .nil
  | cons c cs ih =>
    rw [List.flatMap_cons, utf8_append]
    exact .cons (spells_escape c) ih

theorem fromUTF8?_utf8 (s : String) : String.fromUTF8? ⟨(utf8 s.toList).toArray⟩ = some s := by
  have hbytes : (⟨(utf8 s.toList).toArray⟩ : ByteArray) = s.toByteArray := by
    rw [← String.utf8Encode_toList, List.utf8Encode]
    exact ByteArray.ext List.data_toByteArray.symm
  rw [hbytes, String.fromUTF8?, dif_pos s.isValidUTF8]
  rfl

/-- A string is read off each of its spellings, up to its closing quote. -/
theorem quoted_spelled {s : String} (h : Spelled s.toList text) : quoted (text ++ 34 :: rest) = .ok s rest := by
  obtain ⟨n, hn, hpieces⟩ := passes_spelled h
  have hfuel : (text ++ 34 :: rest).length + 1 = (text.length - n + rest.length + 1) + 1 + n := by
    rw [List.length_append, List.length_cons]
    omega
  have hread : pieces ((text ++ 34 :: rest).length + 1) [] (text ++ 34 :: rest) =
      .ok (utf8 s.toList) (34 :: rest) := by
    rw [hfuel, hpieces, pieces, List.append_nil]
    show EStateM.Result.ok (utf8 s.toList).reverse.reverse (34 :: rest) = _
    rw [List.reverse_reverse]
  rw [quoted, left_bind, bind_ok hread, fromUTF8?_utf8]
  rfl

/-- What is written for a string, with its quotes. -/
theorem utf8_quote (s : String) : utf8 (quote s) = 34 :: (utf8 (s.toList.flatMap Json.escape) ++ [34]) := by
  rw [quote, List.cons_append, utf8_cons, utf8_append]
  rfl

end Reader

end Concordance.Json
