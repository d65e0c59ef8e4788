import Concordance.Json.Skip
import Concordance.Proofs.Json.Layout
import Concordance.Proofs.Json.Strings

/-! The texts of values, whatever readers there are for them: numbers with fractions and exponents, strings with
    any escapes, lists and objects of any depth, and white space wherever it may stand. -/

namespace Concordance.Json

open Reader (Frame ascii isDigit)

/-- What stands between the quotes of a string: bytes, letters after a backslash, and numbers of four hexadecimal
    digits, which need not be numbers of characters. -/
inductive Inside : List UInt8 → Prop
  | nil : Inside []
  | byte {b : UInt8} {text : List UInt8} (hquote : b ≠ 34) (hescape : b ≠ 92) (hge : 32 ≤ b) (h : Inside text) :
      Inside (b :: text)
  | letter {b : UInt8} {text : List UInt8} (hb : (Reader.letterEscape b).isSome = true) (h : Inside text) :
      Inside (92 :: b :: text)
  | number {n : Nat} {digits text : List UInt8} (hdigits : HexDigits n digits) (h : Inside text) :
      Inside (92 :: 117 :: (digits ++ text))

/-! ### Numbers -/

/-- One digit or more. -/
def Digits (text : List UInt8) : Prop := text ≠ [] ∧ ∀ d ∈ text, isDigit d = true

/-- A digit is no sign. -/
theorem ne_sign_of_isDigit {d : UInt8} (h : isDigit d = true) : ¬(some d = some 43 ∨ some d = some 45) := by
  rintro (hd | hd)
  all_goals
    cases hd
    cases h

/-- Integer digits. A zero stands alone. -/
inductive Integral : List UInt8 → Prop
  | zero : Integral [48]
  | digits {d : UInt8} {ds : List UInt8} (hd : isDigit d = true) (hne : d ≠ 48) (hds : ∀ d ∈ ds, isDigit d = true) :
      Integral (d :: ds)

/-- What may follow the integer digits of a number. -/
inductive Fraction : List UInt8 → Prop
  | none : Fraction []
  | point {ds : List UInt8} (hds : Digits ds) : Fraction (46 :: ds)

/-- What may end a number. -/
inductive Exponent : List UInt8 → Prop
  | none : Exponent []
  | mark {e : UInt8} {sign ds : List UInt8} (he : e = 101 ∨ e = 69) (hsign : sign = [] ∨ sign = [43] ∨ sign = [45])
      (hds : Digits ds) : Exponent (e :: (sign ++ ds))

section

variable {part power rest : List UInt8}

/-- No digits that come before an end of a number go on in it, and no point comes then. -/
theorem Exponent.head? (h : Exponent power) (hrest : Delimited rest) :
    (power ++ rest).head?.any isDigit = false ∧ (power ++ rest).head? ≠ some 46 := by
  cases h with
  | none => exact ⟨hrest.head?.1, hrest.head?.2.1⟩
  | mark he => rcases he with rfl | rfl <;> exact ⟨rfl, by simp⟩

theorem Fraction.head? (h : Fraction part) (hpower : Exponent power) (hrest : Delimited rest) :
    (part ++ (power ++ rest)).head?.any isDigit = false := by
  cases h with
  | none => exact (hpower.head? hrest).1
  | point => rfl

end

/-- A number that has no sign. -/
inductive Unsigned : List UInt8 → Prop
  | mk {whole part power : List UInt8} (hwhole : Integral whole) (hpart : Fraction part) (hpower : Exponent power) :
      Unsigned (whole ++ (part ++ power))

/-! ### Values -/

def Reader.Frame.opener : Frame → UInt8
  | list => 91
  | object => 123

/-- What stands before a value in a list or in an object. -/
inductive Label : Frame → List UInt8 → Prop
  | none : Label .list []
  | key {key before after : List UInt8} (hkey : Inside key) (hbefore : Blank before) (hafter : Blank after) :
      Label .object (34 :: (key ++ 34 :: (before ++ 58 :: after)))

/-- What a text can be: a value, or what stands between two brackets, from the beginning or from after a value on. -/
inductive Part where
  | value
  | inside (frame : Frame) (first : Bool)

/-- The text is a value, or it is what stands between the brackets of one. -/
inductive Written : Part → List UInt8 → Prop
  | word {text : List UInt8} (h : text = ascii "null" ∨ text = ascii "true" ∨ text = ascii "false") :
      Written .value text
  | unsigned {text : List UInt8} (h : Unsigned text) : Written .value text
  | negative {text : List UInt8} (h : Unsigned text) : Written .value (45 :: text)
  | string {text : List UInt8} (h : Inside text) : Written .value (34 :: (text ++ [34]))
  | bracketed {frame : Frame} {text : List UInt8} (h : Written (.inside frame true) text) :
      Written .value (frame.opener :: (text ++ [frame.closer]))
  | nil {frame : Frame} {first : Bool} {blank : List UInt8} (h : Blank blank) : Written (.inside frame first) blank
  | cons {frame : Frame} {first : Bool} {gap label text texts : List UInt8} (hgap : Gap first gap)
      (hlabel : Label frame label) (hvalue : Written .value text) (hrest : Written (.inside frame false) texts) :
      Written (.inside frame first) (gap ++ (label ++ (text ++ texts)))

theorem Unsigned.exists_cons {text : List UInt8} (h : Unsigned text) :
    ∃ d rest, text = d :: rest ∧ isDigit d = true := by
  cases h with
  | mk hwhole =>
    cases hwhole with
    | zero => exact ⟨48, _, rfl, rfl⟩
    | digits hd => exact ⟨_, _, rfl, hd⟩

theorem Label.solid {frame : Frame} {label text : List UInt8} (h : Label frame label) (htext : Solid text) :
    Solid (label ++ text) := by
  cases h with
  | none => exact htext
  | key => exact ⟨_, _, rfl, rfl⟩

theorem Written.solid {text : List UInt8} (h : Written .value text) : Solid text := by
  cases h with
  | word h => rcases h with rfl | rfl | rfl <;> exact ⟨_, _, rfl, rfl⟩
  | negative | string => exact ⟨_, _, rfl, rfl⟩
  | unsigned h =>
    obtain ⟨d, rest, rfl, hd⟩ := h.exists_cons
    exact ⟨d, rest, rfl, isDelimiter_of_isDigit hd⟩
  | @bracketed frame => exact ⟨_, _, rfl, by cases frame <;> rfl⟩

/-- The text of a string, in any spelling. -/
def Quoted (s : String) (text : List UInt8) : Prop := ∃ spelling, Spelled s.toList spelling ∧ text = 34 :: (spelling ++ [34])

/-- The text of a list of strings. -/
def QuotedList (items : List String) (text : List UInt8) : Prop :=
  ∃ inside, Series Quoted true items inside ∧ text = 91 :: (inside ++ [93])

/-- A member of an object, with the text of its value: a key in any spelling, a colon and the value. -/
inductive Keyed : String × List UInt8 → List UInt8 → Prop
  | mk {key : String} {spelling before after value : List UInt8} (hkey : Spelled key.toList spelling)
      (hbefore : Blank before) (hafter : Blank after) :
      Keyed (key, value) (34 :: (spelling ++ 34 :: (before ++ 58 :: (after ++ value))))

/-- After a value in a list or an object there is a comma or the end. -/
theorem Written.delimited {frame : Frame} {text rest : List UInt8} (h : Written (.inside frame false) text)
    (hrest : Delimited rest) : Delimited (text ++ rest) := by
  cases h with
  | nil hblank => exact hrest.append hblank
  | cons hgap =>
    cases hgap with
    | comma hbefore =>
      rw [List.append_assoc, List.append_assoc]
      exact (Delimited.cons rfl).append hbefore

end Concordance.Json
