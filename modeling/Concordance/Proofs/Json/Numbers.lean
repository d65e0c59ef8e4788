import Concordance.Proofs.Json.Reader

/-! Numbers as they are written are read back. What comes after a number must not look like more of it. -/

namespace Concordance.Json

/-- The bytes that can stand after a value: white space, commas and closing brackets. -/
def isDelimiter (b : UInt8) : Bool := Reader.isBlank b || b = 44 || b = 93 || b = 125

/-- A text before which a value can end. -/
def Delimited (text : List UInt8) : Prop := ∀ b ∈ text.head?, isDelimiter b = true

theorem isDelimiter_iff {b : UInt8} :
    isDelimiter b = true ↔ b = 32 ∨ b = 10 ∨ b = 9 ∨ b = 13 ∨ b = 44 ∨ b = 93 ∨ b = 125 := by
  simp only [isDelimiter, Reader.isBlank, Bool.or_eq_true, decide_eq_true_eq, or_assoc]

theorem isBlank_of_isDelimiter {b : UInt8} (h : isDelimiter b = false) : Reader.isBlank b = false := by
  simp only [isDelimiter, Bool.or_eq_false_iff] at h
  exact h.1.1.1

theorem isDelimiter_of_isDigit {b : UInt8} (h : Reader.isDigit b = true) : isDelimiter b = false := by
  refine Bool.eq_false_iff.mpr fun hb => ?_
  rcases isDelimiter_iff.mp hb with rfl | rfl | rfl | rfl | rfl | rfl | rfl <;> cases h

namespace Delimited

variable {text blank : List UInt8} {b : UInt8}

theorem nil : Delimited [] := nofun

theorem cons (h : isDelimiter b = true) : Delimited (b :: text) := by
  intro c hc
  obtain rfl := Option.some.inj hc
  exact h

theorem append (hblank : Blank blank) (h : Delimited text) : Delimited (blank ++ text) := by
  cases blank with
  | nil => exact h
  | cons b blank =>
    have hb : Reader.isBlank b = true := hblank b List.mem_cons_self
    exact cons (by rw [isDelimiter, hb]; rfl)

/-- Nothing that would go on with a number comes next. -/
theorem head? (h : Delimited text) : text.head?.any Reader.isDigit = false ∧ text.head? ≠ some 46 ∧
    Reader.isExponentMark text.head? = false := by
  cases text with
  | nil => exact ⟨rfl, nofun, rfl⟩
  | cons b text =>
    have hb := isDelimiter_iff.mp (h b rfl)
    rcases hb with rfl | rfl | rfl | rfl | rfl | rfl | rfl <;> exact ⟨rfl, by simp, rfl⟩

end Delimited

/-! ### Digits -/

theorem isDigit_iff {c : Char} : c.isDigit = true ↔ 48 ≤ c.toNat ∧ c.toNat ≤ 57 := by
  rw [Char.isDigit, Bool.and_eq_true, decide_eq_true_eq, decide_eq_true_eq]
  exact Iff.rfl

theorem toNat_toUInt8_of_isDigit {c : Char} (h : c.isDigit = true) : c.toUInt8.toNat = c.toNat := by
  obtain ⟨-, hle⟩ := isDigit_iff.mp h
  exact Nat.mod_eq_of_lt (Nat.lt_of_le_of_lt hle (by decide))

theorem isDigit_toUInt8 {c : Char} (h : c.isDigit = true) : Reader.isDigit c.toUInt8 = true := by
  obtain ⟨hge, hle⟩ := isDigit_iff.mp h
  simp only [Reader.isDigit, Bool.and_eq_true, decide_eq_true_eq, UInt8.le_iff_toNat_le, toNat_toUInt8_of_isDigit h]
  exact ⟨hge, hle⟩

theorem digitValue_toUInt8 {c : Char} (h : c.isDigit = true) : Reader.digitValue c.toUInt8 = c.toNat - '0'.toNat := by
  have hle : (48 : UInt8) ≤ c.toUInt8 := by
    rw [UInt8.le_iff_toNat_le, toNat_toUInt8_of_isDigit h]
    exact (isDigit_iff.mp h).1
  rw [Reader.digitValue, UInt8.toNat_sub_of_le _ _ hle, toNat_toUInt8_of_isDigit h]
  rfl

theorem exists_toDigits_eq_cons {n : Nat} (hn : n ≠ 0) : ∃ c cs, Nat.toDigits 10 n = c :: cs ∧ c ≠ '0' := by
  induction n using Nat.strongRecOn with
  | _ n ih =>
    rw [Nat.toDigits_eq_if (by decide)]
    split
    next hlt => exact ⟨_, _, rfl, mt Nat.digitChar_eq_zero.mp hn⟩
    next hle =>
      obtain ⟨c, cs, heq, hc⟩ := ih (n / 10) (by omega) (by omega)
      exact ⟨c, cs ++ [Nat.digitChar (n % 10)], by rw [heq, List.cons_append], hc⟩

theorem le_ofDigitChars (cs : List Char) (n : Nat) : n ≤ Nat.ofDigitChars 10 cs n := by
  rw [Nat.ofDigitChars_eq_ofDigitChars_zero]
  exact Nat.le_trans (Nat.le_mul_of_pos_left n (Nat.pow_pos (Nat.succ_pos 9))) (Nat.le_add_right _ _)

/-! ### Numbers as they are written -/

variable {n : Nat}

theorem isDigit_of_mem_toDigits : ∀ c ∈ Nat.toDigits 10 n, c.isDigit = true :=
  fun _ hc => Nat.isDigit_of_mem_toDigits (by decide) (by decide) hc

theorem utf8_repr (n : Nat) : utf8 n.repr.toList = (Nat.toDigits 10 n).map Char.toUInt8 := by
  rw [Nat.toList_repr]
  refine utf8_of_ascii fun c hc => ?_
  exact Nat.lt_of_le_of_lt (isDigit_iff.mp (isDigit_of_mem_toDigits c hc)).2 (by decide)

theorem utf8_repr_ne_nil (n : Nat) : utf8 n.repr.toList ≠ [] := by
  rw [utf8_repr]
  exact mt List.map_eq_nil_iff.mp Nat.toDigits_ne_nil

theorem isDigit_of_mem_utf8_repr {b : UInt8} (h : b ∈ utf8 n.repr.toList) : Reader.isDigit b = true := by
  rw [utf8_repr] at h
  obtain ⟨c, hc, rfl⟩ := List.mem_map.mp h
  exact isDigit_toUInt8 (isDigit_of_mem_toDigits c hc)

/-- A zero is the first digit of zero only. -/
theorem eq_nil_of_utf8_repr {bs : List UInt8} (h : utf8 n.repr.toList = 48 :: bs) : bs = [] := by
  rw [utf8_repr] at h
  by_cases hn : n = 0
  · subst hn
    exact (List.cons.inj h).2.symm
  · obtain ⟨c, cs, heq, hc⟩ := exists_toDigits_eq_cons hn
    have hdigit := isDigit_of_mem_toDigits c (heq ▸ List.mem_cons_self)
    rw [heq, List.map_cons, List.cons.injEq] at h
    have hnat : c.toNat = 48 := (toNat_toUInt8_of_isDigit hdigit).symm.trans (congrArg UInt8.toNat h.1)
    exact absurd (Char.toNat_inj.mp hnat) hc

namespace Reader

variable {rest : List UInt8} {cs : List Char} {n : Nat}

/-- Digits are passed up to where no digit comes next. -/
theorem digits_stop {ds : List UInt8} (hds : ∀ d ∈ ds, isDigit d = true) (hrest : rest.head?.any isDigit = false) :
    digits (ds ++ rest) = .ok ds rest := by
  have hhead : rest.takeWhile isDigit = [] ∧ rest.dropWhile isDigit = rest := by
    cases rest with
    | nil => exact ⟨rfl, rfl⟩
    | cons b rest =>
      have hb : isDigit b = false := hrest
      simp [hb]
  rw [digits, List.takeWhile_append_of_pos hds, List.dropWhile_append_of_pos hds, hhead.1, hhead.2, List.append_nil]

theorem digits_append {ds : List UInt8} (hds : ∀ d ∈ ds, isDigit d = true) (hrest : Delimited rest) :
    digits (ds ++ rest) = .ok ds rest := digits_stop hds hrest.head?.1

theorem gather_digits (hcs : ∀ c ∈ cs, c.isDigit = true) (hlt : Nat.ofDigitChars 10 cs n < 0x10000000000000000) :
    gather n (cs.map Char.toUInt8) = (Nat.ofDigitChars 10 cs n, 0) := by
  induction cs generalizing n with
  | nil => rfl
  | cons c cs ih =>
    obtain ⟨hc, hcs⟩ := List.forall_mem_cons.mp hcs
    have hnext : n * 10 + digitValue c.toUInt8 = 10 * n + (c.toNat - '0'.toNat) := by
      rw [digitValue_toUInt8 hc, Nat.mul_comm]
    rw [Nat.ofDigitChars_cons] at hlt ⊢
    simp only [List.map_cons, gather, hnext]
    rw [if_pos (Nat.lt_of_le_of_lt (le_ofDigitChars cs _) hlt), ih hcs hlt]

theorem integerDigits_cons {b : UInt8} {bs : List UInt8} (hdigits : ∀ d ∈ b :: bs, isDigit d = true)
    (hrest : rest.head?.any isDigit = false) (hzero : b = 48 → bs = []) :
    integerDigits b (b :: (bs ++ rest)) = .ok (b :: bs) rest := by
  unfold integerDigits
  split
  next h =>
    obtain rfl := hzero h
    rfl
  next => exact digits_stop hdigits hrest

/-- A natural number of at most 64 bits is read back. -/
theorem number_repr (hn : n < 0x10000000000000000) (hrest : Delimited rest) :
    number true (utf8 n.repr.toList ++ rest) = .ok (.natural n.toUInt64) rest := by
  have hdigits : ∀ b ∈ utf8 n.repr.toList, isDigit b = true := fun _ => isDigit_of_mem_utf8_repr
  have hzero : ∀ bs, utf8 n.repr.toList = 48 :: bs → bs = [] := fun _ => eq_nil_of_utf8_repr
  have hgather : gather 0 (utf8 n.repr.toList) = (n, 0) := by
    have hvalue := Nat.ofDigitChars_ten_toDigits (n := n)
    rw [utf8_repr, gather_digits isDigit_of_mem_toDigits (hvalue.symm ▸ hn), hvalue]
  obtain ⟨b, bs, hbytes⟩ := List.exists_cons_of_ne_nil (utf8_repr_ne_nil n)
  rw [hbytes] at hdigits hzero hgather ⊢
  rw [number, List.cons_append, peek_bind]
  dsimp only [List.head?_cons]
  rw [hdigits b List.mem_cons_self, if_neg (by decide),
    bind_ok (integerDigits_cons hdigits hrest.head?.1 fun h => hzero bs (congrArg (· :: bs) h)), peek_bind, hrest.head?.1,
    Bool.and_false, if_neg Bool.false_ne_true, hgather]
  dsimp only
  rw [peek_bind, if_neg hrest.head?.2.1, hrest.head?.2.2, if_neg Bool.false_ne_true, if_pos rfl]
  rfl

end Reader

end Concordance.Json
