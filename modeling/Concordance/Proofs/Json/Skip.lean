import Concordance.Proofs.Json.Grammar

/-! A value is skipped whole, and nothing after it. -/

namespace Concordance.Json

/-- The reader reads this off the text, and stops right after it. -/
def Takes {α : Type} (r : Reader α) (text : List UInt8) (a : α) : Prop :=
  ∀ ⦃blank rest : List UInt8⦄, Blank blank → Delimited rest → r (blank ++ (text ++ rest)) = .ok a rest

namespace Reader

variable {frame : Frame} {first : Bool} {blank text rest : List UInt8} {b : UInt8}

/-! ### Strings -/

theorem skipEscape_letter (hb : (letterEscape b).isSome = true) : skipEscape (b :: rest) = .ok () rest := by
  have hne : b ≠ 117 := by
    rintro rfl
    cases hb
  rw [skipEscape, take_bind]
  dsimp only [List.head?_cons, List.tail_cons]
  rw [if_neg hne, if_pos hb]
  rfl

theorem skipEscape_number {n : Nat} {digits : List UInt8} (h : HexDigits n digits) :
    skipEscape (117 :: (digits ++ rest)) = .ok () rest := by
  rw [skipEscape, take_bind]
  dsimp only [List.head?_cons, List.tail_cons]
  rw [if_pos rfl]
  exact map_ok _ (hexEscape_append h)

theorem skipString_inside (h : Inside text) {fuel : Nat} (hfuel : text.length < fuel) :
    skipString fuel (text ++ 34 :: rest) = .ok () rest := by
  induction h generalizing fuel with
  | nil =>
    obtain ⟨fuel, rfl⟩ := Nat.exists_eq_add_one.mpr hfuel
    rfl
  | @byte b text hquote hescape hge h ih =>
    obtain ⟨fuel, rfl⟩ := Nat.exists_eq_add_one.mpr (Nat.zero_lt_of_lt hfuel)
    rw [skipString, List.cons_append, peek_bind]
    dsimp only [List.head?_cons]
    rw [if_neg (UInt8.not_lt.mpr hge), pass_bind, if_neg hquote, if_neg hescape]
    exact ih (Nat.lt_of_succ_lt_succ hfuel)
  | @letter b text hb h ih =>
    obtain ⟨fuel, rfl⟩ := Nat.exists_eq_add_one.mpr (Nat.zero_lt_of_lt hfuel)
    rw [skipString, List.cons_append, peek_bind]
    dsimp only [List.head?_cons]
    rw [if_neg (by decide), pass_bind, if_neg (by decide), if_pos rfl, List.tail_cons, List.cons_append,
      bind_ok (skipEscape_letter hb)]
    exact ih (by simp only [List.length_cons] at hfuel; omega)
  | @number n digits text hdigits h ih =>
    obtain ⟨fuel, rfl⟩ := Nat.exists_eq_add_one.mpr (Nat.zero_lt_of_lt hfuel)
    rw [skipString, List.cons_append, peek_bind]
    dsimp only [List.head?_cons]
    rw [if_neg (by decide), pass_bind, if_neg (by decide), if_pos rfl, List.tail_cons, List.cons_append,
      List.append_assoc, bind_ok (skipEscape_number hdigits)]
    exact ih (by simp only [List.length_cons, List.length_append] at hfuel; omega)

/-! ### Numbers -/

/-- The rest of a number, skipped from its point on. -/
def skipFraction : Reader Unit := do
  if (← peek) = some 46 then
    pass
    if (← digits).isEmpty then failNext .invalidNumber
  let next ← peek
  if next = some 101 ∨ next = some 69 then skipExponent

theorem discard_digits {ds : List UInt8} (hds : ∀ d ∈ ds, isDigit d = true) (hrest : rest.head?.any isDigit = false) :
    discard digits (ds ++ rest) = .ok () rest := map_ok _ (digits_stop hds hrest)

theorem skipNumber_zero (hrest : rest.head?.any isDigit = false) : skipNumber (48 :: rest) = skipFraction rest := by
  rw [skipNumber, take_bind]
  dsimp only [List.head?_cons, List.tail_cons]
  rw [if_neg (by decide), if_pos rfl, peek_bind, hrest, if_neg Bool.false_ne_true]
  rfl

theorem skipNumber_digits {d : UInt8} {ds : List UInt8} (hd : isDigit d = true) (hne : d ≠ 48)
    (hds : ∀ d ∈ ds, isDigit d = true) (hrest : rest.head?.any isDigit = false) :
    skipNumber (d :: (ds ++ rest)) = skipFraction rest := by
  rw [skipNumber, take_bind]
  dsimp only [List.head?_cons, List.tail_cons]
  rw [hd, if_neg (by decide), if_neg hne, bind_ok (discard_digits hds hrest)]
  rfl

/-- The digits of an exponent, skipped. -/
def skipExponentDigits : Reader Unit := do
  match ← take with
  | none => failHere .invalidNumber
  | some b => if isDigit b then discard digits else failHere .invalidNumber

theorem skipExponentDigits_append {ds : List UInt8} (hds : Digits ds) (hrest : rest.head?.any isDigit = false) :
    skipExponentDigits (ds ++ rest) = .ok () rest := by
  obtain ⟨hne, hds⟩ := hds
  obtain ⟨d, ds, rfl⟩ := List.exists_cons_of_ne_nil hne
  obtain ⟨hd, hds⟩ := List.forall_mem_cons.mp hds
  rw [skipExponentDigits, take_bind, List.cons_append, List.head?_cons, List.tail_cons]
  dsimp only
  rw [if_pos hd, discard_digits hds hrest]

theorem skipExponent_mark {e : UInt8} {sign ds : List UInt8} (hsign : sign = [] ∨ sign = [43] ∨ sign = [45])
    (hds : Digits ds) (hrest : rest.head?.any isDigit = false) :
    skipExponent (e :: (sign ++ (ds ++ rest))) = .ok () rest := by
  obtain ⟨d, ds', rfl⟩ := List.exists_cons_of_ne_nil hds.1
  have hd : isDigit d = true := hds.2 d List.mem_cons_self
  rw [skipExponent, pass_bind, List.tail_cons]
  rcases hsign with rfl | rfl | rfl
  · rw [List.nil_append, peek_bind, List.cons_append, List.head?_cons]
    dsimp only
    rw [if_neg (ne_sign_of_isDigit hd)]
    exact skipExponentDigits_append hds hrest
  all_goals
    rw [List.singleton_append, peek_bind, List.head?_cons]
    dsimp only
    rw [if_pos (by decide), pass_bind]
    exact skipExponentDigits_append hds hrest

theorem skipFraction_append {part power : List UInt8} (hpart : Fraction part) (hpower : Exponent power)
    (hrest : Delimited rest) : skipFraction (part ++ (power ++ rest)) = .ok () rest := by
  have hafter : (peek >>= fun next => if next = some 101 ∨ next = some 69 then skipExponent else pure () : Reader Unit)
      (power ++ rest) = .ok () rest := by
    cases hpower with
    | none =>
      have hmark : ¬(rest.head? = some 101 ∨ rest.head? = some 69) := by
        simpa [isExponentMark] using hrest.head?.2.2
      rw [List.nil_append, peek_bind, if_neg hmark]
      rfl
    | @mark e sign ds he hsign hds =>
      rw [peek_bind, List.cons_append, List.head?_cons, if_pos (by simpa using he), List.append_assoc,
        skipExponent_mark hsign hds hrest.head?.1]
  cases hpart with
  | none =>
    rw [List.nil_append, skipFraction, peek_bind]
    dsimp only
    rw [if_neg (hpower.head? hrest).2]
    exact hafter
  | @point ds hds =>
    rw [skipFraction, peek_bind, List.cons_append, List.head?_cons]
    dsimp only
    rw [if_pos rfl, pass_bind, List.tail_cons, bind_ok (digits_stop hds.2 (hpower.head? hrest).1),
      if_neg (by simpa using hds.1)]
    exact hafter

theorem skipNumber_unsigned (h : Unsigned text) (hrest : Delimited rest) : skipNumber (text ++ rest) = .ok () rest := by
  cases h with
  | @mk whole part power hwhole hpart hpower =>
    have hhead : (part ++ (power ++ rest)).head?.any isDigit = false := hpart.head? hpower hrest
    rw [List.append_assoc, List.append_assoc, ← skipFraction_append hpart hpower hrest]
    cases hwhole with
    | zero => exact skipNumber_zero hhead
    | digits hd hne hds => exact skipNumber_digits hd hne hds hhead

/-! ### Values -/

theorem skipScalar_word {bytes : List UInt8} (h : bytes = ascii "null" ∨ bytes = ascii "true" ∨ bytes = ascii "false")
    (hblank : Blank blank) : skipScalar (blank ++ (bytes ++ rest)) = .ok none rest := by
  rcases h with rfl | rfl | rfl
  · show (blanks >>= _) (blank ++ 110 :: (ascii "ull" ++ rest)) = _
    rw [blanks_bind hblank rfl]
    dsimp only
    rw [if_pos rfl, pass_bind, List.tail_cons, bind_ok (word_append _)]
    rfl
  · show (blanks >>= _) (blank ++ 116 :: (ascii "rue" ++ rest)) = _
    rw [blanks_bind hblank rfl]
    dsimp only
    rw [if_neg (by decide), if_pos rfl, pass_bind, List.tail_cons, bind_ok (word_append _)]
    rfl
  · show (blanks >>= _) (blank ++ 102 :: (ascii "alse" ++ rest)) = _
    rw [blanks_bind hblank rfl]
    dsimp only
    rw [if_neg (by decide), if_neg (by decide), if_pos rfl, pass_bind, List.tail_cons, bind_ok (word_append _)]
    rfl

theorem skipScalar_unsigned (h : Unsigned text) (hblank : Blank blank) (hrest : Delimited rest) :
    skipScalar (blank ++ (text ++ rest)) = .ok none rest := by
  obtain ⟨d, ds, rfl, hd⟩ := h.exists_cons
  have hne : d ≠ 110 ∧ d ≠ 116 ∧ d ≠ 102 ∧ d ≠ 45 := by
    refine ⟨?_, ?_, ?_, ?_⟩
    all_goals
      rintro rfl
      cases hd
  rw [skipScalar, List.cons_append, blanks_bind hblank (isBlank_of_isDelimiter (isDelimiter_of_isDigit hd))]
  dsimp only
  rw [if_neg hne.1, if_neg hne.2.1, if_neg hne.2.2.1, if_neg hne.2.2.2, if_pos hd, ← List.cons_append,
    bind_ok (skipNumber_unsigned h hrest)]
  rfl

theorem skipScalar_negative (h : Unsigned text) (hblank : Blank blank) (hrest : Delimited rest) :
    skipScalar (blank ++ (45 :: text ++ rest)) = .ok none rest := by
  rw [skipScalar, List.cons_append, blanks_bind hblank rfl]
  dsimp only
  rw [if_neg (by decide), if_neg (by decide), if_neg (by decide), if_pos rfl, pass_bind, List.tail_cons,
    bind_ok (skipNumber_unsigned h hrest)]
  rfl

theorem skipScalar_string (h : Inside text) (hblank : Blank blank) :
    skipScalar (blank ++ (34 :: (text ++ [34]) ++ rest)) = .ok none rest := by
  rw [skipScalar, List.cons_append, blanks_bind hblank rfl]
  dsimp only
  rw [if_neg (by decide), if_neg (by decide), if_neg (by decide), if_neg (by decide), if_neg (by decide), if_pos rfl,
    pass_bind, List.tail_cons, left_bind, List.append_assoc, List.singleton_append,
    bind_ok (skipString_inside h (by rw [List.length_append]; omega))]
  rfl

theorem skipScalar_opener (hblank : Blank blank) :
    skipScalar (blank ++ frame.opener :: rest) = .ok (some frame) rest := by
  cases frame with
  | list | object =>
    rw [skipScalar, blanks_bind hblank rfl]
    rfl

/-- White space before a label is skipped with it, and white space after it may be left. -/
theorem skipLabel_append {label : List UInt8} (h : Label frame label) (hblank : Blank blank) :
    ∃ after, Blank after ∧ ∀ rest, skipLabel frame (blank ++ (label ++ rest)) = .ok () (after ++ rest) := by
  cases h with
  | none => exact ⟨blank, hblank, fun _ => rfl⟩
  | @key key before after hkey hbefore hafter =>
    refine ⟨after, hafter, fun rest => ?_⟩
    rw [skipLabel, skipKey, List.cons_append, blanks_bind hblank rfl]
    dsimp only
    rw [if_neg (by decide), pass_bind, List.tail_cons, left_bind, List.append_assoc, List.cons_append,
      List.append_assoc, List.cons_append, bind_ok (skipString_inside hkey (by rw [List.length_append]; omega)),
      blanks_bind hbefore rfl]
    rfl

/-! ### Nesting -/

/-- A value is skipped in so many steps, two for each of its bytes at most, and what stands between brackets in one more,
    from the opening bracket on or from after a value on. -/
def Skips : Part → List UInt8 → Prop
  | .value, text => ∃ n ≤ 2 * text.length, ∀ ⦃blank rest : List UInt8⦄ fuel frames, Blank blank → Delimited rest →
      skipWithin (fuel + n) frames (blank ++ (text ++ rest)) = skipAfter fuel frames rest
  | .inside frame true, text => ∃ n ≤ 2 * text.length + 1, ∀ ⦃blank rest : List UInt8⦄ fuel frames, Blank blank →
      skipWithin (fuel + n + 1) frames (blank ++ frame.opener :: (text ++ frame.closer :: rest)) =
        skipAfter fuel frames rest
  | .inside frame false, text => ∃ n ≤ 2 * text.length + 1, ∀ ⦃rest : List UInt8⦄ fuel frames,
      skipAfter (fuel + n) (frame :: frames) (text ++ frame.closer :: rest) = skipAfter fuel frames rest

theorem skips_scalar (hsolid : Solid text) (h : ∀ ⦃blank rest : List UInt8⦄, Blank blank → Delimited rest →
    skipScalar (blank ++ (text ++ rest)) = .ok none rest) : Skips .value text := by
  obtain ⟨b, bs, rfl, -⟩ := hsolid
  refine ⟨1, by rw [List.length_cons]; omega, fun blank rest fuel frames hblank hrest => ?_⟩
  rw [skipWithin, bind_ok (h hblank hrest)]

theorem isDelimiter_closer (frame : Frame) : isDelimiter frame.closer = true := by cases frame <;> rfl

theorem isBlank_closer (frame : Frame) : isBlank frame.closer = false := by cases frame <;> rfl

/-- A bracket that is opened and closed again. -/
theorem skips_inside_nil (frame : Frame) (first : Bool) (hblank : Blank blank) : Skips (.inside frame first) blank := by
  cases first with
  | true =>
    refine ⟨0, Nat.zero_le _, fun before rest fuel frames hbefore => ?_⟩
    rw [skipWithin, bind_ok (skipScalar_opener hbefore)]
    dsimp only
    rw [blanks_bind hblank (isBlank_closer frame)]
    dsimp only
    rw [if_pos rfl]
    rfl
  | false =>
    refine ⟨1, by omega, fun rest fuel frames => ?_⟩
    rw [skipAfter, blanks_bind hblank (isBlank_closer frame)]
    dsimp only
    rw [if_pos rfl]
    rfl

theorem skips_written {part : Part} (h : Written part text) : Skips part text := by
  induction h with
  | word h => exact skips_scalar (Written.word h).solid fun _ _ hblank _ => skipScalar_word h hblank
  | unsigned h => exact skips_scalar (Written.unsigned h).solid fun _ _ => skipScalar_unsigned h
  | negative h => exact skips_scalar (Written.negative h).solid fun _ _ => skipScalar_negative h
  | string h => exact skips_scalar (Written.string h).solid fun _ _ hblank _ => skipScalar_string h hblank
  | @bracketed frame text h ih =>
    obtain ⟨n, hn, hskip⟩ := ih
    refine ⟨n + 1, by simp only [List.length_cons, List.length_append]; omega, ?_⟩
    intro blank rest fuel frames hblank hrest
    rw [List.cons_append, List.append_assoc]
    exact hskip fuel frames hblank
  | nil h => exact skips_inside_nil _ _ h
  | @cons frame first gap label text texts hgap hlabel hvalue hrest ihvalue ihrest =>
    obtain ⟨n, hn, hvalueSkip⟩ := ihvalue
    obtain ⟨m, hm, hrestSkip⟩ := ihrest
    -- From the label on nothing depends on whether a bracket or a comma came before.
    have hinside {after : List UInt8} (hafter : Blank after) (rest : List UInt8) (fuel : Nat) (frames : List Frame) :
        (skipLabel frame >>= fun _ => skipWithin (fuel + m + n) (frame :: frames))
          (after ++ (label ++ (text ++ (texts ++ frame.closer :: rest)))) = skipAfter fuel frames rest := by
      obtain ⟨blank, hblank, hlabelSkip⟩ := skipLabel_append hlabel hafter
      have hend : Delimited (texts ++ frame.closer :: rest) := hrest.delimited (.cons (isDelimiter_closer frame))
      rw [bind_ok (hlabelSkip _), hvalueSkip _ _ hblank hend, hrestSkip]
    cases hgap with
    | @first before hbefore =>
      refine ⟨m + n, by simp only [List.length_append]; omega, fun blank rest fuel frames hblank => ?_⟩
      -- What comes next is not taken for the closing bracket of an empty list or object.
      obtain ⟨b, bs, hb, hsolid⟩ := (hlabel.solid hvalue.solid).append (texts ++ frame.closer :: rest)
      have hclose : b ≠ frame.closer := by
        rintro rfl
        rw [isDelimiter_closer] at hsolid
        cases hsolid
      have hskip := hinside .nil rest fuel frames
      rw [List.append_assoc] at hb
      rw [List.nil_append, hb] at hskip
      simp only [List.append_assoc]
      rw [hb, ← Nat.add_assoc, skipWithin, bind_ok (skipScalar_opener hblank)]
      dsimp only
      rw [blanks_bind hbefore (isBlank_of_isDelimiter hsolid)]
      dsimp only
      rw [if_neg hclose]
      exact hskip
    | @comma before after hbefore hafter =>
      refine ⟨m + n + 1, by simp only [List.length_append, List.length_cons]; omega, fun rest fuel frames => ?_⟩
      simp only [List.append_assoc, List.cons_append]
      rw [← Nat.add_assoc, ← Nat.add_assoc, skipAfter, blanks_bind hbefore rfl]
      dsimp only
      rw [if_neg (by cases frame <;> decide), if_pos rfl, pass_bind, List.tail_cons]
      exact hinside hafter rest fuel frames

end Reader

/-- A value of any shape and depth is skipped. -/
theorem takes_skip {text : List UInt8} (h : Written .value text) : Takes Reader.skip text () := by
  intro blank rest hblank hrest
  obtain ⟨n, hn, hskip⟩ := Reader.skips_written h
  have hfuel : 2 * (blank ++ (text ++ rest)).length + 2 =
      2 * (blank ++ (text ++ rest)).length + 2 - n + n := by
    simp only [List.length_append]
    omega
  rw [Reader.skip, Reader.left_bind, hfuel, hskip _ _ hblank hrest, Reader.skipAfter]
  rfl

end Concordance.Json
