import Concordance.Proofs.Json.Typed

/-! Readers of one type on texts of any. Where the value is of another type, or out of range, they fail; but where they
    succeed, they have read the whole value and nothing after it. -/

namespace Concordance.Json

namespace Written

variable {b : UInt8} {text : List UInt8}

/-- The first byte of a value tells what it is. -/
theorem head_cases (h : Written .value (b :: text)) :
    (b = 34 → ∃ inside, text = inside ++ [34] ∧ Inside inside) ∧
    (b = 91 → ∃ inside, text = inside ++ [93] ∧ Written (.inside .list true) inside) ∧
    (b = 116 → text = Reader.ascii "rue") ∧ (b = 102 → text = Reader.ascii "alse") ∧
    (b = 45 → Unsigned text) ∧ (Reader.isDigit b = true → Unsigned (b :: text)) := by
  generalize hbytes : b :: text = bytes at h
  cases h with
  | word h =>
    have hword : b = 110 ∨ b = 116 ∧ text = Reader.ascii "rue" ∨ b = 102 ∧ text = Reader.ascii "alse" := by
      rcases h with h | h | h
      · exact Or.inl (List.cons.inj (hbytes.trans h)).1
      · exact Or.inr (Or.inl (List.cons.inj (hbytes.trans h)))
      · exact Or.inr (Or.inr (List.cons.inj (hbytes.trans h)))
    rcases hword with rfl | ⟨rfl, h⟩ | ⟨rfl, h⟩
    · simp [Reader.isDigit]
    · simp [Reader.isDigit, h]
    · simp [Reader.isDigit, h]
  | unsigned h =>
    obtain ⟨d, ds, rfl, hd⟩ := h.exists_cons
    obtain ⟨rfl, rfl⟩ := List.cons.inj hbytes
    refine ⟨?_, ?_, ?_, ?_, ?_, fun _ => h⟩
    all_goals
      rintro rfl
      cases hd
  | negative h =>
    obtain ⟨rfl, rfl⟩ := List.cons.inj hbytes
    simp [Reader.isDigit, h]
  | string h =>
    obtain ⟨rfl, rfl⟩ := List.cons.inj hbytes
    simp [Reader.isDigit, h]
  | @bracketed frame inside h =>
    obtain ⟨rfl, rfl⟩ := List.cons.inj hbytes
    cases frame with
    | list => simp [Reader.isDigit, Reader.Frame.opener, Reader.Frame.closer, h]
    | object => simp [Reader.isDigit, Reader.Frame.opener]

end Written

namespace Reader

variable {α β : Type} {r : Reader α} {f : α → Reader β} {a : α} {b : β} {text rest left : List UInt8}

/-! ### Success -/

theorem exists_of_bind (h : (r >>= f) text = .ok b left) : ∃ a mid, r text = .ok a mid ∧ f a mid = .ok b left := by
  replace h : EStateM.bind r f text = .ok b left := h
  rw [EStateM.bind] at h
  split at h
  next a mid hr => exact ⟨a, mid, hr, h⟩
  next => cases h

theorem exists_of_map {g : α → β} (h : (g <$> r) text = .ok b left) : ∃ a, r text = .ok a left ∧ g a = b := by
  replace h : EStateM.map g r text = .ok b left := h
  rw [EStateM.map] at h
  split at h
  next a rest hr =>
    cases h
    exact ⟨a, hr, rfl⟩
  next => cases h

theorem ok_of_placed (h : placed r text = .ok a left) : r text = .ok a left := by
  unfold placed at h
  split at h
  next hr => exact hr.trans h
  next => cases h

theorem exists_of_closing {stop : Reader Unit} (h : closing r stop text = .ok a left) :
    ∃ mid, r text = .ok a mid ∧ stop mid = .ok () left := by
  unfold closing at h
  split at h
  next a' mid hr =>
    split at h
    next rest hstop =>
      cases h
      exact ⟨mid, hr, hstop⟩
    next => cases h
  next => split at h <;> cases h

theorem wrongType_ne_ok (expected : String) : wrongType expected text ≠ .ok a left := by
  intro h
  have h := ok_of_placed h
  obtain ⟨next, mid, -, h⟩ := exists_of_bind h
  cases next with
  | none => cases h
  | some c =>
    dsimp only at h
    repeat' split at h
    -- Whatever is read, in the end it is rejected.
    all_goals
      repeat
        obtain ⟨_, _, -, h⟩ := exists_of_bind h
      cases h

/-! ### Numbers -/

variable {positive : Bool} {significand : Nat} {before : Int} {n : Number}

theorem floating_left (h : floating positive significand before rest = .ok n left) : left = rest := by
  unfold floating at h
  generalize scaled _ _ _ = value at h
  cases value with
  | none => cases h
  | some =>
    cases h
    rfl

/-- The digits of an exponent after its sign, and what is made of the number then. -/
def exponentDigits (positive : Bool) (significand : Nat) (before : Int) (sign : Option UInt8) : Reader Number := do
  let rest ← get
  let ds ← digits
  match gatherExponent 0 ds with
  | some e => floating positive significand (if sign = some 45 then before - e else before + e)
  | none =>
    if significand ≠ 0 ∧ sign ≠ some 45 then
      set (rest.drop (exponentReach 0 ds))
      failHere .numberOutOfRange
    else pure (.float (if positive then 0.0 else -0.0))

theorem exponentDigits_left {sign : Option UInt8} {ds : List UInt8} (hds : Digits ds) (hrest : Delimited rest)
    (h : exponentDigits positive significand before sign (ds ++ rest) = .ok n left) : left = rest := by
  unfold exponentDigits at h
  obtain ⟨_, _, hget, h⟩ := exists_of_bind h
  cases hget
  rw [bind_ok (digits_append hds.2 hrest)] at h
  generalize gatherExponent _ _ = exponent at h
  cases exponent with
  | some => exact floating_left h
  | none =>
    dsimp only at h
    split at h
    next =>
      obtain ⟨_, _, -, h⟩ := exists_of_bind h
      cases h
    next =>
      cases h
      rfl

theorem exponentPart_left {e : UInt8} {sign ds : List UInt8} (hsign : sign = [] ∨ sign = [43] ∨ sign = [45])
    (hds : Digits ds) (hrest : Delimited rest)
    (h : exponentPart positive significand before (e :: (sign ++ ds) ++ rest) = .ok n left) : left = rest := by
  obtain ⟨d, ds', rfl⟩ := List.exists_cons_of_ne_nil hds.1
  have hd : isDigit d = true := hds.2 d List.mem_cons_self
  rw [exponentPart, List.cons_append, pass_bind, List.tail_cons] at h
  rcases hsign with rfl | rfl | rfl
  · rw [List.nil_append, peek_bind, List.cons_append, List.head?_cons] at h
    dsimp only at h
    rw [if_neg (ne_sign_of_isDigit hd), peek_bind, List.head?_cons] at h
    dsimp only at h
    rw [hd, if_neg (by decide)] at h
    exact exponentDigits_left hds hrest h
  all_goals
    rw [List.singleton_append, List.cons_append, peek_bind, List.head?_cons] at h
    dsimp only at h
    rw [if_pos (by decide), pass_bind, List.tail_cons, peek_bind, List.cons_append, List.head?_cons] at h
    dsimp only at h
    rw [hd, if_neg (by decide)] at h
    exact exponentDigits_left hds hrest h

/-- What may end a number, read from there on, or what is made of the digits alone. -/
theorem power_left {power : List UInt8} {alone : Reader Number} (hpower : Exponent power) (hrest : Delimited rest)
    (halone : alone rest = .ok n left → left = rest)
    (h : (if isExponentMark (power ++ rest).head? then exponentPart positive significand before else alone)
      (power ++ rest) = .ok n left) : left = rest := by
  cases hpower with
  | none =>
    rw [List.nil_append, hrest.head?.2.2, if_neg Bool.false_ne_true] at h
    exact halone h
  | @mark e sign ds he hsign hds =>
    rw [if_pos (by rcases he with rfl | rfl <;> rfl)] at h
    exact exponentPart_left hsign hds hrest h

theorem fraction_left {ds power : List UInt8} (hds : Digits ds) (hpower : Exponent power) (hrest : Delimited rest)
    (h : fraction positive significand before (46 :: ds ++ (power ++ rest)) = .ok n left) : left = rest := by
  rw [fraction, List.cons_append, pass_bind, List.tail_cons, bind_ok (digits_stop hds.2 (hpower.head? hrest).1),
    if_neg (by simpa using hds.1)] at h
  exact power_left hpower hrest floating_left h

theorem number_left (htext : Unsigned text) (hrest : Delimited rest)
    (h : number positive (text ++ rest) = .ok n left) : left = rest := by
  cases htext with
  | @mk whole part power hwhole hpart hpower =>
    obtain ⟨d, ds, rfl, hds, hzero⟩ : ∃ d ds, whole = d :: ds ∧ (∀ b ∈ d :: ds, isDigit b = true) ∧
        (d = 48 → ds = []) := by
      cases hwhole with
      | zero => exact ⟨48, [], rfl, List.forall_mem_singleton.mpr rfl, fun _ => rfl⟩
      | @digits d ds hd hne hds => exact ⟨d, ds, rfl, List.forall_mem_cons.mpr ⟨hd, hds⟩, fun h => absurd h hne⟩
    have hhead : (part ++ (power ++ rest)).head?.any isDigit = false := hpart.head? hpower hrest
    rw [number, List.append_assoc, List.append_assoc, List.cons_append, peek_bind, List.head?_cons] at h
    dsimp only at h
    rw [hds d List.mem_cons_self, if_neg (by decide), bind_ok (integerDigits_cons hds hhead hzero), peek_bind, hhead,
      Bool.and_false, if_neg Bool.false_ne_true, peek_bind] at h
    cases hpart with
    | none =>
      rw [List.nil_append, if_neg (hpower.head? hrest).2] at h
      refine power_left hpower hrest (fun h => ?_) h
      split at h
      next =>
        cases h
        rfl
      next => exact floating_left h
    | @point ds hds =>
      rw [if_pos (by rfl)] at h
      exact fraction_left hds hpower hrest h

/-! ### Strings -/

theorem eq_of_pairMark {b c : UInt8} {u : Unit} (h : pairMark b (c :: rest) = .ok u left) : c = b ∧ left = rest := by
  rw [pairMark, take_bind, List.head?_cons, List.tail_cons] at h
  dsimp only at h
  split at h
  next hc =>
    cases h
    exact ⟨hc, rfl⟩
  next => cases h

/-- The number of a high surrogate goes on with another number, which is inside the string, too. -/
theorem exists_of_unicodeEscape {n : Nat} {digits bytes : List UInt8} (hdigits : HexDigits n digits) (h : Inside text)
    (hread : unicodeEscape (digits ++ (text ++ 34 :: rest)) = .ok bytes left) :
    ∃ text', Inside text' ∧ left = text' ++ 34 :: rest := by
  rw [unicodeEscape, bind_ok (hexEscape_append hdigits)] at hread
  split at hread
  next => cases hread
  split at hread
  next =>
    cases hread
    exact ⟨text, h, rfl⟩
  -- It was a high surrogate, and only a backslash and a `u` are read after it.
  obtain ⟨_, mid, hmark, hread⟩ := exists_of_bind hread
  obtain ⟨_, mid', hmark', hread⟩ := exists_of_bind hread
  cases h with
  | nil => exact absurd (eq_of_pairMark hmark).1 (by decide)
  | byte hquote hescape => exact absurd (eq_of_pairMark hmark).1 hescape
  | @letter b text hb h =>
    obtain ⟨-, rfl⟩ := eq_of_pairMark hmark
    obtain ⟨rfl, -⟩ := eq_of_pairMark hmark'
    cases hb
  | @number n digits text hdigits h =>
    rw [List.cons_append, List.cons_append, List.append_assoc] at hmark
    obtain ⟨-, rfl⟩ := eq_of_pairMark hmark
    obtain ⟨-, rfl⟩ := eq_of_pairMark hmark'
    rw [bind_ok (hexEscape_append hdigits)] at hread
    split at hread
    next => cases hread
    next => exact ⟨text, h, (EStateM.Result.ok.inj hread).2.symm⟩

theorem pieces_left {fuel : Nat} {before bytes : List UInt8} (h : Inside text)
    (hread : pieces fuel before (text ++ 34 :: rest) = .ok bytes left) : left = 34 :: rest := by
  -- Not by induction on the text: two of its escapes may be one piece.
  induction fuel generalizing text before with
  | zero => cases hread
  | succ fuel ih =>
    rw [pieces] at hread
    cases h with
    | nil =>
      cases hread
      rfl
    | byte hquote hescape hge h =>
      rw [List.cons_append, bind_ok (piece_byte hquote hescape hge)] at hread
      exact ih h hread
    | letter hb h =>
      obtain ⟨x, hx⟩ := Option.isSome_iff_exists.mp hb
      rw [List.cons_append, List.cons_append, bind_ok (piece_escape.trans (map_ok some (escape_letter hx)))] at hread
      exact ih h hread
    | @number n digits text hdigits h =>
      rw [List.cons_append, List.cons_append, List.append_assoc] at hread
      obtain ⟨_, mid, hpiece, hread⟩ := exists_of_bind hread
      obtain ⟨bytes, hescape, rfl⟩ := exists_of_map (piece_escape.symm.trans hpiece)
      obtain ⟨text', h', rfl⟩ := exists_of_unicodeEscape hdigits h (escape_number.symm.trans hescape)
      exact ih h' hread

theorem quoted_left {s : String} (h : Inside text) (hread : quoted (text ++ 34 :: rest) = .ok s left) :
    left = rest := by
  rw [quoted, left_bind] at hread
  obtain ⟨bytes, mid, hpieces, hread⟩ := exists_of_bind hread
  obtain rfl := pieces_left h hpieces
  generalize String.fromUTF8? _ = decoded at hread
  cases decoded with
  | none => cases hread
  | some s =>
    cases hread
    rfl

end Reader

/-- Where the reader succeeds on the text of a value, it stops right after it. -/
def Exact {α : Type} (r : Reader α) : Prop :=
  ∀ ⦃blank text rest left : List UInt8⦄ ⦃a : α⦄, Blank blank → Written .value text → Delimited rest →
    r (blank ++ (text ++ rest)) = .ok a left → left = rest

namespace Exact

variable {α β : Type} {r : Reader α}

theorem map (h : Exact r) (g : α → β) : Exact (g <$> r) := by
  intro blank text rest left b hblank htext hrest hread
  obtain ⟨a, hread, -⟩ := Reader.exists_of_map hread
  exact h hblank htext hrest hread

/-- A reader that goes by the first byte of the value. -/
theorem of_head {f : Option UInt8 → Reader α} (h : ∀ ⦃b : UInt8⦄ ⦃text rest left : List UInt8⦄ ⦃a : α⦄,
    Written .value (b :: text) → Delimited rest → f (some b) (b :: (text ++ rest)) = .ok a left → left = rest) :
    Exact (Reader.placed (Reader.blanks >>= f)) := by
  intro blank text rest left a hblank htext hrest hread
  obtain ⟨b, text, rfl, hb⟩ := htext.solid
  have hhead := Reader.ok_of_placed hread
  rw [List.cons_append, Reader.blanks_bind hblank (isBlank_of_isDelimiter hb)] at hhead
  exact h htext hrest hhead

/-- What is made of a number where a natural number is expected. -/
def taken (expected : String) (accept : UInt64 → Option α) (n : Number) : Reader α :=
  match n with
  | .natural v => match accept v with
    | some a => pure a
    | none => Reader.reject (.invalidValue n.found expected)
  | .negative _ => Reader.reject (.invalidValue n.found expected)
  | .float _ => Reader.reject (.invalidType n.found expected)

theorem taken_left {expected : String} {accept : UInt64 → Option α} {n : Number} {rest left : List UInt8} {a : α}
    (h : taken expected accept n rest = .ok a left) : left = rest := by
  cases n with
  | negative | float => cases h
  | natural v =>
    dsimp only [taken] at h
    generalize accept v = accepted at h
    cases accepted with
    | none => cases h
    | some =>
      cases h
      rfl

theorem natural (expected : String) (accept : UInt64 → Option α) : Exact (Reader.natural expected accept) := by
  refine of_head fun b text rest left a htext hrest h => ?_
  obtain ⟨-, -, -, -, hminus, hdigit⟩ := htext.head_cases
  dsimp only at h
  split at h
  next hb =>
    rw [Reader.pass_bind, List.tail_cons] at h
    obtain ⟨n, mid, hn, h⟩ := Reader.exists_of_bind h
    exact (taken_left h).trans (Reader.number_left (hminus hb) hrest hn)
  split at h
  next hb =>
    obtain ⟨n, mid, hn, h⟩ := Reader.exists_of_bind h
    exact (taken_left h).trans (Reader.number_left (hdigit hb) hrest hn)
  next => exact absurd h (Reader.wrongType_ne_ok expected)

theorem boolean : Exact Reader.boolean := by
  refine of_head fun b text rest left a htext hrest h => ?_
  obtain ⟨-, -, htrue, hfalse, -⟩ := htext.head_cases
  dsimp only at h
  split at h
  next hb =>
    rw [Reader.pass_bind, List.tail_cons, htrue hb, Reader.bind_ok (Reader.word_append _)] at h
    cases h
    rfl
  split at h
  next hb =>
    rw [Reader.pass_bind, List.tail_cons, hfalse hb, Reader.bind_ok (Reader.word_append _)] at h
    cases h
    rfl
  next => exact absurd h (Reader.wrongType_ne_ok _)

theorem stringAs (expected : String) (accept : String → Except Cause α) :
    Exact (Reader.stringAs expected accept) := by
  refine of_head fun b text rest left a htext hrest h => ?_
  obtain ⟨hstring, -⟩ := htext.head_cases
  dsimp only at h
  split at h
  next hb =>
    obtain ⟨inside, rfl, hinside⟩ := hstring hb
    rw [Reader.pass_bind, List.tail_cons, List.append_assoc, List.singleton_append] at h
    obtain ⟨s, mid, hs, h⟩ := Reader.exists_of_bind h
    refine Eq.trans ?_ (Reader.quoted_left hinside hs)
    generalize accept s = accepted at h
    cases accepted with
    | error => cases h
    | ok =>
      cases h
      rfl
  next => exact absurd h (Reader.wrongType_ne_ok expected)

theorem items {item : Reader α} (hitem : Exact item) {fuel : Nat} {first : Bool} {before as : List α}
    {text rest left : List UInt8} (hfirst : before.isEmpty = first) (htext : Written (.inside .list first) text)
    (h : Reader.items item fuel before (text ++ 93 :: rest) = .ok as left) : left = 93 :: rest := by
  induction fuel generalizing first before text with
  | zero => cases h
  | succ fuel ih =>
    rw [Reader.items, hfirst] at h
    cases htext with
    | nil hblank =>
      rw [Reader.bind_ok (Reader.hasItem_end _ hblank), if_neg Bool.false_ne_true] at h
      cases h
      rfl
    | @cons _ _ gap label text texts hgap hlabel hvalue hrest =>
      cases hlabel
      obtain ⟨b, bs, rfl, hb⟩ := hvalue.solid
      simp only [List.nil_append, List.append_assoc, List.cons_append] at h
      rw [Reader.bind_ok (Reader.hasItem_gap hgap hb), if_pos rfl] at h
      obtain ⟨a, mid, ha, h⟩ := Reader.exists_of_bind h
      have hend : Delimited (texts ++ 93 :: rest) := hrest.delimited (.cons rfl)
      obtain rfl : mid = texts ++ 93 :: rest := hitem .nil hvalue hend ha
      have hlater : (a :: before).isEmpty = false := rfl
      exact ih hlater hrest h

theorem list {item : Reader α} (hitem : Exact item) : Exact (Reader.list item) := by
  refine of_head fun b text rest left a htext hrest h => ?_
  obtain ⟨-, hlist, -⟩ := htext.head_cases
  dsimp only at h
  split at h
  next hb =>
    obtain ⟨inside, rfl, hinside⟩ := hlist hb
    rw [Reader.pass_bind, List.tail_cons, List.append_assoc, List.singleton_append] at h
    obtain ⟨mid, hitems, hend⟩ := Reader.exists_of_closing h
    rw [Reader.left_bind] at hitems
    have hfirst : ([] : List α).isEmpty = true := rfl
    obtain rfl := items hitem hfirst hinside hitems
    cases hend
    rfl
  next => exact absurd h (Reader.wrongType_ne_ok _)

end Exact

/-! ### Records -/

theorem Reader.exists_of_readBytes {α : Type} {r : Reader α} {a : α} {bytes : List UInt8}
    (h : r.readBytes bytes = .ok a) : ∃ left, r bytes = .ok a left := by
  unfold readBytes at h
  split at h
  next b left hread =>
    cases h
    obtain ⟨b, mid, hr, hend⟩ := exists_of_bind hread
    obtain ⟨_, _, -, hend⟩ := exists_of_bind hend
    cases hend
    exact ⟨mid, hr⟩
  next => cases h

namespace RecordForm

variable {α : Type} {form : RecordForm α} {entries : List (String × List UInt8)} {text rest : List UInt8}

/-- Where members are read to the end, none of the form's fields is there twice. -/
theorem nodup_of_readMembers (hexact : ∀ field ∈ form.fields, Exact field.read) {fuel : Nat} {first : Bool}
    {seen : List String} {a result : α} {left : List UInt8} (hseries : Series Keyed first entries text)
    (hvalues : ∀ entry ∈ entries, Written .value entry.2)
    (h : form.readMembers fuel first seen a (text ++ 125 :: rest) = .ok result left) :
    (form.known entries).Nodup ∧ ∀ name ∈ form.known entries, name ∉ seen := by
  induction hseries generalizing fuel seen a with
  | nil => exact ⟨.nil, nofun⟩
  | @cons first entry entries gap text texts hgap hmember hseries ih =>
    cases fuel with
    | zero => cases h
    | succ fuel =>
      cases hmember with
      | @mk key spelling before after value hkey hbefore hafter =>
        obtain ⟨hvalue, hothers⟩ := List.forall_mem_cons.mp hvalues
        have hend : Delimited (texts ++ 125 :: rest) := hseries.delimited (.cons rfl)
        rw [readMembers] at h
        simp only [List.append_assoc, List.cons_append] at h
        rw [Reader.bind_ok (hasMember_gap hgap), if_pos rfl, Reader.pass_bind, List.tail_cons,
          Reader.bind_ok (Reader.quoted_spelled hkey)] at h
        cases hfield : form.fields.find? (fun f => f.name = key) with
        | none =>
          simp only [hfield] at h
          rw [Reader.bind_ok (colon_append hbefore), Reader.bind_ok (takes_skip hvalue hafter hend)] at h
          rw [known_cons_of_none hfield]
          exact ih hothers h
        | some field =>
          simp only [hfield] at h
          split at h
          next => cases h
          next hunseen =>
            rw [Reader.bind_ok (colon_append hbefore)] at h
            -- The value may be any, but the reading goes on right after it.
            obtain ⟨set, mid, hset, h⟩ := Reader.exists_of_bind h
            obtain rfl := hexact field (List.mem_of_find?_eq_some hfield) hafter hvalue hend hset
            obtain ⟨hnodup, hfresh⟩ := ih hothers h
            rw [known_cons_of_field hfield]
            refine ⟨List.nodup_cons.mpr ⟨fun hmem => hfresh key hmem List.mem_cons_self, hnodup⟩,
              List.forall_mem_cons.mpr ⟨mt List.contains_iff_mem.mpr hunseen, fun name hname hmem => ?_⟩⟩
            exact hfresh name hname (List.mem_cons_of_mem key hmem)

/-- An object that has a field twice is not read, whatever its values. -/
theorem exists_error_of_twice (hexact : ∀ field ∈ form.fields, Exact field.read)
    (hseries : Series Keyed true entries text) (hvalues : ∀ entry ∈ entries, Written .value entry.2)
    (htwice : ¬(form.known entries).Nodup) {before : List UInt8} (hbefore : Blank before) (after : List UInt8) :
    ∃ e, form.reader.readBytes (before ++ (123 :: (text ++ [125]) ++ after)) = .error e := by
  cases hread : form.reader.readBytes (before ++ (123 :: (text ++ [125]) ++ after)) with
  | error e => exact ⟨e, rfl⟩
  | ok a =>
    obtain ⟨left, hread⟩ := Reader.exists_of_readBytes hread
    have hobject := Reader.ok_of_placed hread
    rw [List.cons_append, List.append_assoc, List.singleton_append, Reader.blanks_bind hbefore rfl] at hobject
    dsimp only at hobject
    rw [if_neg (by decide), if_pos rfl, Reader.pass_bind, List.tail_cons] at hobject
    obtain ⟨mid, hmembers, -⟩ := Reader.exists_of_closing hobject
    rw [Reader.left_bind] at hmembers
    exact absurd (nodup_of_readMembers hexact hseries hvalues hmembers).1 htwice

end RecordForm

end Concordance.Json
