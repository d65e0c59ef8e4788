import Mathlib.Data.List.Perm.Basic
import Mathlib.Data.List.TakeWhile
import Concordance.Proofs.Json.Skip

/-! Values of known types are read off every text of theirs, and so off every layout of their JSON values. For a list
    this takes its items to be read so, and for a record its fields. -/

namespace Concordance.Json

/-- The reader reads this off every layout of the value, and stops right after it. -/
def Reads {α : Type} (r : Reader α) (v : Value) (a : α) : Prop :=
  ∀ ⦃blank text rest : List UInt8⦄, Blank blank → Layout v text → Delimited rest →
    r (blank ++ (text ++ rest)) = .ok a rest

section

variable {α β : Type} {r : Reader α} {v : Value} {a : α} {text : List UInt8}

theorem Reads.takes (h : Reads r v a) (hlayout : Layout v text) : Takes r text a :=
  fun _ _ hblank hrest => h hblank hlayout hrest

theorem Reads.map (h : Reads r v a) (g : α → β) : Reads (g <$> r) v (g a) :=
  fun _ _ _ hblank hlayout hrest => Reader.map_ok g (h hblank hlayout hrest)

theorem Takes.map (h : Takes r text a) (g : α → β) : Takes (g <$> r) text (g a) :=
  fun _ _ hblank hrest => Reader.map_ok g (h hblank hrest)

/-! ### Numbers, truth values and strings -/

theorem Takes.natural {expected : String} {accept : UInt64 → Option α} {n : UInt64} (haccept : accept n = some a) :
    Takes (Reader.natural expected accept) (utf8 n.toNat.repr.toList) a := by
  intro blank rest hblank hrest
  obtain ⟨b, bs, hbytes⟩ := List.exists_cons_of_ne_nil (utf8_repr_ne_nil n.toNat)
  have hdigit : Reader.isDigit b = true := isDigit_of_mem_utf8_repr (hbytes ▸ List.mem_cons_self)
  have hb : Reader.isBlank b = false := isBlank_of_isDelimiter (isDelimiter_of_isDigit hdigit)
  have hnumber : Reader.number true (b :: (bs ++ rest)) = .ok (.natural n) rest := by
    have hrepr := Reader.number_repr n.toNat_lt hrest
    rwa [hbytes, show n.toNat.toUInt64 = n from UInt64.ofNat_toNat] at hrepr
  have hminus : b ≠ 45 := by
    rintro rfl
    cases hdigit
  rw [hbytes]
  refine Reader.placed_ok ?_
  rw [List.cons_append, Reader.blanks_bind hblank hb]
  dsimp only
  rw [if_neg hminus, if_pos hdigit, Reader.bind_ok hnumber]
  simp only [haccept]
  rfl

theorem Takes.boolean (b : Bool) : Takes Reader.boolean (utf8 (Value.bool b).scalar) b := by
  intro blank rest hblank hrest
  refine Reader.placed_ok ?_
  cases b with
  | true =>
    show (Reader.blanks >>= _) (blank ++ 116 :: (Reader.ascii "rue" ++ rest)) = _
    rw [Reader.blanks_bind hblank rfl]
    dsimp only
    rw [if_pos rfl, Reader.pass_bind, List.tail_cons, Reader.bind_ok (Reader.word_append _)]
    rfl
  | false =>
    show (Reader.blanks >>= _) (blank ++ 102 :: (Reader.ascii "alse" ++ rest)) = _
    rw [Reader.blanks_bind hblank rfl]
    dsimp only
    rw [if_neg (by decide), if_pos rfl, Reader.pass_bind, List.tail_cons, Reader.bind_ok (Reader.word_append _)]
    rfl

theorem Takes.stringAs {expected : String} {accept : String → Except Cause α} {s : String}
    (haccept : accept s = .ok a) (hs : Spelled s.toList text) :
    Takes (Reader.stringAs expected accept) (34 :: (text ++ [34])) a := by
  intro blank rest hblank hrest
  refine Reader.placed_ok ?_
  rw [List.cons_append, List.append_assoc, Reader.blanks_bind hblank rfl]
  dsimp only
  rw [if_pos rfl, Reader.pass_bind, List.tail_cons, List.singleton_append, Reader.bind_ok (Reader.quoted_spelled hs)]
  simp only [haccept]
  rfl

end

namespace Reads

variable {α β : Type} {r : Reader α} {v : Value} {a : α}

theorem natural {expected : String} {accept : UInt64 → Option α} {n : UInt64} (haccept : accept n = some a) :
    Reads (Reader.natural expected accept) (.number n.toNat) a := by
  intro blank text rest hblank hlayout hrest
  cases hlayout with
  | number => exact Takes.natural haccept hblank hrest

theorem word64 (n : UInt64) : Reads Reader.word64 (.number n.toNat) n := natural rfl

theorem count64 (n : UInt64) : Reads Reader.count64 (.number n.toNat) n := natural rfl

theorem word32 (n : UInt32) : Reads Reader.word32 (.number n.toNat) n := by
  have haccept : (if n.toUInt64.toNat < 0x100000000 then some n.toUInt64.toUInt32 else none) = some n := by
    rw [if_pos (by rw [UInt32.toNat_toUInt64]; exact n.toNat_lt), UInt32.toUInt32_toUInt64]
  have hread : Reads Reader.word32 (.number n.toUInt64.toNat) n := natural haccept
  rwa [UInt32.toNat_toUInt64] at hread

theorem boolean (b : Bool) : Reads Reader.boolean (.bool b) b := by
  intro blank text rest hblank hlayout hrest
  cases hlayout with
  | bool => exact Takes.boolean b hblank hrest

theorem stringAs {expected : String} {accept : String → Except Cause α} {s : String} (haccept : accept s = .ok a) :
    Reads (Reader.stringAs expected accept) (.string s) a := by
  intro blank text rest hblank hlayout hrest
  cases hlayout with
  | string =>
    rw [Reader.utf8_quote]
    exact Takes.stringAs haccept (Reader.spelled_escape _) hblank hrest

theorem string (s : String) : Reads Reader.string (.string s) s := stringAs rfl

/-- One of some choices, by its name. -/
theorem choice {choices : List (String × α)} {name : String}
    (h : choices.find? (fun c => c.1 = name) = some (name, a)) : Reads (Reader.choice choices) (.string name) a := by
  intro blank text rest hblank hlayout hrest
  have hname : Reads (Reader.choiceName choices) (.string name) a := stringAs (by simp only [h])
  have hread := hname .nil hlayout hrest
  cases hlayout with
  | string =>
    rw [Reader.utf8_quote, List.cons_append] at hread ⊢
    rw [Reader.choice, Reader.blanks_bind hblank rfl]
    dsimp only
    rw [if_pos rfl]
    exact hread

end Reads

/-! ### Lists -/

namespace Reader

variable {α : Type} {item : Reader α} {first : Bool} {blank gap text rest : List UInt8} {c : UInt8}

theorem hasItem_end (first : Bool) (hblank : Blank blank) :
    hasItem first (blank ++ 93 :: rest) = .ok false (93 :: rest) := by
  rw [hasItem, blanks_bind hblank rfl]
  rfl

theorem hasItem_gap (hgap : Gap first gap) (hc : isDelimiter c = false) :
    hasItem first (gap ++ c :: rest) = .ok true (c :: rest) := by
  have hblank := isBlank_of_isDelimiter hc
  have hclose : c ≠ 93 := by
    rintro rfl
    cases hc
  cases hgap with
  | first h =>
    rw [hasItem, blanks_bind h hblank]
    dsimp only
    rw [if_neg hclose, if_pos rfl]
    rfl
  | comma hbefore hafter =>
    rw [hasItem, List.append_assoc, List.cons_append, blanks_bind hbefore rfl]
    dsimp only
    rw [if_neg (by decide), if_neg Bool.false_ne_true, if_pos rfl, pass_bind, List.tail_cons,
      blanks_bind hafter hblank]
    dsimp only
    rw [if_neg hclose]
    rfl

theorem endList_cons : endList (93 :: rest) = .ok () rest := rfl

/-- The items are read one by one; each is followed by a comma or by the end of the list. -/
theorem items_series {as : List α} {fuel : Nat} {before : List α} (hfirst : before.isEmpty = first)
    (hseries : Series (fun a text => Solid text ∧ Takes item text a) first as text) (hfuel : as.length < fuel) :
    items item fuel before (text ++ 93 :: rest) = .ok (before.reverse ++ as) (93 :: rest) := by
  induction hseries generalizing fuel before with
  | nil hblank =>
    obtain ⟨fuel, rfl⟩ := Nat.exists_eq_add_one.mpr hfuel
    rw [items, bind_ok (hasItem_end _ hblank), List.append_nil]
    rfl
  | @cons first a as gap text texts hgap ha hseries ih =>
    obtain ⟨fuel, rfl⟩ := Nat.exists_eq_add_one.mpr (Nat.zero_lt_of_lt hfuel)
    obtain ⟨⟨b, bs, htext, hb⟩, hitem⟩ := ha
    have hend : Delimited (texts ++ 93 :: rest) := hseries.delimited (.cons rfl)
    have hread : item (text ++ (texts ++ 93 :: rest)) = .ok a (texts ++ 93 :: rest) := hitem .nil hend
    have hmore : hasItem first (gap ++ (text ++ (texts ++ 93 :: rest))) =
        .ok true (text ++ (texts ++ 93 :: rest)) := by
      rw [htext, List.cons_append]
      exact hasItem_gap hgap hb
    have htail : items item fuel (a :: before) (texts ++ 93 :: rest) =
        .ok ((a :: before).reverse ++ as) (93 :: rest) := ih rfl (Nat.lt_of_succ_lt_succ hfuel)
    rw [items, hfirst, List.append_assoc, List.append_assoc, bind_ok hmore, if_pos rfl, bind_ok hread, htail,
      List.reverse_cons, List.append_assoc, List.singleton_append]

end Reader

section

variable {α : Type} {item : Reader α} {as : List α}

theorem Takes.list {text : List UInt8}
    (hseries : Series (fun a text => Solid text ∧ Takes item text a) true as text) :
    Takes (Reader.list item) (91 :: (text ++ [93])) as := by
  intro blank rest hblank hrest
  refine Reader.placed_ok ?_
  rw [List.cons_append, List.append_assoc, List.singleton_append, Reader.blanks_bind hblank rfl]
  dsimp only
  rw [if_pos rfl, Reader.pass_bind, List.tail_cons]
  refine Reader.closing_ok ?_ Reader.endList_cons
  have hfuel : as.length < (text ++ 93 :: rest).length + 1 := by
    have hlength := hseries.length_le fun _ _ h => h.1.ne_nil
    rw [List.length_append]
    omega
  exact Reader.items_series rfl hseries hfuel

theorem Takes.strings {strings : List String} {text : List UInt8} (h : QuotedList strings text) :
    Takes (Reader.list Reader.string) text strings := by
  obtain ⟨inside, hseries, rfl⟩ := h
  refine Takes.list (hseries.relate (List.forall₂_same.mpr fun _ _ => rfl) fun s _ text hsame hs => ?_)
  obtain ⟨spelling, hspelling, rfl⟩ := hs
  exact hsame ▸ ⟨⟨_, _, rfl, rfl⟩, Takes.stringAs rfl hspelling⟩

theorem Reads.list {vs : List Value} (h : List.Forall₂ (Reads item) vs as) :
    Reads (Reader.list item) (.array vs) as := by
  intro blank text rest hblank hlayout hrest
  cases hlayout with
  | array hseries => exact Takes.list (hseries.relate h fun _ _ _ h hv => ⟨hv.solid, h.takes hv⟩) hblank hrest

end

/-! ### Records -/

/-- A member whose key is spelled as keys are written. -/
theorem keyed_quote {key : String} {before after value : List UInt8} (hbefore : Blank before) (hafter : Blank after) :
    Keyed (key, value) (utf8 (quote key) ++ (before ++ 58 :: (after ++ value))) := by
  rw [Reader.utf8_quote, List.cons_append, List.append_assoc, List.singleton_append]
  exact .mk (Reader.spelled_escape _) hbefore hafter

theorem Keyed.ne_nil {entry : String × List UInt8} {text : List UInt8} (h : Keyed entry text) : text ≠ [] := by
  cases h with
  | mk => exact List.cons_ne_nil _ _

namespace RecordForm

variable {α : Type} {form : RecordForm α} {first : Bool} {blank gap text rest : List UInt8}
  {members : List (String × Value)} {sets : List (α → α)}

theorem hasMember_end (first : Bool) (hblank : Blank blank) :
    hasMember first (blank ++ 125 :: rest) = .ok false (125 :: rest) := by
  rw [hasMember, Reader.blanks_bind hblank rfl]
  rfl

theorem hasMember_gap (hgap : Gap first gap) : hasMember first (gap ++ 34 :: rest) = .ok true (34 :: rest) := by
  cases hgap with
  | first h =>
    rw [hasMember, Reader.blanks_bind h rfl]
    rfl
  | comma hbefore hafter =>
    rw [hasMember, List.append_assoc, List.cons_append, Reader.blanks_bind hbefore rfl]
    dsimp only
    rw [if_neg (by decide), if_neg Bool.false_ne_true, if_pos rfl, Reader.pass_bind, List.tail_cons,
      Reader.blanks_bind hafter rfl]
    rfl

theorem endObject_cons : endObject (125 :: rest) = .ok () rest := rfl

theorem colon_append (hblank : Blank blank) : Reader.colon (blank ++ 58 :: rest) = .ok () rest := by
  rw [Reader.colon, Reader.blanks_bind hblank rfl]
  rfl

/-- What a member does to the record that is being put together: a field sets itself, anything else does nothing. -/
def Effect (form : RecordForm α) (member : String × List UInt8) (set : α → α) : Prop :=
  match form.fields.find? fun f => f.name = member.1 with
  | some field => Takes field.read member.2 set
  | none => Takes Reader.skip member.2 () ∧ set = id

/-- The names of fields among the members, in their order. -/
def known (form : RecordForm α) (members : List (String × List UInt8)) : List String :=
  (members.map Prod.fst).filter fun name => (form.fields.find? fun f => f.name = name).isSome

section

variable {entries : List (String × List UInt8)} {key : String} {value : List UInt8} {field : RecordField α}

theorem known_cons_of_field (h : form.fields.find? (fun f => f.name = key) = some field) :
    form.known ((key, value) :: entries) = key :: form.known entries := by
  rw [known, List.map_cons, List.filter_cons_of_pos (by rw [h]; rfl)]
  rfl

theorem known_cons_of_none (h : form.fields.find? (fun f => f.name = key) = none) :
    form.known ((key, value) :: entries) = form.known entries := by
  rw [known, List.map_cons, List.filter_cons_of_neg (by rw [h]; exact Bool.false_ne_true)]
  rfl

/-- Members are passed one by one, in whatever order they come, where no field comes twice. -/
theorem readMembers_keyed (heffects : List.Forall₂ form.Effect entries sets) {fuel : Nat} {seen : List String} {a : α}
    (hseries : Series Keyed first entries text) (hnodup : (form.known entries).Nodup)
    (hfresh : ∀ name ∈ form.known entries, name ∉ seen) (hfuel : entries.length < fuel) :
    form.readMembers fuel first seen a (text ++ 125 :: rest) =
      form.finish ((form.known entries).reverse ++ seen) (sets.foldl (fun a set => set a) a) (125 :: rest) := by
  induction heffects generalizing fuel first text seen a with
  | nil =>
    cases hseries with
    | nil hblank =>
      obtain ⟨fuel, rfl⟩ := Nat.exists_eq_add_one.mpr hfuel
      rw [readMembers, Reader.bind_ok (hasMember_end _ hblank), if_neg Bool.false_ne_true]
      rfl
  | @cons m set entries sets heffect heffects ih =>
    cases hseries with
    | @cons _ _ _ gap text texts hgap hmember hseries =>
      cases hmember with
      | @mk key spelling before after value hkey hbefore hafter =>
        obtain ⟨fuel, rfl⟩ := Nat.exists_eq_add_one.mpr (Nat.zero_lt_of_lt hfuel)
        have hfuel : entries.length < fuel := Nat.lt_of_succ_lt_succ hfuel
        have hend : Delimited (texts ++ 125 :: rest) := hseries.delimited (.cons rfl)
        rw [readMembers]
        simp only [List.append_assoc, List.cons_append]
        rw [Reader.bind_ok (hasMember_gap hgap), if_pos rfl, Reader.pass_bind, List.tail_cons,
          Reader.bind_ok (Reader.quoted_spelled hkey)]
        unfold Effect at heffect
        cases hfield : form.fields.find? (fun f => f.name = key) with
        | none =>
          simp only [hfield] at heffect ⊢
          obtain ⟨hskip, rfl⟩ := heffect
          rw [known_cons_of_none hfield] at hnodup hfresh ⊢
          rw [Reader.bind_ok (colon_append hbefore), Reader.bind_ok (hskip hafter hend),
            ih hseries hnodup hfresh hfuel]
          rfl
        | some field =>
          simp only [hfield] at heffect ⊢
          rw [known_cons_of_field hfield] at hnodup hfresh ⊢
          obtain ⟨hnotin, hnodup⟩ := List.nodup_cons.mp hnodup
          obtain ⟨hunseen, hothers⟩ := List.forall_mem_cons.mp hfresh
          -- The field has been seen from here on, and it is not among those that are to come.
          have hunseen : seen.contains key = false := Bool.eq_false_iff.mpr (mt List.contains_iff_mem.mp hunseen)
          have hfresh : ∀ name ∈ form.known entries, name ∉ key :: seen := by
            intro name hname hmem
            rcases List.mem_cons.mp hmem with rfl | hmem
            · exact hnotin hname
            · exact hothers name hname hmem
          rw [hunseen, if_neg Bool.false_ne_true, Reader.bind_ok (colon_append hbefore),
            Reader.bind_ok (heffect hafter hend), ih hseries hnodup hfresh hfuel, List.reverse_cons,
            List.append_assoc]
          rfl

end

/-- The member is one of the form's fields, and sets it so. -/
def Sets (form : RecordForm α) (member : String × Value) (set : α → α) : Prop :=
  ∃ field, form.fields.find? (fun f => f.name = member.1) = some field ∧ Reads field.read member.2 set

/-- The members of an object with the texts of their values, where all are fields. -/
theorem exists_entries (hsets : List.Forall₂ form.Sets members sets)
    (hseries : Series (Member Layout) first members text) :
    ∃ entries, form.known entries = members.map Prod.fst ∧ List.Forall₂ form.Effect entries sets ∧
      Series Keyed first entries text := by
  induction hsets generalizing first text with
  | nil =>
    cases hseries with
    | nil hblank => exact ⟨[], rfl, .nil, .nil hblank⟩
  | @cons m set members sets hset hsets ih =>
    obtain ⟨field, hfield, hread⟩ := hset
    cases hseries with
    | @cons _ _ _ gap text texts hgap hmember hseries =>
      cases hmember with
      | @mk key v before after value hbefore hafter hv =>
        obtain ⟨entries, hknown, heffects, hkeyed⟩ := ih hseries
        refine ⟨(key, value) :: entries, ?_, .cons ?_ heffects, .cons hgap ?_ hkeyed⟩
        · rw [known_cons_of_field hfield, hknown]
          rfl
        · unfold Effect
          simp only [hfield]
          exact hread.takes hv
        · exact keyed_quote hbefore hafter

/-- A record that has all it must have is complete. -/
theorem finish_ok {seen : List String} {a : α} (h : ∀ f ∈ form.fields, f.required = true → f.name ∈ seen) :
    form.finish seen a rest = .ok a rest := by
  have hnone : form.fields.find? (fun f => f.required && !seen.contains f.name) = none := by
    refine List.find?_eq_none.mpr fun f hf hmissing => ?_
    obtain ⟨hrequired, hunseen⟩ := Bool.and_eq_true_iff.mp hmissing
    rw [List.contains_iff_mem.mpr (h f hf hrequired)] at hunseen
    cases hunseen
  rw [finish, hnone]
  rfl

end RecordForm

section

variable {α : Type} {form : RecordForm α} {sets : List (α → α)}

/-- A record is read off an object that has some of its fields, each once, and maybe other members. -/
theorem Takes.record {entries : List (String × List UInt8)} {text : List UInt8}
    (heffects : List.Forall₂ form.Effect entries sets) (hseries : Series Keyed true entries text)
    (hnodup : (form.known entries).Nodup)
    (hrequired : ∀ f ∈ form.fields, f.required = true → f.name ∈ form.known entries) :
    Takes form.reader (123 :: (text ++ [125])) (sets.foldl (fun a set => set a) form.blank) := by
  intro blank rest hblank hrest
  refine Reader.placed_ok ?_
  rw [List.cons_append, List.append_assoc, List.singleton_append, Reader.blanks_bind hblank rfl]
  dsimp only
  rw [if_neg (by decide), if_pos rfl, Reader.pass_bind, List.tail_cons]
  refine Reader.closing_ok ?_ RecordForm.endObject_cons
  have hfuel : entries.length < (text ++ 125 :: rest).length + 1 := by
    have hlength := hseries.length_le fun _ _ => Keyed.ne_nil
    rw [List.length_append]
    omega
  have hfresh : ∀ name ∈ form.known entries, name ∉ [] := fun _ _ => List.not_mem_nil
  rw [Reader.left_bind, RecordForm.readMembers_keyed heffects hseries hnodup hfresh hfuel, List.append_nil]
  exact RecordForm.finish_ok fun f hf hf' => List.mem_reverse.mpr (hrequired f hf hf')

/-- A record is read off an object of its fields. They come in any order, so it must not matter in which order they
    are set. -/
theorem Reads.record {members : List (String × Value)} {a : α} (sets : List (α → α))
    (hsets : List.Forall₂ form.Sets members sets) (hcomm : ∀ f ∈ sets, ∀ g ∈ sets, ∀ a, g (f a) = f (g a))
    (hnodup : (members.map Prod.fst).Nodup)
    (hrequired : ∀ f ∈ form.fields, f.required = true → f.name ∈ members.map Prod.fst)
    (ha : sets.foldl (fun a set => set a) form.blank = a) : Reads form.reader (.object members) a := by
  subst ha
  intro blank text rest hblank hlayout hrest
  cases hlayout with
  | @object _ written text hperm hseries =>
    obtain ⟨sets', hwritten, hperm'⟩ := List.perm_comp_forall₂ hperm hsets
    obtain ⟨entries, hknown, heffects, hkeyed⟩ := RecordForm.exists_entries hwritten hseries
    have hnames : (form.known entries).Perm (members.map Prod.fst) := hknown ▸ hperm.map Prod.fst
    have hresult : sets'.foldl (fun a set => set a) form.blank = sets.foldl (fun a set => set a) form.blank :=
      (hperm'.symm.foldl_eq' hcomm form.blank).symm
    rw [← hresult]
    exact Takes.record heffects hkeyed (hnames.nodup_iff.mpr hnodup)
      (fun f hf hf' => hnames.mem_iff.mpr (hrequired f hf hf')) hblank hrest

end

/-! ### Whole texts -/

namespace Reader

variable {α : Type} {r : Reader α} {v : Value} {a : α}

/-- A text with one value and white space around it. -/
theorem readBytes_takes {before text after : List UInt8} (h : Takes r text a) (hbefore : Blank before)
    (hafter : Blank after) : r.readBytes (before ++ (text ++ after)) = .ok a := by
  have hdelimited : Delimited (after ++ []) := .append hafter .nil
  rw [List.append_nil] at hdelimited
  have hread : r (before ++ (text ++ after)) = .ok a after := h hbefore hdelimited
  have hend : endOfText after = .ok () [] := by
    have hblanks : blanks after = .ok none [] := by
      rw [blanks, List.dropWhile_eq_nil_iff.mpr hafter]
      rfl
    rw [endOfText, bind_ok hblanks]
    rfl
  rw [readBytes, bind_ok hread, bind_ok hend]
  rfl

theorem readBytes_layout {before text after : List UInt8} (h : Reads r v a) (hbefore : Blank before)
    (hlayout : Layout v text) (hafter : Blank after) : r.readBytes (before ++ (text ++ after)) = .ok a :=
  readBytes_takes (h.takes hlayout) hbefore hafter

theorem readBytes_short (h : Reads r v a) : r.readBytes (utf8 v.short) = .ok a := by
  have hread := readBytes_layout h .nil (layout_short v) .nil
  rwa [List.nil_append, List.append_nil] at hread

theorem readBytes_spread (h : Reads r v a) (depth : Nat) : r.readBytes (utf8 (v.spread depth)) = .ok a := by
  have hread := readBytes_layout h .nil (layout_spread depth v) .nil
  rwa [List.nil_append, List.append_nil] at hread

/-- A value in its short form is read back. -/
theorem read_compact (h : Reads r v a) : r.read v.compact = .ok a := by
  rw [read, Value.compact, toList_toUTF8, readBytes_short h]

end Reader

end Concordance.Json
