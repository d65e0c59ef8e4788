import Mathlib.Data.List.Forall2
import Concordance.Json.Value
import Concordance.Proofs.Json.Numbers

/-! The texts of a value: its parts with any white space between them, and the members of an object in any order. The
    short form and the spread form are two of them, so what is proved of all layouts holds of both. -/

namespace Concordance.Json

/-- What stands before an item or a member: white space, and a comma unless it is the first. -/
inductive Gap : Bool → List UInt8 → Prop
  | first {blank : List UInt8} (h : Blank blank) : Gap true blank
  | comma {before after : List UInt8} (hbefore : Blank before) (hafter : Blank after) :
      Gap false (before ++ 44 :: after)

/-- The parts of a list or an object, with commas between them; the `Bool` tells whether the first is yet to come. -/
inductive Series {α : Type} (P : α → List UInt8 → Prop) : Bool → List α → List UInt8 → Prop
  | nil {first : Bool} {blank : List UInt8} (h : Blank blank) : Series P first [] blank
  | cons {first : Bool} {a : α} {as : List α} {gap text texts : List UInt8} (hgap : Gap first gap) (ha : P a text)
      (has : Series P false as texts) : Series P first (a :: as) (gap ++ (text ++ texts))

/-- A key, a colon and a value. -/
inductive Member (P : Value → List UInt8 → Prop) : String × Value → List UInt8 → Prop
  | mk {key : String} {v : Value} {before after text : List UInt8} (hbefore : Blank before) (hafter : Blank after)
      (hv : P v text) : Member P (key, v) (utf8 (quote key) ++ (before ++ 58 :: (after ++ text)))

/-- The text lays out the value. -/
inductive Layout : Value → List UInt8 → Prop
  | null : Layout .null (utf8 Value.null.scalar)
  | bool (b : Bool) : Layout (.bool b) (utf8 (Value.bool b).scalar)
  | number (n : Nat) : Layout (.number n) (utf8 (Value.number n).scalar)
  | string (s : String) : Layout (.string s) (utf8 (quote s))
  | array {items : List Value} {text : List UInt8} (h : Series Layout true items text) :
      Layout (.array items) (91 :: (text ++ [93]))
  | object {members written : List (String × Value)} {text : List UInt8} (hperm : written.Perm members)
      (h : Series (Member Layout) true written text) : Layout (.object members) (123 :: (text ++ [125]))

/-! ### What layouts begin with -/

/-- The text begins with something that does not end a value. -/
def Solid (text : List UInt8) : Prop := ∃ b rest, text = b :: rest ∧ isDelimiter b = false

theorem Solid.append {text : List UInt8} (h : Solid text) (rest : List UInt8) : Solid (text ++ rest) := by
  obtain ⟨b, bs, rfl, hb⟩ := h
  exact ⟨b, bs ++ rest, rfl, hb⟩

theorem Solid.ne_nil {text : List UInt8} (h : Solid text) : text ≠ [] := by
  obtain ⟨b, bs, rfl, -⟩ := h
  exact List.cons_ne_nil b bs

theorem Layout.solid {v : Value} {text : List UInt8} (h : Layout v text) : Solid text := by
  cases h with
  | null => exact ⟨_, _, rfl, rfl⟩
  | bool b => cases b <;> exact ⟨_, _, rfl, rfl⟩
  | number n =>
    obtain ⟨b, bs, hbytes⟩ := List.exists_cons_of_ne_nil (utf8_repr_ne_nil n)
    have hdigit := isDigit_of_mem_utf8_repr (hbytes ▸ List.mem_cons_self)
    exact ⟨b, bs, hbytes, isDelimiter_of_isDigit hdigit⟩
  | string s => exact ⟨_, _, rfl, rfl⟩
  | array => exact ⟨_, _, rfl, rfl⟩
  | object => exact ⟨_, _, rfl, rfl⟩

namespace Series

variable {α : Type} {P : α → List UInt8 → Prop} {first : Bool} {as : List α} {text rest : List UInt8}

/-- Each part takes a byte at least. -/
theorem length_le (hP : ∀ a t, P a t → t ≠ []) (h : Series P first as text) : as.length ≤ text.length := by
  induction h with
  | nil => exact Nat.zero_le _
  | cons hgap ha has ih =>
    have := List.length_pos_iff.mpr (hP _ _ ha)
    simp only [List.length_cons, List.length_append]
    omega

/-- The same parts may be the parts of something else. -/
theorem relate {β : Type} {Q : β → List UInt8 → Prop} {R : α → β → Prop} {bs : List β} (hparts : List.Forall₂ R as bs)
    (h : ∀ a b text, R a b → P a text → Q b text) (hseries : Series P first as text) : Series Q first bs text := by
  induction hseries generalizing bs with
  | nil hblank =>
    cases hparts
    exact .nil hblank
  | cons hgap ha _ ih =>
    cases hparts with
    | cons hab hparts => exact .cons hgap (h _ _ _ hab ha) (ih hparts)

/-- After a part there is a comma or the end. -/
theorem delimited (h : Series P false as text) (hrest : Delimited rest) : Delimited (text ++ rest) := by
  cases h with
  | nil hblank => exact hrest.append hblank
  | cons hgap =>
    cases hgap with
    | comma hbefore =>
      rw [List.append_assoc, List.append_assoc]
      exact (Delimited.cons rfl).append hbefore

end Series

/-! ### The forms that are written -/

/-- Pieces with a separator between them, and with something before and after them. -/
theorem Series.joined {α : Type} {P : α → List UInt8 → Prop} {first : Bool} {as : List α} {pieces : List (List Char)}
    (before separator after : List Char) (h : List.Forall₂ (fun a p => P a (utf8 p)) as pieces)
    (hbefore : Gap first (utf8 before)) (hseparator : Gap false (utf8 separator)) (hafter : Blank (utf8 after))
    (hne : as ≠ []) : Series P first as (utf8 (before ++ Json.joined separator pieces ++ after)) := by
  induction h generalizing before first with
  | nil => exact absurd rfl hne
  | @cons a p as pieces ha has ih =>
    cases has with
    | nil =>
      simp only [Json.joined, utf8_append, List.append_assoc]
      exact .cons hbefore ha (.nil hafter)
    | @cons b q as pieces hb has =>
      have hrest := ih separator hseparator (List.cons_ne_nil b as)
      simp only [Json.joined, utf8_append, List.append_assoc] at hrest ⊢
      exact .cons hbefore ha hrest

theorem Series.short {α : Type} {P : α → List UInt8 → Prop} {as : List α} {pieces : List (List Char)}
    (h : List.Forall₂ (fun a p => P a (utf8 p)) as pieces) : Series P true as (utf8 (Json.joined [','] pieces)) := by
  cases as with
  | nil =>
    cases h
    exact .nil .nil
  | cons a as =>
    have hseries := Series.joined [] [','] [] h (.first .nil) (.comma .nil .nil) .nil (List.cons_ne_nil a as)
    rwa [List.nil_append, List.append_nil] at hseries

theorem blank_newline (depth : Nat) : Blank (utf8 (newline depth)) := by
  have hchars : ∀ c ∈ newline depth, c = '\n' ∨ c = ' ' := by
    intro c hc
    rcases List.mem_cons.mp hc with rfl | hc
    · exact Or.inl rfl
    · exact Or.inr (List.eq_of_mem_replicate hc)
  have hascii : ∀ c ∈ newline depth, c.toNat < 128 := by
    intro c hc
    rcases hchars c hc with rfl | rfl <;> decide
  rw [utf8_of_ascii hascii]
  refine List.forall_mem_map.mpr fun c hc => ?_
  rcases hchars c hc with rfl | rfl <;> rfl

theorem Series.spreadOut {α : Type} {P : α → List UInt8 → Prop} {as : List α} {pieces : List (List Char)}
    (depth : Nat) (opening closing : Char) (h : List.Forall₂ (fun a p => P a (utf8 p)) as pieces) :
    ∃ text, utf8 (Json.spreadOut depth opening closing pieces) = utf8 [opening] ++ (text ++ utf8 [closing]) ∧
      Series P true as text := by
  cases as with
  | nil =>
    cases h
    refine ⟨[], ?_, .nil .nil⟩
    rw [Json.spreadOut, if_pos List.isEmpty_nil, ← List.singleton_append, utf8_append]
    rfl
  | cons a as =>
    have hpieces : pieces.isEmpty = false := by
      cases h
      rfl
    refine ⟨_, ?_, Series.joined (newline (depth + 1)) (',' :: newline (depth + 1)) (newline depth) h
      (.first (blank_newline _)) (.comma .nil (blank_newline _)) (blank_newline _) (List.cons_ne_nil a as)⟩
    rw [Json.spreadOut, hpieces, if_neg Bool.false_ne_true, ← utf8_append, ← utf8_append]
    rfl

mutual

/-- The short form is a layout. -/
theorem layout_short : ∀ v : Value, Layout v (utf8 v.short)
  | .null => .null
  | .bool b => .bool b
  | .number n => .number n
  | .string s => .string s
  | .array items => by
    rw [Value.short, utf8_append]
    exact .array (.short (layout_shortItems items))
  | .object members => by
    rw [Value.short, utf8_append]
    exact .object (.refl members) (.short (layout_shortMembers members))

theorem layout_shortItems :
    ∀ items : List Value, List.Forall₂ (fun v p => Layout v (utf8 p)) items (shortItems items)
  | [] => .nil
  | v :: rest => .cons (layout_short v) (layout_shortItems rest)

theorem layout_shortMembers : ∀ members : List (String × Value),
    List.Forall₂ (fun m p => Member Layout m (utf8 p)) members (shortMembers members)
  | [] => .nil
  | (k, v) :: rest => by
    have hmember : Member Layout (k, v) (utf8 (quote k) ++ ([] ++ 58 :: ([] ++ utf8 v.short))) :=
      .mk .nil .nil (layout_short v)
    refine .cons ?_ (layout_shortMembers rest)
    rw [utf8_append, utf8_append, List.append_assoc]
    exact hmember

end

mutual

/-- The spread form is a layout. -/
theorem layout_spread (depth : Nat) : ∀ v : Value, Layout v (utf8 (v.spread depth))
  | .null => .null
  | .bool b => .bool b
  | .number n => .number n
  | .string s => .string s
  | .array items => by
    obtain ⟨text, htext, hseries⟩ := Series.spreadOut depth '[' ']' (layout_spreadItems (depth + 1) items)
    rw [Value.spread, htext]
    exact .array hseries
  | .object members => by
    obtain ⟨text, htext, hseries⟩ := Series.spreadOut depth '\x7b' '\x7d' (layout_spreadMembers (depth + 1) members)
    rw [Value.spread, htext]
    exact .object (.refl members) hseries

theorem layout_spreadItems (depth : Nat) :
    ∀ items : List Value, List.Forall₂ (fun v p => Layout v (utf8 p)) items (spreadItems depth items)
  | [] => .nil
  | v :: rest => .cons (layout_spread depth v) (layout_spreadItems depth rest)

theorem layout_spreadMembers (depth : Nat) : ∀ members : List (String × Value),
    List.Forall₂ (fun m p => Member Layout m (utf8 p)) members (spreadMembers depth members)
  | [] => .nil
  | (k, v) :: rest => by
    have hmember : Member Layout (k, v) (utf8 (quote k) ++ ([] ++ 58 :: ([32] ++ utf8 (v.spread depth)))) :=
      .mk .nil (List.forall_mem_singleton.mpr rfl) (layout_spread depth v)
    refine .cons ?_ (layout_spreadMembers depth rest)
    rw [utf8_append, utf8_append, List.append_assoc]
    exact hmember

end

end Concordance.Json
