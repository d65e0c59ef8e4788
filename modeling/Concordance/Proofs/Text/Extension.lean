import Mathlib
import Concordance.Java.Summary
import Concordance.Settings.Basic
import Concordance.Proofs.Text.Path

/-! The extension of a path. It is read off the last name of the path, whatever stands before that name and however
    many slashes, and dots between them, stand after it. Extensions are the same if they are so but for the case of
    ASCII letters, and no other letter has a case here. -/

namespace Concordance

namespace Path

variable {a b c : String} {name ext path : String} {cs p : List Char} {parts : List (List Char)}
  {run extensions extensions' : List String}

/-- The same letter, or the two cases of an ASCII letter. -/
def SameLetter (x y : Char) : Prop :=
  x = y ∨ (x.isUpper = true ∧ y.toNat = x.toNat + 32) ∨ (y.isUpper = true ∧ x.toNat = y.toNat + 32)

/-- The same text but for the case of ASCII letters. -/
def SameButCase (a b : String) : Prop := List.Forall₂ SameLetter a.toList b.toList

/-- What may follow the last name of a path and does not count: slashes, each perhaps with a dot after it. -/
def Trails (run : List String) : Prop := ∀ p ∈ run, p = "/" ∨ p = "/."

/-- The path ends with the name. Before the name there is nothing or a slash, and after it nothing that counts. -/
def EndsWith (path name : String) : Prop :=
  ∃ (dir : String) (run : List String), path = dir ++ name ++ String.join run ∧ (dir = "" ∨ ∃ d, dir = d ++ "/") ∧
    Trails run ∧ IsName name

/-- What follows the last dot of a name that has something before that dot. -/
def IsExtensionOf (ext name : String) : Prop := ∃ stem, stem ≠ "" ∧ name = stem ++ "." ++ ext ∧ '.' ∉ ext.toList

/-- The name that a component is, if it is one. -/
def Component.text? : Component → Option String
  | .name text => some text
  | .root | .here | .up => none

def Component.toLower : Component → Component
  | .name text => .name (text.map Char.toLower)
  | .root => .root
  | .here => .here
  | .up => .up

/-! ### Letters -/

theorem isUpper_iff {x : Char} : x.isUpper = true ↔ 65 ≤ x.toNat ∧ x.toNat ≤ 90 := by
  simp [Char.isUpper, UInt32.le_iff_toNat_le, ← Char.toNat_val]

theorem toNat_toLower (x : Char) : x.toLower.toNat = if x.isUpper = true then x.toNat + 32 else x.toNat := by
  have hcond : x.val ≥ 'A'.val ∧ x.val ≤ 'Z'.val ↔ x.isUpper = true := by rw [Char.isUpper, decide_eq_true_iff]
  unfold Char.toLower
  by_cases h : x.isUpper = true
  · have hbound := isUpper_iff.mp h
    have hstep : ('a'.val - 'A'.val).toNat = 32 := rfl
    rw [dif_pos (hcond.mpr h), if_pos h, ← Char.toNat_val, UInt32.toNat_add, hstep, Char.toNat_val,
      Nat.mod_eq_of_lt (by omega)]
  · rw [dif_neg (mt hcond.mp h), if_neg h]

theorem toLower_eq_iff {x y : Char} : x.toLower = y.toLower ↔ SameLetter x y := by
  rw [← Char.toNat_inj, toNat_toLower, toNat_toLower, SameLetter, ← Char.toNat_inj]
  simp only [isUpper_iff]
  split <;> split <;> omega

/-- Signs before the letters have no case. -/
theorem toLower_eq_sign {x y : Char} (hy : y.toNat < 65) : x.toLower = y ↔ x = y := by
  rw [← Char.toNat_inj, ← Char.toNat_inj, toNat_toLower]
  simp only [isUpper_iff]
  split <;> omega

theorem SameLetter.eq_of_le {x y : Char} (h : SameLetter x y) (hx : 128 ≤ x.toNat ∨ 128 ≤ y.toNat) : x = y := by
  rcases h with h | ⟨hupper, h⟩ | ⟨hupper, h⟩
  · exact h
  · have := isUpper_iff.mp hupper
    omega
  · have := isUpper_iff.mp hupper
    omega

/-! ### Texts but for case -/

namespace SameButCase

theorem iff_map : SameButCase a b ↔ a.map Char.toLower = b.map Char.toLower := by
  rw [← String.toList_inj, String.toList_map, String.toList_map, ← List.forall₂_eq_eq_eq,
    List.forall₂_map_left_iff, List.forall₂_map_right_iff, SameButCase]
  simp only [toLower_eq_iff]

theorem map_toLower (a : String) : SameButCase (a.map Char.toLower) a := by
  rw [iff_map, String.map_map]
  refine congrArg (String.map · a) (funext fun x => ?_)
  rw [← Char.toNat_inj]
  simp only [Function.comp_apply, toNat_toLower, isUpper_iff]
  repeat' split
  all_goals omega

theorem symm (h : SameButCase a b) : SameButCase b a := iff_map.mpr (iff_map.mp h).symm

theorem trans (h : SameButCase a b) (h' : SameButCase b c) : SameButCase a c :=
  iff_map.mpr ((iff_map.mp h).trans (iff_map.mp h'))

theorem eqIgnoreCase_iff : eqIgnoreCase a b = true ↔ SameButCase a b := by
  rw [eqIgnoreCase, beq_iff_eq, iff_map, ← String.toList_inj, String.toList_map, String.toList_map]

/-- A letter that is not ASCII has to be the same in both. -/
theorem getElem? (h : SameButCase a b) (i : Nat) {x : Char} (hx : 128 ≤ x.toNat) :
    a.toList[i]? = some x ↔ b.toList[i]? = some x := by
  obtain ⟨hlength, hget⟩ := List.forall₂_iff_get.mp h
  by_cases hi : i < a.toList.length
  · have hletter := hget i hi (hlength ▸ hi)
    rw [List.getElem?_eq_getElem hi, List.getElem?_eq_getElem (hlength ▸ hi), Option.some_inj, Option.some_inj]
    constructor
    · rintro rfl
      exact (hletter.eq_of_le (.inl hx)).symm
    · rintro rfl
      exact hletter.eq_of_le (.inr hx)
  · rw [List.getElem?_eq_none (Nat.le_of_not_lt hi), List.getElem?_eq_none (hlength ▸ Nat.le_of_not_lt hi)]

end SameButCase

/-! ### The last name -/

theorem ofPiece_eq_name_iff :
    ofPiece p = some (.name name) ↔ p = name.toList ∧ name ≠ "" ∧ name ≠ "." ∧ name ≠ ".." := by
  constructor
  · intro h
    unfold ofPiece at h
    split at h
    · cases h
    · cases h
    · cases h
    · next hempty hdot hdots =>
      obtain rfl := Component.name.inj (Option.some.inj h)
      refine ⟨String.toList_ofList.symm, ?_, ?_, ?_⟩ <;> rw [Ne, ← String.toList_inj, String.toList_ofList]
      · exact hempty
      · exact hdot
      · exact hdots
  · rintro ⟨rfl, hempty, hdot, hdots⟩
    unfold ofPiece
    split
    · next h => exact absurd (String.toList_inj.mp h) hempty
    · next h => exact absurd (String.toList_inj.mp h) hdot
    · next h => exact absurd (String.toList_inj.mp h) hdots
    · rw [String.ofList_toList]

theorem fileName?_eq_bind (path : String) : fileName? path = (components path).getLast?.bind Component.text? := by
  unfold fileName?
  cases (components path).getLast? with
  | none => rfl
  | some c => cases c <;> rfl

theorem ofFirstPiece_eq (h : p ≠ ['.']) : ofFirstPiece p = ofPiece p := by
  unfold ofFirstPiece
  split
  · rfl
  · exact absurd rfl h
  · rfl

/-- The last piece that is not idle tells the name. A dot in front is a component, but it is no name, so it may be
    left out with the other dots. -/
theorem fileName?_eq (path : String) :
    fileName? path = ((pieces path.toList).reverse.findSome? ofPiece).bind Component.text? := by
  rw [fileName?_eq_bind, ← List.getLast?_filterMap]
  unfold components
  split
  next rest hpath =>
    -- An absolute path has an idle piece before its first slash.
    rw [hpath, pieces, if_pos rfl, List.filterMap_cons_none rfl, List.getLast?_cons]
    cases ((pieces rest).filterMap ofPiece).getLast? <;> rfl
  next =>
    split
    next p ps hpieces =>
      rw [hpieces]
      by_cases hdot : p = ['.']
      · subst hdot
        rw [List.filterMap_cons_none rfl, show (ofFirstPiece ['.']).toList = [.here] from rfl, List.singleton_append,
          List.getLast?_cons]
        cases (ps.filterMap ofPiece).getLast? <;> rfl
      · rw [ofFirstPiece_eq hdot, List.filterMap_cons]
        cases ofPiece p <;> rfl
    next hpieces => rw [hpieces]; rfl

theorem not_mem_of_mem_pieces (h : p ∈ pieces cs) : '/' ∉ p := by
  induction cs generalizing p with
  | nil =>
    obtain rfl := List.mem_singleton.mp h
    exact List.not_mem_nil
  | cons c cs ih =>
    rw [pieces] at h
    split at h
    next =>
      rcases List.mem_cons.mp h with rfl | h
      · exact List.not_mem_nil
      · exact ih h
    next hc =>
      obtain ⟨q, qs, hq⟩ := List.exists_cons_of_ne_nil (pieces_eq_splitOn cs ▸ List.splitOn_ne_nil '/' cs)
      simp only [hq] at h
      rcases List.mem_cons.mp h with rfl | h
      · exact List.not_mem_cons_of_ne_of_not_mem (Ne.symm hc) (ih (hq ▸ List.mem_cons_self))
      · exact ih (hq ▸ List.mem_cons_of_mem q h)

theorem intercalate_eq_append_flatMap (p : List Char) (r : List (List Char)) :
    ['/'].intercalate (p :: r) = p ++ r.flatMap ('/' :: ·) := by
  induction r generalizing p with
  | nil => simp
  | cons q r ih => rw [List.intercalate_cons_cons, ih, List.flatMap_cons, List.append_assoc, List.singleton_append]; rfl

/-- A piece of a path stands behind a slash, unless it is the first, and the pieces after it follow slashes. -/
theorem exists_front_of_pieces {l r : List (List Char)} (h : pieces cs = l ++ p :: r) :
    ∃ front, cs = front ++ p ++ r.flatMap ('/' :: ·) ∧ (front = [] ∨ ∃ d, front = d ++ ['/']) := by
  have hcs : cs = ['/'].intercalate (l ++ p :: r) := by
    rw [← h, pieces_eq_splitOn, List.intercalate_splitOn]
  clear h
  induction l generalizing cs with
  | nil => exact ⟨[], by rw [hcs, List.nil_append, intercalate_eq_append_flatMap, List.nil_append], .inl rfl⟩
  | cons q l ih =>
    obtain ⟨front, hfront, hslash⟩ := ih rfl
    have hne : l ++ p :: r ≠ [] := by simp
    refine ⟨q ++ '/' :: front, ?_, .inr ?_⟩
    · rw [hcs, List.cons_append, List.intercalate_cons_of_ne_nil hne, hfront]
      simp
    · rcases hslash with rfl | ⟨d, rfl⟩
      · exact ⟨q, rfl⟩
      · exact ⟨q ++ '/' :: d, by simp⟩

/-- What trails a path adds idle pieces. -/
theorem pieces_append_trails (h : Trails run) :
    pieces (cs ++ run.flatMap String.toList) = pieces cs ++ run.map fun p => p.toList.tail := by
  induction run generalizing cs with
  | nil => simp
  | cons q run ih =>
    obtain ⟨hq, hrun⟩ := List.forall_mem_cons.mp h
    rw [List.flatMap_cons, List.map_cons]
    rcases hq with rfl | rfl
    · have hnil := @ih [] hrun
      rw [List.nil_append] at hnil
      rw [show "/".toList = ['/'] from rfl, List.singleton_append, pieces_append_slash, hnil]
      rfl
    · have hdot := @ih ['.'] hrun
      rw [show "/.".toList = '/' :: ['.'] from rfl, List.cons_append, pieces_append_slash, hdot]
      rfl

theorem Trails.isIdle (h : Trails run) : ∀ p ∈ run.map fun p => p.toList.tail, ofPiece p = none := by
  intro p hp
  obtain ⟨q, hq, rfl⟩ := List.mem_map.mp hp
  rcases h q hq with rfl | rfl <;> rfl

theorem fileName?_append_trails (path : String) (h : Trails run) :
    fileName? (path ++ String.join run) = fileName? path := by
  rw [fileName?_eq, fileName?_eq, String.toList_append, String.toList_join, pieces_append_trails h, List.reverse_append,
    List.findSome?_append, List.findSome?_eq_none_iff.mpr, Option.none_or]
  exact fun p hp => h.isIdle p (List.mem_reverse.mp hp)

theorem fileName?_append_name (dir : String) (hdir : dir = "" ∨ ∃ d, dir = d ++ "/") (h : IsName name) :
    fileName? (dir ++ name) = some name := by
  have hpieces : ∃ before, pieces (dir ++ name).toList = before ++ [name.toList] := by
    rcases hdir with rfl | ⟨d, rfl⟩
    · exact ⟨[], by rw [String.empty_append, h.pieces, List.nil_append]⟩
    · refine ⟨pieces d.toList, ?_⟩
      rw [String.toList_append, String.toList_append, List.append_assoc, show "/".toList = ['/'] from rfl,
        List.singleton_append, pieces_append_slash, h.pieces]
  obtain ⟨before, hpieces⟩ := hpieces
  rw [fileName?_eq, hpieces, List.reverse_concat, List.findSome?_cons_of_isSome (by rw [h.ofPiece]; rfl), h.ofPiece]
  rfl

/-- The name that a path ends with is the one that is found. -/
theorem fileName?_eq_some_iff : fileName? path = some name ↔ EndsWith path name := by
  constructor
  · intro h
    rw [fileName?_eq] at h
    obtain ⟨c, hc, htext⟩ := Option.bind_eq_some_iff.mp h
    have hname : c = .name name := by cases c <;> cases htext; rfl
    subst hname
    obtain ⟨after, p, before, hsplit, hp, hidle⟩ := List.findSome?_eq_some_iff.mp hc
    obtain ⟨rfl, hempty, hdot, hdots⟩ := ofPiece_eq_name_iff.mp hp
    rw [List.reverse_eq_iff, List.reverse_append, List.reverse_cons, List.append_assoc, List.singleton_append] at hsplit
    obtain ⟨front, hpath, hfront⟩ := exists_front_of_pieces hsplit
    have hmem : name.toList ∈ pieces path.toList := by
      rw [hsplit]
      exact List.mem_append_right _ List.mem_cons_self
    have hslash : '/' ∉ name.toList := not_mem_of_mem_pieces hmem
    refine ⟨String.ofList front, after.reverse.map fun p => String.ofList ('/' :: p), ?_, ?_, ?_, hempty, hdot, hdots,
      hslash⟩
    · rw [← String.toList_inj, hpath, String.toList_append, String.toList_append, String.toList_join, List.flatMap_map,
        String.toList_ofList]
      simp only [String.toList_ofList]
    · rcases hfront with rfl | ⟨d, rfl⟩
      · exact .inl rfl
      · exact .inr ⟨String.ofList d, String.ofList_append⟩
    · intro q hq
      obtain ⟨p, hp, rfl⟩ := List.mem_map.mp hq
      have hp : isIdle p = true := ofPiece_eq_none_iff.mp (hidle p (List.mem_reverse.mp hp))
      rw [isIdle, Bool.or_eq_true, decide_eq_true_iff, decide_eq_true_iff] at hp
      rcases hp with rfl | rfl
      · exact .inl rfl
      · exact .inr rfl
  · rintro ⟨dir, run, rfl, hdir, hrun, hname⟩
    rw [fileName?_append_trails _ hrun, fileName?_append_name dir hdir hname]

/-! ### Extensions -/

theorem takeWhile_reverse_of_not_mem {l : List Char} (h : '.' ∉ l) (rest : List Char) :
    (l.reverse ++ rest).takeWhile (· ≠ '.') = l.reverse ++ rest.takeWhile (· ≠ '.') := by
  refine List.takeWhile_append_of_pos fun x hx => decide_eq_true fun heq => h ?_
  exact heq ▸ List.mem_reverse.mp hx

theorem extensionOf_of_not_mem (h : '.' ∉ name.toList) : extensionOf name = none := by
  have hwhole := takeWhile_reverse_of_not_mem h []
  rw [List.append_nil, List.takeWhile_nil, List.append_nil] at hwhole
  simp only [extensionOf, hwhole, List.reverse_reverse, Nat.sub_self]
  rfl

theorem extensionOf_append (stem : String) (h : '.' ∉ ext.toList) :
    extensionOf (stem ++ "." ++ ext) = if stem = "" then none else some ext := by
  have hreverse : (stem ++ "." ++ ext).toList.reverse = ext.toList.reverse ++ '.' :: stem.toList.reverse := by simp
  have htake : (stem ++ "." ++ ext).toList.reverse.takeWhile (· ≠ '.') = ext.toList.reverse := by
    rw [hreverse, takeWhile_reverse_of_not_mem h, List.takeWhile_cons_of_neg (by simp), List.append_nil]
  have hlength : (stem ++ "." ++ ext).toList.length - ext.toList.length = stem.toList.length + 1 := by
    simp only [String.toList_append, List.length_append, show ".".toList.length = 1 from rfl]
    omega
  simp only [extensionOf, htake, List.reverse_reverse, hlength, String.ofList_toList]
  by_cases hstem : stem = ""
  · rw [if_pos hstem, if_pos (by rw [hstem]; decide)]
  · have hpos : 0 < stem.toList.length := List.length_pos_iff.mpr (mt String.toList_eq_nil_iff.mp hstem)
    rw [if_neg hstem, if_neg (by omega)]

/-- Where a name has a dot, its last dot parts it. -/
theorem exists_last_dot (h : '.' ∈ name.toList) : ∃ stem ext, name = stem ++ "." ++ ext ∧ '.' ∉ ext.toList := by
  obtain ⟨ext, stem, hsplit, hext⟩ := List.eq_append_cons_of_mem (List.mem_reverse.mpr h)
  refine ⟨String.ofList stem.reverse, String.ofList ext.reverse, ?_, by simpa using hext⟩
  rw [List.reverse_eq_iff] at hsplit
  rw [← String.toList_inj, hsplit]
  simp

theorem extensionOf_eq_some_iff : extensionOf name = some ext ↔ IsExtensionOf ext name := by
  constructor
  · intro h
    by_cases hdot : '.' ∈ name.toList
    · obtain ⟨stem, last, rfl, hlast⟩ := exists_last_dot hdot
      rw [extensionOf_append stem hlast] at h
      split at h
      · cases h
      next hstem =>
        obtain rfl := Option.some.inj h
        exact ⟨stem, hstem, rfl, hlast⟩
    · rw [extensionOf_of_not_mem hdot] at h
      cases h
  · rintro ⟨stem, hstem, rfl, hext⟩
    rw [extensionOf_append stem hext, if_neg hstem]

/-- A path has one of the extensions if that is what its last name says. -/
theorem hasExtension_iff : hasExtension extensions path = true ↔ ∃ name ext wanted, EndsWith path name ∧
    IsExtensionOf ext name ∧ wanted ∈ extensions ∧ SameButCase wanted ext := by
  simp only [hasExtension, extension?, Option.any_eq_true, Option.bind_eq_some_iff, List.any_eq_true,
    fileName?_eq_some_iff, extensionOf_eq_some_iff, SameButCase.eqIgnoreCase_iff]
  constructor
  · rintro ⟨ext, ⟨name, hname, hext⟩, wanted, hwanted, hsame⟩
    exact ⟨name, ext, wanted, hname, hext, hwanted, hsame⟩
  · rintro ⟨name, ext, wanted, hname, hext, hwanted, hsame⟩
    exact ⟨ext, ⟨name, hname, hext⟩, wanted, hwanted, hsame⟩

/-- All that counts is the last name. -/
theorem hasExtension_of_fileName? {path path' : String} (h : fileName? path = fileName? path') :
    hasExtension extensions path = hasExtension extensions path' := by
  rw [hasExtension, hasExtension, extension?, extension?, h]

/-! ### Extensions but for case -/

theorem map_toLower_ofList (p : List Char) :
    (String.ofList p).map Char.toLower = String.ofList (p.map Char.toLower) := by
  rw [← String.toList_inj, String.toList_map, String.toList_ofList, String.toList_ofList]

theorem map_toLower_eq_signs {q : List Char} (hq : ∀ x ∈ q, x.toNat < 65) : p.map Char.toLower = q ↔ p = q := by
  induction q generalizing p with
  | nil => exact List.map_eq_nil_iff
  | cons y q ih =>
    obtain ⟨hy, hq⟩ := List.forall_mem_cons.mp hq
    cases p with
    | nil => simp
    | cons x p => rw [List.map_cons, List.cons.injEq, List.cons.injEq, toLower_eq_sign hy, ih hq]

theorem pieces_map_toLower (cs : List Char) :
    pieces (cs.map Char.toLower) = (pieces cs).map (List.map Char.toLower) := by
  induction cs with
  | nil => rfl
  | cons c cs ih =>
    rw [List.map_cons, pieces, pieces, ih]
    by_cases hc : c = '/'
    · rw [if_pos hc, if_pos ((toLower_eq_sign (by decide)).mpr hc)]
      rfl
    · rw [if_neg hc, if_neg (mt (toLower_eq_sign (by decide)).mp hc)]
      cases pieces cs <;> rfl

theorem ofPiece_map_toLower (p : List Char) : ofPiece (p.map Char.toLower) = (ofPiece p).map Component.toLower := by
  -- The pieces that are no names are made of dots, and those have no case.
  have hsigns {q : List Char} (hq : q = [] ∨ q = ['.'] ∨ q = ['.', '.']) : p.map Char.toLower = q ↔ p = q := by
    have hdot : '.'.toNat < 65 := by decide
    refine map_toLower_eq_signs ?_
    rcases hq with rfl | rfl | rfl
    · exact nofun
    · exact List.forall_mem_singleton.mpr hdot
    · exact List.forall_mem_cons.mpr ⟨hdot, List.forall_mem_singleton.mpr hdot⟩
  unfold ofPiece
  split
  · next h => rw [(hsigns (.inl rfl)).mp h]; rfl
  · next h => rw [(hsigns (.inr (.inl rfl))).mp h]; rfl
  · next h => rw [(hsigns (.inr (.inr rfl))).mp h]; rfl
  · next hempty hdot hdots =>
    split
    · exact absurd rfl hempty
    · exact absurd rfl hdot
    · exact absurd rfl hdots
    · rw [Option.map_some, Component.toLower, map_toLower_ofList]

theorem fileName?_map_toLower (path : String) :
    fileName? (path.map Char.toLower) = (fileName? path).map (String.map Char.toLower) := by
  have hpiece : ofPiece ∘ List.map Char.toLower = Option.map Component.toLower ∘ ofPiece := funext ofPiece_map_toLower
  rw [fileName?_eq, fileName?_eq, String.toList_map, pieces_map_toLower, ← List.map_reverse, List.findSome?_map, hpiece,
    ← List.map_findSome?]
  cases (pieces path.toList).reverse.findSome? ofPiece with
  | none => rfl
  | some c => cases c <;> rfl

theorem extensionOf_map_toLower (name : String) :
    extensionOf (name.map Char.toLower) = (extensionOf name).map (String.map Char.toLower) := by
  have hdot : (fun x : Char => decide (x ≠ '.')) ∘ Char.toLower = fun x => decide (x ≠ '.') := by
    funext x
    simp only [Function.comp_apply, ne_eq, toLower_eq_sign (show '.'.toNat < 65 by decide)]
  simp only [extensionOf, String.toList_map, ← List.map_reverse, List.takeWhile_map, hdot, List.length_map]
  split
  · rfl
  · rw [Option.map_some, map_toLower_ofList]

/-- The case of ASCII letters does not count in a path. -/
theorem hasExtension_map_toLower (extensions : List String) (path : String) :
    hasExtension extensions (path.map Char.toLower) = hasExtension extensions path := by
  have hsame (wanted ext : String) : eqIgnoreCase wanted (ext.map Char.toLower) = eqIgnoreCase wanted ext := by
    rw [Bool.eq_iff_iff, SameButCase.eqIgnoreCase_iff, SameButCase.eqIgnoreCase_iff]
    exact ⟨fun h => h.trans (.map_toLower ext), fun h => h.trans (SameButCase.map_toLower ext).symm⟩
  rw [hasExtension, hasExtension, extension?, extension?, fileName?_map_toLower]
  cases fileName? path with
  | none => rfl
  | some name =>
    rw [Option.map_some, Option.bind_some, Option.bind_some, extensionOf_map_toLower, Option.any_map]
    simp only [hsame]

theorem hasExtension_of_sameButCase {path path' : String} (h : SameButCase path path') :
    hasExtension extensions path = hasExtension extensions path' := by
  rw [← hasExtension_map_toLower extensions path, SameButCase.iff_map.mp h, hasExtension_map_toLower]

/-- Nor does it count in the extensions that are listed. -/
theorem hasExtension_of_listed (h : List.Forall₂ SameButCase extensions extensions') (path : String) :
    hasExtension extensions path = hasExtension extensions' path := by
  have hany (ext : String) : (extensions.any fun wanted => eqIgnoreCase wanted ext) =
      extensions'.any fun wanted => eqIgnoreCase wanted ext := by
    induction h with
    | nil => rfl
    | cons hsame _ ih =>
      rw [List.any_cons, List.any_cons, ih]
      refine congrArg (· || _) (Bool.eq_iff_iff.mpr ?_)
      rw [SameButCase.eqIgnoreCase_iff, SameButCase.eqIgnoreCase_iff]
      exact ⟨hsame.symm.trans, hsame.trans⟩
  simp only [hasExtension, hany]

end Path

/-! ### What is supported -/

namespace Java

/-- The builder refuses as unsupported just the files that have none of its extensions. -/
theorem buildWith_eq_unsupported_iff {parse : String → Option Tree} {extensions : List String} {file f : FileId}
    {source : String} : buildWith parse extensions file source = .error (.unsupported f) ↔
      Path.hasExtension extensions file.text = false ∧ f = file := by
  rw [buildWith]
  cases Path.hasExtension extensions file.text with
  | false => simp [eq_comm]
  | true =>
    simp only [Bool.not_true, Bool.false_eq_true, if_false, Bool.true_eq_false, false_and, iff_false]
    split
    next => exact nofun
    next t _ =>
      rw [resultOf]
      split <;> exact nofun

end Java

namespace Path

/-- A path has an extension of a list exactly if the last name of the path says so, but for the case of ASCII letters.
    That settles which paths are those of sources and which files the builder supports. So a folder in front does not
    count, nor do slashes and dots behind, nor the case of ASCII letters on either side; other letters have to be the
    same. -/
theorem extension_settles (extensions : List String) (path : String) :
    (hasExtension extensions path = true ↔ ∃ name ext wanted, EndsWith path name ∧ IsExtensionOf ext name ∧
      wanted ∈ extensions ∧ SameButCase wanted ext) ∧
    (∀ s : Settings, s.sourceExtensions = extensions → s.isSource path = hasExtension extensions path) ∧
    (∀ (parse : String → Option Java.Tree) (source : String) (f : FileId),
      Java.buildWith parse extensions ⟨path⟩ source = .error (.unsupported f) ↔
        hasExtension extensions path = false ∧ f = ⟨path⟩) ∧
    (∀ name, IsName name → hasExtension extensions (path ++ "/" ++ name) = hasExtension extensions name) ∧
    (∀ run, Trails run → hasExtension extensions (path ++ String.join run) = hasExtension extensions path) ∧
    (∀ extensions' path', List.Forall₂ SameButCase extensions extensions' → SameButCase path path' →
      hasExtension extensions' path' = hasExtension extensions path) ∧
    (∀ wanted ext, eqIgnoreCase wanted ext = true → ∀ (i : Nat) (x : Char), 128 ≤ x.toNat →
      (wanted.toList[i]? = some x ↔ ext.toList[i]? = some x)) := by
  refine ⟨hasExtension_iff, fun s hs => ?_, fun parse source f => Java.buildWith_eq_unsupported_iff,
    fun name hname => ?_, fun run hrun => ?_, fun extensions' path' hlisted hpath => ?_,
    fun wanted ext hsame i x hx => ?_⟩
  · rw [Settings.isSource, hs]
  · have hlast := fileName?_append_name (path ++ "/") (.inr ⟨path, rfl⟩) hname
    have halone := fileName?_append_name "" (.inl rfl) hname
    rw [String.empty_append] at halone
    exact hasExtension_of_fileName? (hlast.trans halone.symm)
  · exact hasExtension_of_fileName? (fileName?_append_trails path hrun)
  · rw [← hasExtension_of_listed hlisted, ← hasExtension_of_sameButCase hpath]
  · exact (SameButCase.eqIgnoreCase_iff.mp hsame).getElem? i hx

example : hasExtension ["Java"] "/src/../A.b.jaVA/./" = true := by cbv

/-- A name that ends with its dot has the empty extension, and one with its only dot in front has none. -/
example : hasExtension [""] "A." = true ∧ hasExtension ["java"] ".java" = false := ⟨by cbv, by cbv⟩

end Path

end Concordance
