import Concordance.Symbols.Stamp

/-! Stamps as numbers. The clock counts in `Nat` and hands out 64-bit words, so what is said of stamps
    holds as long as the count has a word of its own; every order between stamps is read off here. -/

namespace Concordance.Stamp

/-- The number that a stamp shows. -/
def toNat (s : Stamp) : Nat := s.value.toNat

variable {a b : Stamp} {n : Nat}

theorem lt_iff : a < b ↔ a.toNat < b.toNat := UInt64.lt_iff_toNat_lt

theorem le_iff : a ≤ b ↔ a.toNat ≤ b.toNat := UInt64.le_iff_toNat_le

theorem toNat_inj : a.toNat = b.toNat ↔ a = b := by
  constructor
  · intro h
    have hv : a.value = b.value := UInt64.toNat_inj.mp h
    cases a
    cases b
    exact congrArg Stamp.mk hv
  · rintro rfl
    rfl

/-- Stamps are ordered as their numbers: linearly. -/
instance : Std.IsLinearOrder Stamp where
  le_refl _ := le_iff.mpr (Nat.le_refl _)
  le_trans _ _ _ hab hbc := le_iff.mpr (Nat.le_trans (le_iff.mp hab) (le_iff.mp hbc))
  le_antisymm _ _ hab hba := toNat_inj.mp (Nat.le_antisymm (le_iff.mp hab) (le_iff.mp hba))
  le_total a b := (Nat.le_total a.toNat b.toNat).imp le_iff.mpr le_iff.mpr

instance : Std.LawfulOrderLT Stamp where
  lt_iff a b := by
    rw [lt_iff, le_iff, le_iff]
    omega

theorem toNat_nth (h : n < UInt64.size) : (nth n).toNat = n := UInt64.toNat_ofNat_of_lt' h

theorem next_nth (n : Nat) : (nth n).next = nth (n + 1) := by
  simp only [next, nth, UInt64.ofNat_add]
  rfl

/-- The order of the sets of stamps is the order of the numbers. -/
theorem isLE_compare : (compare a b).isLE = true ↔ a ≤ b := by
  show (compare a.value b.value).isLE = true ↔ a.value ≤ b.value
  rw [Std.isLE_compare]

theorem compare_eq_lt : compare a b = .lt ↔ a < b := by
  show compare a.value b.value = .lt ↔ a.value < b.value
  rw [Std.compare_eq_lt]

end Concordance.Stamp
