import Std.Data.ExtTreeSet

/-!
Logical time: a clock hands out stamps one after another, so that of two events the later one has the
greater stamp. Stamps are 64-bit words.
-/

namespace Concordance

structure Stamp where
  value : UInt64
deriving DecidableEq, Repr, Inhabited

namespace Stamp

instance : Ord Stamp := ⟨compareOn value⟩

instance : Std.TransOrd Stamp := inferInstanceAs (Std.TransCmp (compareOn Stamp.value))

instance : Std.LawfulEqOrd Stamp where
  eq_of_compare {a b} h := by
    have : a.value = b.value := (inferInstance : Std.LawfulEqOrd UInt64).eq_of_compare h
    cases a
    cases b
    simp_all

instance : LT Stamp := ⟨fun a b => a.value < b.value⟩

instance : LE Stamp := ⟨fun a b => a.value ≤ b.value⟩

instance (a b : Stamp) : Decidable (a < b) := inferInstanceAs (Decidable (a.value < b.value))

instance (a b : Stamp) : Decidable (a ≤ b) := inferInstanceAs (Decidable (a.value ≤ b.value))

/-- The stamp that a clock hands out as its `n`-th. -/
def nth (n : Nat) : Stamp := ⟨UInt64.ofNat n⟩

def zero : Stamp := nth 0

def next (s : Stamp) : Stamp := ⟨s.value + 1⟩

instance : ToString Stamp := ⟨fun s => "#" ++ toString s.value.toNat⟩

end Stamp

end Concordance
