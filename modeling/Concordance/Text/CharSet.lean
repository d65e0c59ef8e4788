/-!
Sets of characters as ascending, disjoint and inclusive ranges of code points. `CharSet.contains` is
the view; every operation returns ranges in that normal form.
-/

namespace Concordance

/-- A set of code points, written as ascending ranges that do not touch. -/
structure CharSet where
  ranges : List (Nat × Nat)
deriving DecidableEq, Repr, Inhabited

namespace CharSet

/-- The greatest code point. -/
def top : Nat := 0x10FFFF

def empty : CharSet := ⟨[]⟩

def range (low high : Nat) : CharSet := ⟨if low ≤ high then [(low, high)] else []⟩

def single (c : Char) : CharSet := range c.toNat c.toNat

def between (low high : Char) : CharSet := range low.toNat high.toNat

/-- Joins an ascending list of ranges wherever two overlap or touch. -/
def join : List (Nat × Nat) → List (Nat × Nat)
  | [] => []
  | (a, b) :: rest =>
    match join rest with
    | [] => [(a, b)]
    | (c, d) :: more => if c ≤ b + 1 then (a, max b d) :: more else (a, b) :: (c, d) :: more

/-- The set of the given ranges, in any order. -/
def ofRanges (rs : List (Nat × Nat)) : CharSet :=
  ⟨join (rs.mergeSort fun r s => r.1 ≤ s.1)⟩

def union (s t : CharSet) : CharSet := ofRanges (s.ranges ++ t.ranges)

instance : Append CharSet := ⟨union⟩

/-- The ranges between those of `rs`, from code point `start` on. -/
def gaps (start : Nat) : List (Nat × Nat) → List (Nat × Nat)
  | [] => if start ≤ top then [(start, top)] else []
  | (a, b) :: rest => if start < a then (start, a - 1) :: gaps (b + 1) rest else gaps (b + 1) rest

/-- Every code point that is not in the set. -/
def compl (s : CharSet) : CharSet := ⟨gaps 0 s.ranges⟩

def ofString (text : String) : CharSet := ofRanges (text.toList.map fun c => (c.toNat, c.toNat))

def contains (s : CharSet) (code : Nat) : Bool := s.ranges.any fun r => r.1 ≤ code && code ≤ r.2

end CharSet

end Concordance
