import Concordance.Decimal.Shortest
import Concordance.Json.Reader

/-!
Numbers. An integer of at most 64 bits is exact; any other number is a double, and is known by its
shortest text.
-/

namespace Concordance.Json

inductive Number where
  | natural (value : UInt64)
  /-- The number below zero of that size. -/
  | negative (size : UInt64)
  | float (value : Float)

namespace Number

def found : Number → Found
  | natural n => .integer n.toNat
  | negative n => .integer (-n.toNat)
  | float x => .float (Decimal.text x)

end Number

namespace Reader

/-- The digits that fit into a word after a number, the number then, and how many digits were left. -/
def gather (n : Nat) : List UInt8 → Nat × Nat
  | [] => (n, 0)
  | d :: rest =>
    let next := n * 10 + digitValue d
    if next < 0x10000000000000000 then gather next rest else (n, rest.length + 1)

/-- The double nearest to a power of ten. -/
def powerOfTen (n : Nat) : Float := Float.ofScientific 1 false n

/-- The double `n · 10^exponent`, scaled by one power of ten after the other. -/
def scaled : Nat → Float → Int → Option Float
  | 0, _, _ => none
  | fuel + 1, f, exponent =>
    if exponent.natAbs ≤ 308 then
      if 0 ≤ exponent then
        let f := f * powerOfTen exponent.natAbs
        if f.isInf then none else some f
      else some (f / powerOfTen exponent.natAbs)
    else if f == 0.0 then some f
    else if 0 ≤ exponent then none
    else scaled fuel (f / powerOfTen 308) (exponent + 308)

/-- A number with a sign, a significand and an exponent. -/
def floating (positive : Bool) (significand : Nat) (exponent : Int) : Reader Number :=
  match scaled (exponent.natAbs / 308 + 2) significand.toUInt64.toFloat exponent with
  | some f => pure (.float (if positive then f else -f))
  | none => failHere .numberOutOfRange

/-- The greatest exponent that can be written. -/
def exponentLimit : Nat := 2147483647

/-- The digits of an exponent up to the one that makes it too great. -/
def gatherExponent (n : Nat) : List UInt8 → Option Nat
  | [] => some n
  | d :: rest =>
    let next := n * 10 + digitValue d
    if next ≤ exponentLimit then gatherExponent next rest else none

/-- How many digits of an exponent there are up to the one that makes it too great. -/
def exponentReach (n : Nat) : List UInt8 → Nat
  | [] => 0
  | d :: rest =>
    let next := n * 10 + digitValue d
    if next ≤ exponentLimit then exponentReach next rest + 1 else 1

/-- The rest of a number from the `e` on. -/
def exponentPart (positive : Bool) (significand : Nat) (before : Int) : Reader Number := do
  pass
  let sign ← peek
  if sign = some 43 ∨ sign = some 45 then pass
  match ← peek with
  | none => failHere .endInValue
  | some b =>
    if !isDigit b then
      pass
      failHere .invalidNumber
    else
      let rest ← get
      let ds ← digits
      match gatherExponent 0 ds with
      | some e => floating positive significand (if sign = some 45 then before - e else before + e)
      | none =>
        if significand ≠ 0 ∧ sign ≠ some 45 then
          set (rest.drop (exponentReach 0 ds))
          failHere .numberOutOfRange
        else pure (.float (if positive then 0.0 else -0.0))

def isExponentMark (b : Option UInt8) : Bool := b = some 101 || b = some 69

/-- The rest of a number from the point on. -/
def fraction (positive : Bool) (significand : Nat) (before : Int) : Reader Number := do
  pass
  let ds ← digits
  if ds.isEmpty then
    failNext (if (← peek).isNone then .endInValue else .invalidNumber)
  else
    let (significand, unread) := gather significand ds
    let exponent := before - (ds.length - unread)
    if isExponentMark (← peek) then exponentPart positive significand exponent
    else floating positive significand exponent

/-- The number of some integer digits. -/
def integral (positive : Bool) (n : Nat) : Number :=
  if positive then .natural n.toUInt64
  else if n = 0 ∨ 0x8000000000000000 < n then .float (-n.toUInt64.toFloat)
  else .negative n.toUInt64

/-- The integer digits of a number, the first of which is known. A zero stands alone. -/
def integerDigits (first : UInt8) : Reader (List UInt8) := do
  if first = 48 then
    pass
    pure [first]
  else digits

/-- A number whose sign has been passed. -/
def number (positive : Bool) : Reader Number := do
  match ← peek with
  | none => failHere .endInValue
  | some b =>
    if !isDigit b then
      pass
      failHere .invalidNumber
    else
      let ds ← integerDigits b
      if b = 48 && (← peek).any isDigit then failNext .invalidNumber
      else
        let (significand, unread) := gather 0 ds
        let next ← peek
        if next = some 46 then fraction positive significand unread
        else if isExponentMark next then exponentPart positive significand unread
        else if unread = 0 then pure (integral positive significand)
        else floating positive significand unread

end Reader

end Concordance.Json
