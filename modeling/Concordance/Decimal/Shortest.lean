/-!
The shortest decimal that reads back as a binary number. A double is `m · 2^q`; the decimals that round
to it fill an interval around it, whose ends belong to it exactly if `m` is even. The decimal looked for
has the fewest digits of all in the interval, and of those it is the nearest.
-/

namespace Concordance.Decimal

/-- The number `digits · 10^exponent`. -/
structure Scaled where
  digits : Nat
  exponent : Int
deriving DecidableEq, Repr, Inhabited

/-- A positive double as `mantissa · 2^exponent`; `lowered` tells that the next smaller double is only
half as far away as the next greater one. -/
structure Binary where
  mantissa : Nat
  exponent : Int
  lowered : Bool
deriving DecidableEq, Repr, Inhabited

/-- A ratio of natural numbers. -/
structure Ratio where
  num : Nat
  den : Nat
deriving DecidableEq, Repr, Inhabited

namespace Ratio

def ofPower (base n : Nat) (e : Int) : Ratio :=
  if 0 ≤ e then ⟨n * base.pow e.toNat, 1⟩ else ⟨n, base.pow (-e).toNat⟩

def lt (a b : Ratio) : Bool := a.num * b.den < b.num * a.den

def le (a b : Ratio) : Bool := a.num * b.den ≤ b.num * a.den

/-- The distance of two ratios. -/
def distance (a b : Ratio) : Ratio :=
  ⟨(a.num * b.den - b.num * a.den) + (b.num * a.den - a.num * b.den), a.den * b.den⟩

/-- A ratio divided by a power of ten. -/
def perPowerOfTen (a : Ratio) (e : Int) : Ratio :=
  if 0 ≤ e then ⟨a.num, a.den * Nat.pow 10 e.toNat⟩ else ⟨a.num * Nat.pow 10 (-e).toNat, a.den⟩

/-- The exponent of the first digit, by trying one power after the other. -/
def magnitudeFrom (a : Ratio) : Nat → Int → Int
  | 0, e => e
  | fuel + 1, e => if (ofPower 10 1 e).le a then e else a.magnitudeFrom fuel (e - 1)

end Ratio

namespace Binary

def value (b : Binary) : Ratio := .ofPower 2 b.mantissa b.exponent

/-- The lower end of the interval. -/
def low (b : Binary) : Ratio :=
  if b.lowered then .ofPower 2 (4 * b.mantissa - 1) (b.exponent - 2)
  else .ofPower 2 (2 * b.mantissa - 1) (b.exponent - 1)

/-- The upper end of the interval. -/
def high (b : Binary) : Ratio := .ofPower 2 (2 * b.mantissa + 1) (b.exponent - 1)

/-- Whether a decimal rounds to the number. -/
def holds (b : Binary) (d : Scaled) : Bool :=
  let r := Ratio.ofPower 10 d.digits d.exponent
  if b.mantissa % 2 = 0 then b.low.le r && r.le b.high else b.low.lt r && r.lt b.high

/-- The nearest decimal on the grid of a power of ten that rounds to the number. -/
def onGrid? (b : Binary) (e : Int) : Option Scaled :=
  let scaled := b.value.perPowerOfTen e
  let below : Scaled := ⟨scaled.num / scaled.den, e⟩
  let above : Scaled := ⟨scaled.num / scaled.den + 1, e⟩
  let far (d : Scaled) := (Ratio.ofPower 10 d.digits d.exponent).distance b.value
  match b.holds below, b.holds above with
  | true, true => some (if (far above).lt (far below) then above else below)
  | true, false => some below
  | false, true => some above
  | false, false => none

/-- The shortest decimal that rounds to the number. -/
def shortest (b : Binary) : Scaled :=
  let first := b.value.magnitudeFrom 700 310
  let grids := (List.range 18).map fun (n : Nat) => first - (n : Int)
  (grids.findSome? b.onGrid?).getD ⟨b.value.num / b.value.den, 0⟩

/-- The binary number of a positive double's bits. -/
def ofBits (bits : UInt64) : Binary :=
  let fraction := (bits &&& 0xfffffffffffff).toNat
  let exponent := ((bits >>> 52) &&& 0x7ff).toNat
  if exponent = 0 then ⟨fraction, -1074, false⟩
  else ⟨fraction + 0x10000000000000, (exponent : Int) - 1075, fraction = 0 && exponent > 1⟩

end Binary

/-- A decimal without the zeros at its end. -/
def Scaled.trim : Nat → Scaled → Scaled
  | 0, d => d
  | fuel + 1, d =>
    if d.digits ≠ 0 ∧ d.digits % 10 = 0 then Scaled.trim fuel ⟨d.digits / 10, d.exponent + 1⟩ else d

/-- The text of a finite double: positional from `10^-5` up to `10^16`, otherwise with an exponent that
has its sign; a whole number ends in `.0`. -/
def text (x : Float) : String :=
  let bits := x.toBits
  let sign := if bits >>> 63 = 1 then "-" else ""
  if bits <<< 1 = 0 then sign ++ "0.0" else
  let d := (Binary.ofBits bits).shortest.trim 20
  let digits := toString d.digits
  let point := d.exponent + digits.length
  let zeros (n : Int) := String.ofList (List.replicate n.toNat '0')
  if 0 < point ∧ point ≤ 16 then
    if 0 ≤ d.exponent then sign ++ digits ++ zeros d.exponent ++ ".0"
    else sign ++ (digits.take point.toNat).toString ++ "." ++ (digits.drop point.toNat).toString
  else if -5 < point ∧ point ≤ 0 then sign ++ "0." ++ zeros (-point) ++ digits
  else
    let tail := if digits.length = 1 then "" else "." ++ (digits.drop 1).toString
    let e := point - 1
    sign ++ (digits.take 1).toString ++ tail ++ (if 0 ≤ e then "e+" else "e-") ++ toString e.natAbs

end Concordance.Decimal
