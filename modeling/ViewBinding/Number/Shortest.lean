import ViewBinding.Number.Double

/-!
# The shortest decimal of a number

A decimal reads back as a number when it lies between the midpoints to the number's neighbours, or
on one of them if the significand is even. `shortest` is the decimal of fewest digits that does,
and of those the nearest to the number.
-/

namespace ViewBinding.Number

/-- The decimal `digits · 10 ^ exponent`. -/
structure Decimal where
  digits : Nat
  exponent : Int
deriving DecidableEq, Repr, Inhabited

namespace Decimal

/-- The decimal without zeros at its end; the fuel bounds how many are taken away. -/
def stripZeros : Nat → Decimal → Decimal
  | 0, d => d
  | fuel + 1, d =>
    if d.digits ≠ 0 ∧ d.digits % 10 = 0 then stripZeros fuel ⟨d.digits / 10, d.exponent + 1⟩ else d

/-- The digits of the decimal as characters. -/
def chars (d : Decimal) : List Char :=
  Nat.toDigits 10 d.digits

/-- The power of ten of the first digit, by which `Value.floatChars` chooses the form. -/
def leading (d : Decimal) : Int :=
  d.exponent + d.chars.length - 1

end Decimal

namespace Double

/-- Compares `c · 10 ^ s` with `u · 2 ^ e`. -/
def compareScaled (c : Nat) (s : Int) (u : Nat) (e : Int) : Ordering :=
  compare (c * tenPow s.toNat * twoPow (-e).toNat) (u * twoPow e.toNat * tenPow (-s).toNat)

/-- Whether the decimal `c · 10 ^ s` reads back as the magnitude of `x`. In quarters of the unit the
number is `4 m`, the midpoint above is `4 m + 2`, and the one below is `4 m - 2`, or `4 m - 1` where
the neighbour below counts in halves of the unit. -/
def readsBack (x : Double) (c : Nat) (s : Int) : Bool :=
  let m := x.significand
  let below := if m = twoPow 52 ∧ leastExponent < x.exponent then 4 * m - 1 else 4 * m - 2
  let low := compareScaled c s below (x.exponent - 2)
  let high := compareScaled c s (4 * m + 2) (x.exponent - 2)
  if m % 2 = 0 then low != .lt && high != .gt else low == .gt && high == .lt

/-- The least `k ≤ fuel` with `den ≤ num · 10 ^ k`. -/
def leadingZeros (num den : Nat) : Nat → Nat
  | 0 => 0
  | fuel + 1 => if den ≤ num then 0 else leadingZeros (num * 10) den fuel + 1

/-- The power of ten of the first digit of the number's magnitude (`num`, `den`). -/
def magnitude (x : Double) : Int :=
  let n := x.num / x.den
  if n = 0 then -(leadingZeros x.num x.den 330 : Int) else (Nat.toDigits 10 n).length - 1

/-- The decimal on the grid of `10 ^ s` nearest to the number, if it or its neighbour on the other
side of the number reads back. -/
def onGrid (x : Double) (s : Int) : Option Decimal :=
  let scaled := x.num * tenPow (-s).toNat
  let unit := x.den * tenPow s.toNat
  let c := scaled / unit
  let nearest := roundDiv scaled unit
  let other := if nearest = c then c + 1 else c
  if x.readsBack nearest s then some ⟨nearest, s⟩
  else if x.readsBack other s then some ⟨other, s⟩
  else none

/-- The first of the grids of `n`, `n + 1`, … significant digits on which a decimal reads back. -/
def onGridFrom (x : Double) (n : Nat) : Nat → Decimal
  | 0 => ⟨x.num, 0⟩
  | fuel + 1 =>
    match x.onGrid (x.magnitude - n + 1) with
    | some d => d
    | none => onGridFrom x (n + 1) fuel

/-- The shortest decimal that reads back as the magnitude of `x`. Seventeen digits always do. -/
def shortest (x : Double) : Decimal :=
  if x.isZero then ⟨0, 0⟩ else Decimal.stripZeros 20 (x.onGridFrom 1 17)

end Double

end ViewBinding.Number
