/-!
# Finite double-precision numbers

A number with 53 significant binary digits is a sign, a significand and a power of two. Every
operation computes its exact result as a ratio of naturals and rounds it once, to the nearest number
and to the even neighbour at a tie; a result too large to hold is `none`.
-/

namespace ViewBinding.Number

/-- A power of two. -/
def twoPow (k : Nat) : Nat := Nat.pow 2 k

/-- A power of ten. -/
def tenPow (k : Nat) : Nat := Nat.pow 10 k

/-- The finite number `± significand · 2 ^ exponent`. The significand stays below `2 ^ 53` and is at
least `2 ^ 52` unless the exponent is the least one. -/
structure Double where
  /-- Whether the number is below zero, or the zero that lies below zero, `-0.0`. -/
  negative : Bool
  significand : Nat
  exponent : Int
deriving DecidableEq, Repr, Inhabited

namespace Double

/-- The power of two by which the smallest numbers count; no `exponent` is smaller. -/
def leastExponent : Int := -1074

/-- The power of two by which the largest numbers count. -/
def greatestExponent : Int := 971

/-- The zero of either sign; `same` does not tell them apart. -/
def zero (negative : Bool) : Double :=
  ⟨negative, 0, leastExponent⟩

/-- Whether the number is a zero. -/
def isZero (x : Double) : Bool :=
  x.significand == 0

/-- Equality of numbers: the two zeros are the same number. -/
def same (x y : Double) : Bool :=
  (x.isZero && y.isZero) || x == y

/-- A number that is the `same` as another one is the same as whatever that one is. -/
theorem same_congr {x y : Double} (h : x.same y = true) (z : Double) : x.same z = y.same z := by
  simp only [same, Bool.or_eq_true, Bool.and_eq_true, beq_iff_eq] at h
  rcases h with ⟨hx, hy⟩ | rfl
  · cases hz : z.isZero with
    | true => simp [same, hx, hy, hz]
    | false =>
      have hne : ∀ {a : Double}, a.isZero = true → (a == z) = false := fun {a} ha =>
        beq_eq_false_iff_ne.2 fun haz => absurd (ha.symm.trans (haz ▸ hz)) (by simp)
      simp [same, hz, hne hx, hne hy]
  · rfl

def num (x : Double) : Nat :=
  x.significand * twoPow x.exponent.toNat

def den (x : Double) : Nat :=
  twoPow (-x.exponent).toNat

/-! ## Rounding -/

/-- The quotient rounded to the nearest natural, a half going to the even neighbour. -/
def roundDiv (n d : Nat) : Nat :=
  let q := n / d
  let r := n % d
  if 2 * r < d ∨ (2 * r = d ∧ q % 2 = 0) then q else q + 1

/-- The quotient `num / den` counted in units of `2 ^ e`, rounded by `roundDiv`. -/
def countUnits (num den : Nat) (e : Int) : Nat :=
  roundDiv (num * twoPow (-e).toNat) (den * twoPow e.toNat)

/-- The power of two in whose units `num / den` has 53 binary digits before the point, or the least
power where there is none. -/
def unitOf (num den : Nat) : Int :=
  let e : Int := (num.log2 : Int) - den.log2 - 52
  let fits := den * twoPow 52 * twoPow e.toNat ≤ num * twoPow (-e).toNat
  max leastExponent (if fits then e else e - 1)

/-- The number nearest to `± num / den`; `none` beyond the largest number. -/
def ofRatio (negative : Bool) (num den : Nat) : Option Double :=
  if num = 0 then some (zero negative)
  else
    let e := unitOf num den
    let m := countUnits num den e
    let (m, e) := if m = twoPow 53 then (twoPow 52, e + 1) else (m, e)
    if e ≤ greatestExponent then some ⟨negative, m, e⟩ else none

/-- The number nearest to a natural, `none` if that is too large. -/
def ofNat (n : Nat) : Option Double :=
  ofRatio false n 1

/-! ## Arithmetic -/

/-- The number with its sign turned. -/
def neg (x : Double) : Double :=
  { x with negative := !x.negative }

/-- The rounded product, `none` if it is too large. -/
def mul (x y : Double) : Option Double :=
  ofRatio (x.negative != y.negative) (x.num * y.num) (x.den * y.den)

/-- The rounded quotient by a number other than zero, `none` if it is too large. -/
def div (x y : Double) : Option Double :=
  ofRatio (x.negative != y.negative) (x.num * y.den) (x.den * y.num)

/-- The number nearest to a power of ten (`tenPow`). -/
def powTen (k : Nat) : Option Double :=
  ofNat (tenPow k)

/-- The greatest power of ten below the largest number, and so the last that `powTen` answers. -/
def greatestPowTen : Nat := 308

/-- `x` times `10 ^ k`, one rounded operation at a time: one product or quotient by the nearest
power of ten, after quotients by `10 ^ 308` as long as the power is below `-308`. -/
def scaleTen (x : Double) (k : Int) : Option Double :=
  if k < -(greatestPowTen : Int) then
    if x.isZero then some x
    else do
      let y ← x.div (← powTen greatestPowTen)
      scaleTen y (k + greatestPowTen)
  else if k < 0 then do
    x.div (← powTen (-k).toNat)
  else if k ≤ greatestPowTen then do
    x.mul (← powTen k.toNat)
  else if x.isZero then some x
  else none
termination_by (-k).toNat
decreasing_by
  simp only [greatestPowTen] at *
  omega

end Double

end ViewBinding.Number
