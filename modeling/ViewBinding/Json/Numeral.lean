import ViewBinding.Json.Scan
import ViewBinding.Json.Value

/-!
# Numerals

An integer literal that fits in 64 bits is an integer, apart from a negative zero, which is a float.
Every other numeral is a float: its digits, up to the last that fit in 64 bits, are taken as one
natural, rounded to a float, and scaled by the power of ten (`Double.scaleTen`); further digits only
count. A numeral beyond the largest float is not accepted.
-/

namespace ViewBinding.Json

open ViewBinding.Number

/-- The greatest number of 64 bits. -/
def maxWord : Nat := twoPow 64 - 1

def maxExponent : Nat := twoPow 31 - 1

def digit (c : Char) : Nat :=
  c.toNat - '0'.toNat

/-- The digits taken so far as one natural, and the power of ten by which it counts. -/
structure Digits where
  /-- The digits that fit in 64 bits (`Digits.fits`). -/
  significand : Nat
  /-- The number of digits left out, or minus the number of decimals taken. -/
  exponent : Int

namespace Digits

/-- Whether one more digit fits, so that the significand stays within `maxWord`. -/
def fits (ds : Digits) (c : Char) : Bool :=
  ds.significand * 10 + digit c ≤ maxWord

/-- Takes in a run of digits. Each digit taken adds `taken` to the exponent; from the first one that
does not fit, each adds `left`. -/
def push (taken left : Int) (ds : Digits) : List Char → Digits
  | [] => ds
  | c :: cs =>
    if ds.fits c then push taken left ⟨ds.significand * 10 + digit c, ds.exponent + taken⟩ cs
    else ⟨ds.significand, ds.exponent + left * (cs.length + 1)⟩

end Digits

/-- The float of the digits times a power of ten (`Double.scaleTen`). -/
def scaled (negative : Bool) (ds : Digits) (exponent : Int) : Except Fault Value := do
  match (Double.ofNat ds.significand).bind (·.scaleTen (ds.exponent + exponent)) with
  | some x => .ok (.float (if negative then x.neg else x))
  | none => .error .malformed

/-- Reads the exponent of a numeral, after its letter, and answers the float. An exponent larger than
`maxExponent` stands for zero if it is negative or the digits are zeros. -/
def exponentPart (negative : Bool) (ds : Digits) : Scan Value := fun cs => do
  let (below, cs) := match cs with
    | '+' :: rest => (false, rest)
    | '-' :: rest => (true, rest)
    | _ => (false, cs)
  match cs with
  | [] => .error .ended
  | c :: _ =>
    if !c.isDigit then .error .malformed
    else
      let run := cs.takeWhile Char.isDigit
      let rest := cs.dropWhile Char.isDigit
      let e := run.foldl (fun n c => n * 10 + digit c) 0
      if maxExponent < e then
        if ds.significand ≠ 0 ∧ !below then .error .malformed
        else .ok (.float (Double.zero negative), rest)
      else .ok (← scaled negative ds (if below then -(e : Int) else e), rest)

/-- Answers the float of the digits (`scaled`), with the exponent that follows them if there is one. -/
def afterDigits (negative : Bool) (ds : Digits) : Scan Value
  | 'e' :: cs => exponentPart negative ds cs
  | 'E' :: cs => exponentPart negative ds cs
  | cs => do .ok (← scaled negative ds 0, cs)

/-- Reads the decimals of a numeral, after its point, and answers the float; at least one has to be there.
-/
def decimals (negative : Bool) (ds : Digits) : Scan Value
  | [] => .error .ended
  | c :: cs =>
    if !c.isDigit then .error .malformed
    else
      let run := (c :: cs).takeWhile Char.isDigit
      afterDigits negative (ds.push (-1) 0 run) ((c :: cs).dropWhile Char.isDigit)

/-- The value of an integer literal of 64 bits; `-0`, and what is below the signed ones, is a float. -/
def integerValue (negative : Bool) (n : Nat) : Value :=
  if !negative then .int n
  else if n = 0 ∨ twoPow 63 < n then
    .float (((Double.ofNat n).getD (Double.zero false)).neg)
  else .int (-n)

/-- Reads what follows the digits before the point: `decimals`, an exponent, or nothing. -/
def afterInteger (negative : Bool) (ds : Digits) : Scan Value
  | '.' :: cs => decimals negative ds cs
  | 'e' :: cs => exponentPart negative ds cs
  | 'E' :: cs => exponentPart negative ds cs
  | cs =>
    if ds.exponent = 0 then .ok (integerValue negative ds.significand, cs)
    else do .ok (← scaled negative ds 0, cs)

/-- Takes a numeral, after its sign, off the front. No digit may follow a leading zero. -/
def numeral (negative : Bool) : Scan Value
  | [] => .error .ended
  | '0' :: cs =>
    match cs with
    | c :: _ => if c.isDigit then .error .malformed else afterInteger negative ⟨0, 0⟩ cs
    | [] => afterInteger negative ⟨0, 0⟩ cs
  | c :: cs =>
    if !c.isDigit then .error .malformed
    else
      let run := (c :: cs).takeWhile Char.isDigit
      afterInteger negative (Digits.push 0 1 ⟨0, 0⟩ run) ((c :: cs).dropWhile Char.isDigit)

/-! ## Passing over a numeral -/

/-- Passes over a run of at least one digit. -/
def skipDigits : Scan Unit
  | [] => .error .malformed
  | c :: cs => if c.isDigit then .ok ((), cs.dropWhile Char.isDigit) else .error .malformed

/-- Passes over an exponent, after its letter. -/
def skipExponent : Scan Unit
  | '+' :: cs => skipDigits cs
  | '-' :: cs => skipDigits cs
  | cs => skipDigits cs

/-- Passes over what follows the digits before the point: decimals, or else an exponent (`skipExponent`).
-/
def skipFraction : Scan Unit
  | '.' :: cs => do
    let ((), cs) ← skipDigits cs
    match cs with
    | 'e' :: cs => skipExponent cs
    | 'E' :: cs => skipExponent cs
    | _ => .ok ((), cs)
  | 'e' :: cs => skipExponent cs
  | 'E' :: cs => skipExponent cs
  | cs => .ok ((), cs)

/-- Passes over a numeral, after its sign. Its size does not count, unlike in `numeral`. -/
def skipNumeral : Scan Unit
  | '0' :: cs =>
    match cs with
    | c :: _ => if c.isDigit then .error .malformed else skipFraction cs
    | [] => .ok ((), cs)
  | cs => do
    let ((), cs) ← skipDigits cs
    skipFraction cs

end ViewBinding.Json
