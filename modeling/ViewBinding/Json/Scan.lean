import ViewBinding.Text.Split

/-!
# Scanning JSON text

A scanner takes something off the front of a text, or says why it cannot. There are three reasons:
the text is not JSON, it ends too early, or it is JSON of another shape than the one wanted. The
first one in the order of the text is the one reported.
-/

namespace ViewBinding.Json

/-- Why a text cannot be read. Of the three only a `mismatch` has words of its own. -/
inductive Fault where
  | malformed
  | ended
  | mismatch (message : String)
deriving DecidableEq, Repr, Inhabited

/-- A scanner answers what it took off the front of a text, and the rest, or the first `Fault`. -/
abbrev Scan (α : Type) := List Char → Except Fault (α × List Char)

/-- Whether a character may stand between tokens. -/
def isSpace (c : Char) : Bool :=
  c == ' ' || c == '\t' || c == '\n' || c == '\r'

/-- The text from the next token on. -/
def skipSpace (cs : List Char) : List Char :=
  cs.dropWhile isSpace

/-- Takes the given characters off the front, such as those of `null`. -/
def keyword : List Char → Scan Unit
  | [], cs => .ok ((), cs)
  | _ :: _, [] => .error .ended
  | k :: ks, c :: cs => if k = c then keyword ks cs else .error .malformed

/-! ## Strings -/

/-- The value of a hexadecimal digit. -/
def hexDigit? (c : Char) : Option Nat :=
  if '0' ≤ c ∧ c ≤ '9' then some (c.toNat - '0'.toNat)
  else if 'a' ≤ c ∧ c ≤ 'f' then some (c.toNat - 'a'.toNat + 10)
  else if 'A' ≤ c ∧ c ≤ 'F' then some (c.toNat - 'A'.toNat + 10)
  else none

/-- The value of four hexadecimal digits (`hexDigit?`). -/
def hexFour? (a b c d : Char) : Option Nat := do
  return ((((← hexDigit? a) * 16 + (← hexDigit? b)) * 16 + (← hexDigit? c)) * 16 + (← hexDigit? d))

/-- The fault of an escape that lacks its four digits: the text has ended if it holds fewer than four more
bytes (`Text.byteLength`). -/
def hexFault (cs : List Char) : Fault :=
  if Text.byteLength cs < 4 then .ended else .malformed

/-- Takes four hexadecimal digits off the front. -/
def hexFour : Scan Nat
  | a :: b :: c :: d :: cs =>
    match hexFour? a b c d with
    | some n => .ok (n, cs)
    | none => .error .malformed
  | cs => .error (hexFault cs)

/-- Whether a number is the first half of a surrogate pair; it needs a low one behind it (`numberEscape`).
-/
def isHighSurrogate (n : Nat) : Bool := 0xD800 ≤ n && n ≤ 0xDBFF

/-- Whether a number is the second half of a surrogate pair. -/
def isLowSurrogate (n : Nat) : Bool := 0xDC00 ≤ n && n ≤ 0xDFFF

/-- The code point of a surrogate pair. -/
def joinSurrogates (high low : Nat) : Nat :=
  0x10000 + (high - 0xD800) * 0x400 + (low - 0xDC00)

/-- The character of an escape by a single letter, such as `
`. -/
def shortEscape? (c : Char) : Option Char :=
  if c = '"' ∨ c = '\\' ∨ c = '/' then some c
  else if c = 'b' then some '\x08'
  else if c = 'f' then some '\x0c'
  else if c = 'n' then some '\n'
  else if c = 'r' then some '\r'
  else if c = 't' then some '\t'
  else none

/-- Takes the digits of an escape by number off the front, and with a high surrogate the escape of its low
one (`joinSurrogates`). -/
def numberEscape : Scan Char := fun cs => do
  let (n, rest) ← hexFour cs
  if isLowSurrogate n then .error .malformed
  else if isHighSurrogate n then
    match rest with
    | [] => .error .ended
    | ['\\'] => .error .ended
    | '\\' :: 'u' :: rest => do
      let (low, rest) ← hexFour rest
      if isLowSurrogate low then .ok (Char.ofNat (joinSurrogates n low), rest)
      else .error .malformed
    | _ => .error .malformed
  else .ok (Char.ofNat n, rest)

/-- Takes an escape, after its backslash, off the front (`shortEscape?`, `numberEscape`). -/
def escape : Scan Char
  | [] => .error .ended
  | 'u' :: cs => numberEscape cs
  | c :: cs =>
    match shortEscape? c with
    | some d => .ok (d, cs)
    | none => .error .malformed

/-- Takes the rest of a string, after its opening quote, off the front. The fuel bounds the number
of characters. -/
def stringTail : Nat → Scan (List Char)
  | 0, _ => .error .ended
  | _ + 1, [] => .error .ended
  | _ + 1, '"' :: cs => .ok ([], cs)
  | fuel + 1, '\\' :: cs => do
    let (c, cs) ← escape cs
    let (s, cs) ← stringTail fuel cs
    .ok (c :: s, cs)
  | fuel + 1, c :: cs =>
    if c.toNat < 0x20 then .error .malformed
    else do
      let (s, cs) ← stringTail fuel cs
      .ok (c :: s, cs)

/-- Takes the rest of a string, after its opening quote, off the front (`stringTail`). -/
def string : Scan String := fun cs => do
  let (s, rest) ← stringTail (cs.length + 1) cs
  .ok (String.ofList s, rest)

/-- Passes over the rest of a string. A skipped string needs whole escapes, but not paired surrogates as
`string` does. -/
def skipStringTail : Nat → Scan Unit
  | 0, _ => .error .ended
  | _ + 1, [] => .error .ended
  | _ + 1, '"' :: cs => .ok ((), cs)
  | fuel + 1, '\\' :: 'u' :: cs => do
    let (_, cs) ← hexFour cs
    skipStringTail fuel cs
  | _ + 1, ['\\'] => .error .ended
  | fuel + 1, '\\' :: c :: cs =>
    if (shortEscape? c).isSome then skipStringTail fuel cs else .error .malformed
  | fuel + 1, c :: cs =>
    if c.toNat < 0x20 then .error .malformed else skipStringTail fuel cs

/-- Passes over the rest of a string (`skipStringTail`). -/
def skipString : Scan Unit := fun cs => skipStringTail (cs.length + 1) cs

end ViewBinding.Json
