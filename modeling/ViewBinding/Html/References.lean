import ViewBinding.Html.NamedReferences

/-!
# Character references

A reference is an ampersand and either a name or a number. A name is the longest one that the text
goes on with, most of them with a semicolon behind; a number may do without. What is no reference
stays as it is. In an attribute value, a name without a semicolon in front of an equals sign, a
letter or a digit is no reference.
-/

namespace ViewBinding.Html

/-- The character that stands for one that cannot be had. -/
def replacement : Char := '\ufffd'

def isNameChar (c : Char) : Bool :=
  c.isAlphanum

/-! ## Numbers -/

/-- The value of a digit in the given base. -/
def digitIn? (base : Nat) (c : Char) : Option Nat :=
  let d :=
    if '0' ≤ c ∧ c ≤ '9' then some (c.toNat - '0'.toNat)
    else if 'a' ≤ c ∧ c ≤ 'f' then some (c.toNat - 'a'.toNat + 10)
    else if 'A' ≤ c ∧ c ≤ 'F' then some (c.toNat - 'A'.toNat + 10)
    else none
  d.filter (· < base)

/-- What the numbers from 0x80 to 0x9f stand for, by the code page in which they are letters; 0 for those
that stand for themselves (`numbered`). -/
def codePage : List Nat :=
  [0x20ac, 0, 0x201a, 0x0192, 0x201e, 0x2026, 0x2020, 0x2021, 0x02c6, 0x2030, 0x0160, 0x2039,
    0x0152, 0, 0x017d, 0, 0, 0x2018, 0x2019, 0x201c, 0x201d, 0x2022, 0x2013, 0x2014, 0x02dc,
    0x2122, 0x0161, 0x203a, 0x0153, 0, 0x017e, 0x0178]

/-- The character that a number refers to, `replacement` for what is no character. -/
def numbered (n : Nat) : Char :=
  if n = 0 ∨ 0x10ffff < n ∨ (0xd800 ≤ n ∧ n ≤ 0xdfff) then replacement
  else if 0x80 ≤ n ∧ n ≤ 0x9f then
    match codePage.getD (n - 0x80) 0 with
    | 0 => Char.ofNat n
    | m => Char.ofNat m
  else Char.ofNat n

/-- The text without a semicolon in front. -/
def dropSemicolon : List Char → List Char
  | ';' :: cs => cs
  | cs => cs

/-- Whether a character is a digit in the given base. -/
def isDigitIn (base : Nat) (c : Char) : Bool :=
  (digitIn? base c).isSome

/-- Reads the digits of a number in the given base: the character (`numbered`), and the rest. -/
def number? (base : Nat) (cs : List Char) : Option (List Char × List Char) :=
  match cs.takeWhile (isDigitIn base) with
  | [] => none
  | run =>
    let n := run.foldl (fun n c => n * base + (digitIn? base c).getD 0) 0
    some ([numbered n], dropSemicolon (cs.dropWhile (isDigitIn base)))

/-! ## Names -/

/-- The text that a name stands for (`namedReferences`). -/
def named? (name : List Char) : Option (List Char) :=
  (namedReferences.find? fun entry => entry.1.toList = name).map fun entry => entry.2.toList

/-- The longest of the first `n` starts of the run that is a name without need of a semicolon: what
it stands for, and how long it is. -/
def bareStart? (run : List Char) : Nat → Option (List Char × Nat)
  | 0 => none
  | n + 1 =>
    let name := run.take (n + 1)
    if bareNames.any fun b => b.toList = name then
      (named? name).map fun text => (text, n + 1)
    else bareStart? run n

/-- The length of the longest of the `bareNames`. -/
def longestBareName : Nat := 6

/-- Whether a name without a semicolon is refused in an attribute value because of what follows: in
`?a=1&lt=2` nothing is meant. -/
def goesOn : List Char → Bool
  | c :: _ => c == '=' || isNameChar c
  | [] => false

/-- Reads a reference by name, after the ampersand: a name with its semicolon (`named?`), or else one that
needs none (`bareStart?`). -/
def name? (inValue : Bool) (cs : List Char) : Option (List Char × List Char) :=
  let run := cs.takeWhile isNameChar
  let bare :=
    match bareStart? run (min run.length longestBareName) with
    | some (text, n) =>
      if inValue && goesOn (cs.drop n) then none else some (text, cs.drop n)
    | none => none
  match cs.dropWhile isNameChar with
  | ';' :: rest =>
    match named? run with
    | some text => some (text, rest)
    | none => bare
  | _ => bare

/-- Reads a reference, after the ampersand: what it stands for, and the rest. It goes by `number?` or by
`name?`. -/
def reference? (inValue : Bool) : List Char → Option (List Char × List Char)
  | '#' :: 'x' :: cs => number? 16 cs
  | '#' :: 'X' :: cs => number? 16 cs
  | '#' :: cs => number? 10 cs
  | cs => name? inValue cs

def digitsUnclosed (base : Nat) (cs : List Char) : Bool :=
  cs.head?.any (isDigitIn base) && (cs.dropWhile (isDigitIn base)).head? != some ';'

/-- Whether the text after an ampersand is a reference by number that lacks its semicolon
(`digitsUnclosed`). -/
def isUnclosed : List Char → Bool
  | '#' :: 'x' :: cs => digitsUnclosed 16 cs
  | '#' :: 'X' :: cs => digitsUnclosed 16 cs
  | '#' :: cs => digitsUnclosed 10 cs
  | _ => false

/-! ## Texts -/

/-- The text with every reference replaced by what it stands for. The fuel bounds the length. -/
def resolveFrom (inValue : Bool) : Nat → List Char → List Char
  | 0, cs => cs
  | _ + 1, [] => []
  | fuel + 1, c :: cs =>
    if c = '&' then
      match reference? inValue cs with
      | some (text, rest) => text ++ resolveFrom inValue fuel rest
      | none => c :: resolveFrom inValue fuel cs
    else c :: resolveFrom inValue fuel cs

/-- The text with every reference replaced by what it stands for (`resolveFrom`). -/
def resolve (inValue : Bool) (cs : List Char) : List Char :=
  resolveFrom inValue cs.length cs

end ViewBinding.Html
