import ViewBinding.Json.Value
import ViewBinding.Number.Shortest
import ViewBinding.Text.Quoted

/-!
# JSON text of values

The compact form: no space between tokens, members in the order of their keys, strings with an
escape only where one is needed, and floats by their shortest decimal. `display` is the form in
which a view shows a value: a string stands for itself, and no value or null for nothing.
-/

namespace ViewBinding.Json

open ViewBinding.Number

/-! ## Strings -/

/-- One character as it stands in a JSON string: the quote, the backslash and what stands below `U+0020`
are escaped. -/
def escapeChar (c : Char) : List Char :=
  if c = '"' ∨ c = '\\' then ['\\', c]
  else if c = '\x08' then ['\\', 'b']
  else if c = '\x0c' then ['\\', 'f']
  else if c = '\n' then ['\\', 'n']
  else if c = '\r' then ['\\', 'r']
  else if c = '\t' then ['\\', 't']
  else if c.toNat < 0x20 then
    ['\\', 'u', '0', '0', Nat.digitChar (c.toNat / 16), Nat.digitChar (c.toNat % 16)]
  else [c]

/-- A string in quotes (`escapeChar`). -/
def stringChars (s : String) : List Char :=
  '"' :: (s.toList.flatMap escapeChar ++ ['"'])

/-! ## Numbers -/

/-- The least and the greatest power of ten of a first digit that is written without an exponent. -/
def positional : Int × Int := (-5, 15)

/-- The digits of a decimal with the point in its place, and a zero on either side where none stands, as in
`0.5`. -/
def positionalChars (d : Decimal) : List Char :=
  let digits := d.chars
  let whole := digits.length + d.exponent
  if 0 ≤ d.exponent then digits ++ List.replicate d.exponent.toNat '0' ++ ['.', '0']
  else if 0 < whole then digits.take whole.toNat ++ '.' :: digits.drop whole.toNat
  else '0' :: '.' :: List.replicate (-whole).toNat '0' ++ digits

/-- The digits of a decimal with the point after the first one, and the signed power of ten, as in
`1.5e+300`. -/
def scientificChars (d : Decimal) : List Char :=
  let mantissa := match d.chars with
    | c :: [] => [c]
    | c :: cs => c :: '.' :: cs
    | [] => []
  let sign := if d.leading < 0 then '-' else '+'
  mantissa ++ 'e' :: sign :: Nat.toDigits 10 d.leading.natAbs

/-- The text of a float: the digits of `Double.shortest`, positional or not. -/
def floatChars (x : Double) : List Char :=
  let d := x.shortest
  let sign := if x.negative then ['-'] else []
  if positional.1 ≤ d.leading ∧ d.leading ≤ positional.2 then sign ++ positionalChars d
  else sign ++ scientificChars d

def intChars (n : Int) : List Char :=
  if n < 0 then '-' :: Nat.toDigits 10 n.natAbs else Nat.toDigits 10 n.natAbs

/-! ## Values -/

namespace Value

mutual

/-- The compact JSON text of a value, as a list of characters. -/
def chars : Value → List Char
  | null => ['n', 'u', 'l', 'l']
  | bool true => ['t', 'r', 'u', 'e']
  | bool false => ['f', 'a', 'l', 's', 'e']
  | int n => intChars n
  | float x => floatChars x
  | string s => stringChars s
  | array [] => ['[', ']']
  | array (x :: xs) => '[' :: (chars x ++ itemsChars xs)
  | object [] => ['\x7b', '\x7d']
  | object ((k, v) :: ms) => '\x7b' :: (stringChars k ++ ':' :: (chars v ++ membersChars ms))

def itemsChars : List Value → List Char
  | [] => [']']
  | x :: xs => ',' :: (chars x ++ itemsChars xs)

def membersChars : List (String × Value) → List Char
  | [] => ['\x7d']
  | (k, v) :: ms => ',' :: (stringChars k ++ ':' :: (chars v ++ membersChars ms))

end

/-- The compact JSON text of a value, which `read` reads back. -/
def text (v : Value) : String :=
  String.ofList v.chars

/-- The form in which a view shows a value (`display_value`): a string as it is, any other value as JSON
text, no value and `null` as nothing. -/
def display : Option Value → String
  | none => ""
  | some null => ""
  | some (string s) => s
  | some v => v.text

end Value

end ViewBinding.Json
