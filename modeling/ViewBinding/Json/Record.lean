import ViewBinding.Json.Reader
import ViewBinding.Json.Printer

/-!
# Reading records from JSON text

Scanners for values of a known shape: texts, single characters, pairs, optional values, and records.
A record stands in the text as an object with its fields in any order, or as an array of them in
their own order. Members that are no field of the record are passed over; a field given twice is
refused when its name is met the second time.
-/

namespace ViewBinding.Json

/-! ## Values of another shape -/

/-- The message for a value of another kind than the one wanted. -/
def invalidType (found expected : String) : Fault :=
  .mismatch ("invalid type: " ++ found ++ ", expected " ++ expected)

/-- The message for a value of the right kind that is not allowed. -/
def invalidValue (found expected : String) : Fault :=
  .mismatch ("invalid value: " ++ found ++ ", expected " ++ expected)

/-- The message for an array with too few items. -/
def invalidLength (length : Nat) (expected : String) : Fault :=
  .mismatch ("invalid length " ++ toString length ++ ", expected " ++ expected)

/-- A value inside a message: of a sequence or a map only that, of any other value what it is. -/
def inMessage : Value → String
  | .null => "null"
  | .bool b => "boolean `" ++ (if b then "true" else "false") ++ "`"
  | .int n => "integer `" ++ String.ofList (intChars n) ++ "`"
  | .float x => "floating point `" ++ String.ofList (floatChars x) ++ "`"
  | .string s => "string " ++ Text.quoted s
  | .array _ => "sequence"
  | .object _ => "map"

/-- What is wrong with a value of the wrong kind that starts the text (`invalidType`). An array or object
is refused at its first character; any other value has to be whole. -/
def wrongType (expected : String) (cs : List Char) : Fault :=
  match cs with
  | '[' :: _ => invalidType "sequence" expected
  | '\x7b' :: _ => invalidType "map" expected
  | cs =>
    match value 0 cs with
    | .ok (v, _) => invalidType (inMessage v) expected
    | .error fault => fault

/-! ## Simple shapes -/

/-- Takes a string off the front; `expected` names what is wanted where there is none. -/
def stringAs (expected : String) : Scan String := fun cs =>
  match skipSpace cs with
  | [] => .error .ended
  | '"' :: rest => string rest
  | cs => .error (wrongType expected cs)

/-- Takes a text off the front (`stringAs`). -/
def text : Scan String := stringAs "a string"

/-- Takes a string of one character off the front, such as `modifierSeparator`. -/
def character : Scan Char := fun cs => do
  let (s, rest) ← stringAs "a character" cs
  match s.toList with
  | [c] => .ok (c, rest)
  | _ => .error (invalidValue ("string " ++ Text.quoted s) "a character")

/-- Takes a value off the front that may be `null`. -/
def optional {α : Type} (scan : Scan α) : Scan (Option α) := fun cs =>
  match skipSpace cs with
  | 'n' :: rest => do
    let ((), rest) ← keyword ['u', 'l', 'l'] rest
    .ok (none, rest)
  | cs => do
    let (a, rest) ← scan cs
    .ok (some a, rest)

/-- Moves to the next item of an array: `none` at the closing bracket. -/
def nextItem (first : Bool) : List Char → Except Fault (Option (List Char)) := fun cs =>
  match skipSpace cs with
  | [] => .error .ended
  | ']' :: _ => .ok none
  | ',' :: rest =>
    if first then .error .malformed
    else
      match skipSpace rest with
      | [] => .error .ended
      | ']' :: _ => .error .malformed
      | rest => .ok (some rest)
  | rest => if first then .ok (some rest) else .error .malformed

def closeArray : Scan Unit := fun cs =>
  match skipSpace cs with
  | [] => .error .ended
  | ']' :: rest => .ok ((), rest)
  | _ => .error .malformed

/-- Takes an array of two texts off the front, such as `delimiters`. -/
def pair : Scan (String × String) := fun cs =>
  let expected := "a tuple of size 2"
  match skipSpace cs with
  | [] => .error .ended
  | '[' :: rest => do
    match ← nextItem true rest with
    | none => .error (invalidLength 0 expected)
    | some rest =>
      let (a, rest) ← text rest
      match ← nextItem false rest with
      | none => .error (invalidLength 1 expected)
      | some rest =>
        let (b, rest) ← text rest
        let ((), rest) ← closeArray rest
        .ok ((a, b), rest)
  | cs => .error (wrongType expected cs)

/-! ## Records -/

/-- A field of a record that is being read into a draft of type `σ`. -/
structure Slot (σ : Type) where
  name : String
  filled : σ → Bool
  /-- Takes the field's value off the front and puts it into the draft. -/
  scan : σ → Scan σ

/-- The field of the given name whose value `scan` reads and `put` puts into the draft. -/
def Slot.of {σ α : Type} (name : String) (get : σ → Option α) (put : σ → α → σ) (scan : Scan α) :
    Slot σ where
  name := name
  filled s := (get s).isSome
  scan s cs := do
    let (a, rest) ← scan cs
    .ok (put s a, rest)

/-- How a record is read by `record`: its name in messages, its fields, the empty draft, and what becomes
of a draft from an object, or from an array with so many items. -/
structure Shape (σ α : Type) where
  name : String
  /-- The fields in their own order, which is that of an array. -/
  slots : List (Slot σ)
  empty : σ
  /-- The record of a draft from an object, or a `missingField`. -/
  ofObject : σ → Except Fault α
  /-- The record of a draft from an array, given the number of its items. -/
  ofArray : Nat → σ → Except Fault α

/-- The message for a field that is missing. -/
def missingField (name : String) : Fault :=
  .mismatch ("missing field `" ++ name ++ "`")

/-- The message for a field that is given twice. -/
def duplicateField (name : String) : Fault :=
  .mismatch ("duplicate field `" ++ name ++ "`")

/-- A field that has to be there; without it the object is refused (`missingField`). -/
def required {α : Type} (name : String) : Option α → Except Fault α
  | some a => .ok a
  | none => .error (missingField name)

/-- Reads one member of an object into the draft. A member that is no `Slot` is passed over; one that is
filled already is a `duplicateField`. -/
def slotMember {σ : Type} (slots : List (Slot σ)) (s : σ) (key : String) : Scan σ := fun cs =>
  match slots.find? (fun slot => slot.name = key) with
  | some slot =>
    if slot.filled s then .error (duplicateField key)
    else do
      let ((), rest) ← colon cs
      slot.scan s rest
  | none => do
    let ((), rest) ← colon cs
    let ((), rest) ← skipValue rest
    .ok (s, rest)

/-- Reads the items of an array into the fields, in their order; answers the draft and how many there were.
-/
def slotItems {σ : Type} : List (Slot σ) → Nat → σ → Scan (σ × Nat)
  | [], count, s, cs => .ok ((s, count), cs)
  | slot :: slots, count, s, cs => do
    match ← nextItem (count == 0) cs with
    | none => .ok ((s, count), cs)
    | some rest =>
      let (s, rest) ← slot.scan s rest
      slotItems slots (count + 1) s rest

/-- Takes a record off the front, from an object or an array, as the `Shape` says. -/
def record {σ α : Type} (shape : Shape σ α) : Scan α := fun cs =>
  match skipSpace cs with
  | [] => .error .ended
  | '[' :: rest => do
    let ((s, count), rest) ← slotItems shape.slots 0 shape.empty rest
    let a ← shape.ofArray count s
    let ((), rest) ← closeArray rest
    .ok (a, rest)
  | '\x7b' :: rest => do
    let (s, rest) ← members (slotMember shape.slots) (rest.length + 1) true shape.empty rest
    let a ← shape.ofObject s
    .ok (a, rest)
  | cs => .error (wrongType shape.name cs)

end ViewBinding.Json
