import ViewBinding.Text.Split

/-!
# Interpolation markers

A marker is an opening delimiter, a text of at least one character without a line feed, and the
closing delimiter. Markers are found from left to right: the least start at which a marker begins,
the least end for that start, and on from that end. Only the first marker whose text is not blank is
bound, under the text without the blanks around it; a blank marker stays as it is.
-/

namespace ViewBinding

/-- A marker with the key that it binds, and the bytes of the template where it stands. -/
structure Marker where
  /-- The model key: what stands between the delimiters, without blanks at its ends (`Text.trim`). -/
  key : String
  start : Nat
  stop : Nat
deriving DecidableEq, Repr, Inhabited

namespace Marker

/-! ## Occurrences -/

/-- A text of at least one character without a line feed up to the closing delimiter, and the rest after
it. It is the shortest one, as `.+?` matches it. -/
def rawUpTo (closing : List Char) : List Char → Option (List Char × List Char)
  | [] => none
  | c :: cs =>
    if c = '\n' then none
    else
      match Text.dropStart? closing cs with
      | some rest => some ([c], rest)
      | none => (rawUpTo closing cs).map fun (raw, rest) => (c :: raw, rest)

/-- The marker text at the start of a text, and the rest after the marker (`rawUpTo`). -/
def matchAt (opening closing cs : List Char) : Option (List Char × List Char) :=
  (Text.dropStart? opening cs).bind (rawUpTo closing)

/-- A part of a template that has the form of a marker, whether or not it has a key. -/
structure Occurrence where
  before : List Char
  raw : List Char
  after : List Char
deriving DecidableEq, Repr

/-- The first occurrence in a text: the pattern matches at the first character where `matchAt` does. -/
def next? (opening closing : List Char) : List Char → Option Occurrence
  | [] => none
  | c :: cs =>
    match matchAt opening closing (c :: cs) with
    | some (raw, after) => some ⟨[], raw, after⟩
    | none => (next? opening closing cs).map fun o => { o with before := c :: o.before }

/-- The first marker with a key in a text that starts at byte `place`. The fuel bounds the number of
markers. -/
def findFrom (opening closing : List Char) : Nat → Nat → List Char → Option Marker
  | 0, _, _ => none
  | fuel + 1, place, cs =>
    match next? opening closing cs with
    | none => none
    | some o =>
      let start := place + Text.byteLength o.before
      let stop := start + Text.byteLength opening + Text.byteLength o.raw + Text.byteLength closing
      let key := Text.trim o.raw
      if key = [] then findFrom opening closing fuel stop o.after
      else some ⟨String.ofList key, start, stop⟩

/-- The first marker with a key in a template (`find` of an `Interpolator`). An occurrence without a key is
skipped. -/
def find? (delimiters : String × String) (template : String) : Option Marker :=
  findFrom delimiters.1.toList delimiters.2.toList (template.toList.length + 1) 0 template.toList

/-! ## Rendering -/

/-- The template with `value` in the place of the marker. -/
def render (m : Marker) (template value : String) : String :=
  String.ofList
    (Text.takeBytes m.start template.toList ++ value.toList ++
      Text.dropBytes m.stop template.toList)

/-- The template with `value` in the place of its first marker with a key; without one, the template
itself. -/
def renderFirst (delimiters : String × String) (template value : String) : String :=
  match find? delimiters template with
  | some m => m.render template value
  | none => template

end Marker

end ViewBinding
