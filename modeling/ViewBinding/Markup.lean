/-!
# Markup

A view as it is written: texts, and elements with attributes and children. `outer` is its text form.
Elements without a closing tag are the void ones, whatever the case of their letters.
-/

namespace ViewBinding

/-- An attribute of an element. -/
structure Attribute where
  name : String
  value : String
deriving DecidableEq, Repr, Inhabited

/-- The value of the attribute with the given name (`attribute`), the first if there are several. -/
def Attribute.get? (name : String) (attributes : List Attribute) : Option String :=
  (attributes.find? fun a => a.name = name).map (·.value)

/-- The attributes with one set (`set_attribute`): in the place of the attribute of that name, else as the
last. -/
def Attribute.set (name value : String) : List Attribute → List Attribute
  | [] => [⟨name, value⟩]
  | a :: rest => if a.name = name then ⟨name, value⟩ :: rest else a :: set name value rest

/-- A view as it is written, without what binds it: `View.toMarkup` and `View.ofMarkup` go there and back.
-/
inductive Markup where
  | text (payload : String)
  | element (tag : String) (attributes : List Attribute) (children : List Markup)
deriving Inhabited, Repr

namespace Markup

def isElement : Markup → Bool
  | text _ => false
  | element .. => true

/-! ## Text form -/

/-- The tags of elements that are written without a closing tag, `VOID_TAGS`. -/
def voidTags : List String :=
  ["area", "base", "br", "col", "embed", "hr", "img", "input", "link", "meta", "source", "track",
    "wbr"]

/-- A character in lower case, as far as the names of void tags can tell: the Latin letters and the Kelvin
sign. -/
def lowerChar (c : Char) : Char :=
  if c = '\u212a' then 'k' else c.toLower

/-- Whether an element of the tag is written without a closing tag, in whatever case (`voidTags`). -/
def isVoid (tag : String) : Bool :=
  voidTags.any fun v => v.toList = tag.toList.map lowerChar

/-- A character as it stands in a text (`escape_text`). -/
def escapeTextChar (c : Char) : List Char :=
  if c = '&' then ['&', 'a', 'm', 'p', ';']
  else if c = '<' then ['&', 'l', 't', ';']
  else if c = '>' then ['&', 'g', 't', ';']
  else [c]

/-- A character as it stands in an attribute value (`escape_attribute`). -/
def escapeValueChar (c : Char) : List Char :=
  if c = '&' then ['&', 'a', 'm', 'p', ';']
  else if c = '"' then ['&', 'q', 'u', 'o', 't', ';']
  else [c]

/-- An attribute with a space in front of it, its value in quotes (`escapeValueChar`). -/
def attributeChars (a : Attribute) : List Char :=
  ' ' :: a.name.toList ++ '=' :: '"' :: a.value.toList.flatMap escapeValueChar ++ ['"']

def openChars (tag : String) (attributes : List Attribute) : List Char :=
  '<' :: tag.toList ++ attributes.flatMap attributeChars ++ ['>']

def closeChars (tag : String) : List Char :=
  '<' :: '/' :: tag.toList ++ ['>']

mutual

/-- The text form of a view (`write_html`). The children of a void element are not written. -/
def chars : Markup → List Char
  | text payload => payload.toList.flatMap escapeTextChar
  | element tag attributes children =>
    if isVoid tag then openChars tag attributes
    else openChars tag attributes ++ (rowChars children ++ closeChars tag)

/-- The text form of a row of views (`inner_html`). -/
def rowChars : List Markup → List Char
  | [] => []
  | m :: ms => chars m ++ rowChars ms

end

/-- The text form of a view (`outer_html`). -/
def outer (m : Markup) : String :=
  String.ofList m.chars

end Markup

end ViewBinding
