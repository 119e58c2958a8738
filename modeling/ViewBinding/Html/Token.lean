import ViewBinding.Html.References
import ViewBinding.Text.Split

/-!
# Tokens of markup

Markup falls into texts, opening and closing tags, comments and document types. How the front of a
text is taken depends on the element that was opened last: in ordinary content tags and references
count, in some elements only references and the element's own closing tag, in some only the closing
tag, and in one nothing at all.
-/

namespace ViewBinding.Html

/-- A tag, opening or closing. -/
structure Tag where
  name : String
  /-- The attributes, the first one of each name (`addAttribute`). -/
  attributes : List (String × String) := []
  /-- Whether the tag ends with a slash, which counts inside `svg` and `math` only. -/
  selfClosing : Bool := false
deriving DecidableEq, Repr, Inhabited

/-- A token of markup. -/
inductive Token where
  | opening (tag : Tag)
  | closing (name : String)
  /-- A text, its references resolved (`resolve`). -/
  | text (cs : List Char)
  /-- A comment, or what is treated as one, such as `<?php ?>`. -/
  | comment
  | doctype
deriving DecidableEq, Repr, Inhabited

/-- How the front of a text is taken. The element that is open decides (`Construction.openText`). -/
inductive Reading where
  | ordinary
  /-- References count, and the closing tag of the named element: `title` and `textarea` are read so. -/
  | references (name : String)
  /-- The closing tag of the named element counts: `style` is read so. -/
  | raw (name : String)
  /-- The closing tag of a script counts, unless a comment inside opens a script of its own. -/
  | script
  /-- Nothing counts: what follows `plaintext` is text to the end. -/
  | plain
deriving DecidableEq, Repr, Inhabited

/-! ## Characters -/

def isSpace (c : Char) : Bool :=
  c == ' ' || c == '\t' || c == '\n' || c == '\x0c' || c == '\r'

/-- The character, or its stand-in for U+0000. -/
def visible (c : Char) : Char :=
  if c = '\x00' then replacement else c

/-- Whether a character ends the name of a tag. -/
def endsName (c : Char) : Bool :=
  isSpace c || c == '/' || c == '>'

/-- The name of a tag or an attribute: ASCII letters in lower case. -/
def toName (cs : List Char) : String :=
  String.ofList (cs.map fun c => (visible c).toLower)

/-- The input without a byte order mark in front, each kind of line end as one line feed (`lineEnds`). -/
def normalize : List Char → List Char
  | '\ufeff' :: cs => lineEnds cs
  | cs => lineEnds cs
where
  lineEnds : List Char → List Char
    | [] => []
    | '\r' :: '\n' :: cs => '\n' :: lineEnds cs
    | '\r' :: cs => '\n' :: lineEnds cs
    | c :: cs => c :: lineEnds cs

/-! ## Attributes -/

/-- The value of an attribute as read: references resolved, `visible` characters only. -/
def toValue (cs : List Char) : String :=
  String.ofList ((resolve true cs).map visible)

/-- The attributes with one more, unless there is one of that name: the first one counts. -/
def addAttribute (name value : String) (attributes : List (String × String)) :
    List (String × String) :=
  if attributes.any fun a => a.1 = name then attributes else attributes ++ [(name, value)]

/-- Reads the value of an attribute, after its equals sign; `none` if the text ends first. -/
def value? (cs : List Char) : Option (String × List Char) :=
  match cs.dropWhile isSpace with
  | [] => none
  | '"' :: rest => quotedBy '"' rest
  | '\'' :: rest => quotedBy '\'' rest
  | rest =>
    match rest.dropWhile fun c => !(isSpace c || c == '>') with
    | [] => none
    | after => some (toValue (rest.takeWhile fun c => !(isSpace c || c == '>')), after)
where
  quotedBy (quote : Char) (cs : List Char) : Option (String × List Char) :=
    match cs.dropWhile (· != quote) with
    | [] => none
    | _ :: after => some (toValue (cs.takeWhile (· != quote)), after)

/-- What the attributes of a tag turn out to be. -/
structure TagRest where
  attributes : List (String × String)
  selfClosing : Bool
  after : List Char

/-- Whether a character ends the name of an attribute. -/
def endsAttributeName (c : Char) : Bool :=
  endsName c || c == '='

/-- Reads the attributes of a tag and its end; `none` if the text ends first. The fuel bounds the
length of the text. -/
def tagRest? : Nat → List (String × String) → List Char → Option TagRest
  | 0, _, _ => none
  | fuel + 1, attributes, cs =>
    match cs.dropWhile isSpace with
    | [] => none
    | '>' :: after => some ⟨attributes, false, after⟩
    | '/' :: '>' :: after => some ⟨attributes, true, after⟩
    | '/' :: after => tagRest? fuel attributes after
    | c :: rest =>
      let name := toName (c :: rest.takeWhile fun d => !endsAttributeName d)
      let after := rest.dropWhile fun d => !endsAttributeName d
      match after.dropWhile isSpace with
      | '=' :: after =>
        match after.dropWhile isSpace with
        | '>' :: after => some ⟨addAttribute name "" attributes, false, after⟩
        | _ =>
          match value? after with
          | none => none
          | some (value, after) => tagRest? fuel (addAttribute name value attributes) after
      | _ => tagRest? fuel (addAttribute name "" attributes) after

/-! ## Tags, comments and document types -/

/-- What is taken off the front of a text: a `Token`, or nothing that counts, and the rest. -/
structure Taken where
  token : Option Token
  after : List Char

/-- Reads a tag, after `<` or `</`, from its name on. A tag that the text ends in is dropped. -/
def takeTag (closing : Bool) (cs : List Char) : Taken :=
  let name := toName (cs.takeWhile fun c => !endsName c)
  match tagRest? (cs.length + 1) [] (cs.dropWhile fun c => !endsName c) with
  | none => ⟨none, []⟩
  | some rest =>
    if closing then ⟨some (.closing name), rest.after⟩
    else ⟨some (.opening ⟨name, rest.attributes, rest.selfClosing⟩), rest.after⟩

/-- The text after the next `>`. -/
def pastAngle (cs : List Char) : List Char :=
  (cs.dropWhile (· != '>')).drop 1

/-- The text after the end of a comment, once the start of the comment is past, or after `--!>` too. -/
def pastDashes : List Char → List Char
  | [] => []
  | '-' :: '-' :: '>' :: cs => cs
  | '-' :: '-' :: '!' :: '>' :: cs => cs
  | _ :: cs => pastDashes cs

/-- The text after the end of a comment; `>` and `->` right at its start end it too. -/
def pastComment : List Char → List Char
  | '>' :: cs => cs
  | '-' :: '>' :: cs => cs
  | cs => pastDashes cs

/-- The text up to the end of a literal section (`]]>`), and the text after it. -/
def splitSection : List Char → List Char × List Char
  | [] => ([], [])
  | ']' :: ']' :: '>' :: cs => ([], cs)
  | c :: cs =>
    let (before, after) := splitSection cs
    (c :: before, after)

/-- Reads what follows `<!`. Literal sections count only inside foreign elements. -/
def takeDeclaration (foreign : Bool) : List Char → Taken
  | '-' :: '-' :: cs => ⟨some .comment, pastComment cs⟩
  | cs =>
    if (cs.take 7).map Char.toLower = "doctype".toList then ⟨some .doctype, pastAngle (cs.drop 7)⟩
    else
      match if foreign then Text.dropStart? "[CDATA[".toList cs else none with
      | some rest =>
        let (text, after) := splitSection rest
        ⟨some (.text text), after⟩
      | none => ⟨some .comment, pastAngle cs⟩

/-- Reads what follows `<` in ordinary content. -/
def takeAngle (foreign : Bool) : List Char → Taken
  | '!' :: cs => takeDeclaration foreign cs
  | '?' :: cs => ⟨some .comment, pastAngle cs⟩
  | '/' :: cs =>
    match cs with
    | [] => ⟨some (.text ['<', '/']), []⟩
    | '>' :: rest => ⟨none, rest⟩
    | c :: rest => if c.isAlpha then takeTag true (c :: rest) else ⟨some .comment, pastAngle cs⟩
  | c :: cs => if c.isAlpha then takeTag false (c :: cs) else ⟨some (.text ['<']), c :: cs⟩
  | [] => ⟨some (.text ['<']), []⟩

/-- Whether a text starts with a fault after which a line feed is no longer the first one of its element: a
closing tag without a name (`</>`), or a reference by number without its semicolon (`isUnclosed`). -/
def startsFaulty : List Char → Bool
  | '<' :: '/' :: '>' :: _ => true
  | '&' :: cs => isUnclosed cs
  | _ => false

/-! ## Content that holds no tags -/

/-- Whether a text starts with the given name, in letters of either case, and the name ends there. -/
def startsName (name cs : List Char) : Bool :=
  (cs.take name.length).map Char.toLower == name &&
    match cs.drop name.length with
    | c :: _ => endsName c
    | [] => false

/-- The text up to the closing tag of the named element, and the text from the name in that tag on
(`startsName`). -/
def splitAtClosing (name : List Char) : List Char → List Char × Option (List Char)
  | [] => ([], none)
  | c :: cs =>
    let close := match cs with
      | '/' :: rest => c == '<' && startsName name rest
      | _ => false
    if close then ([], some (cs.drop 1))
    else
      let (before, after) := splitAtClosing name cs
      (c :: before, after)

/-- How far a script is inside a comment; inside, a `<script>` starts a script of its own. -/
inductive ScriptPlace where
  | outside
  | comment (dashes : Nat)
  | nested (dashes : Nat)

/-- The text of a script up to its closing tag, and the text from the name in that tag on (see
`ScriptPlace`). -/
def splitScript : ScriptPlace → List Char → List Char × Option (List Char)
  | _, [] => ([], none)
  | place, c :: cs =>
    let close := match place, c, cs with
      | .nested _, _, _ => false
      | _, '<', '/' :: rest => startsName "script".toList rest
      | _, _, _ => false
    if close then ([], some (cs.drop 1))
    else
      let next : ScriptPlace := match place with
        | .outside =>
          match c, cs with
          | '<', '!' :: '-' :: '-' :: _ => .comment 0
          | _, _ => .outside
        | .comment dashes =>
          if c = '-' then .comment (dashes + 1)
          else if c = '>' ∧ 2 ≤ dashes then .outside
          else if c = '<' ∧ startsName "script".toList cs then .nested 0
          else .comment 0
        | .nested dashes =>
          if c = '-' then .nested (dashes + 1)
          else if c = '>' ∧ 2 ≤ dashes then .outside
          else
            match c, cs with
            | '<', '/' :: rest =>
              if startsName "script".toList rest then .comment 0 else .nested 0
            | _, _ => .nested 0
      let (before, after) := splitScript next cs
      (c :: before, after)

/-- Takes a text that goes up to a closing tag; where the text is empty, takes the tag. -/
def takeUpTo (finish : List Char → List Char) (split : List Char × Option (List Char)) : Taken :=
  match split with
  | ([], some after) => takeTag true after
  | (before, some after) => ⟨some (.text (finish before)), '<' :: '/' :: after⟩
  | (before, none) => ⟨some (.text (finish before)), []⟩

/-- Takes the first token off the front of a text that is not empty. `foreign` says whether the
innermost element is a foreign one. -/
def take (foreign : Bool) : Reading → List Char → Taken
  | .ordinary, '<' :: cs => takeAngle foreign cs
  | .ordinary, cs => ⟨some (.text (resolve false (cs.takeWhile (· != '<')))), cs.dropWhile (· != '<')⟩
  | .references name, cs =>
    takeUpTo (fun before => (resolve false before).map visible) (splitAtClosing name.toList cs)
  | .raw name, cs => takeUpTo (·.map visible) (splitAtClosing name.toList cs)
  | .script, cs => takeUpTo (·.map visible) (splitScript .outside cs)
  | .plain, cs => ⟨some (.text (cs.map visible)), []⟩

end ViewBinding.Html
