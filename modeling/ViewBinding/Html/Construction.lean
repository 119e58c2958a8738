import ViewBinding.Html.Names
import ViewBinding.Html.Token
import ViewBinding.Tree.Basic

/-!
# Tree construction

The state in which tokens are put together to a tree: the tree so far, the elements that are open,
the formatting elements that later text still belongs to, and the mode that says which rules the
next token falls under. This module holds the state and what all modes do to it; the rules of the
modes are in the modules beside it.

The root of the tree stands for the whole fragment. Its rules are those of a body.
-/

namespace ViewBinding.Html

/-- A node under construction; `view` makes a `Markup` of it. -/
inductive Item where
  | text (cs : List Char)
  /-- A comment, which parts the texts around it and then vanishes. -/
  | comment
  | element (name : ElementName) (attributes : List (String × String))
deriving Inhabited

/-- An open element, on the `stack` of a `Construction`. -/
structure OpenElement where
  id : Nat
  name : ElementName
  /-- Whether it is an annotation that holds markup (`annotates`). -/
  holdsMarkup : Bool := false
deriving Inhabited

/-- An entry in the list of formatting elements. -/
inductive FormattingEntry where
  /-- A bound behind which formatting elements do not count, set where a cell or a caption opens (`mark`).
  -/
  | marker
  | element (id : Nat) (tag : Tag)
deriving Inhabited

/-- Which rules the next token falls under (`byMode`). -/
inductive Mode where
  | body
  | text
  | table
  | tableText
  | caption
  | columnGroup
  | rowGroup
  | row
  | cell
  | select
  | selectInTable
  | template
deriving DecidableEq, Repr, Inhabited

/-- The state of tree construction between two tokens. -/
structure Construction where
  /-- The trees so far: the one that is built, and those taken out of it. -/
  forest : Forest Item
  next : Nat
  stack : List OpenElement
  /-- The formatting elements, the latest one first (`reconstruct` opens them again). -/
  formatting : List FormattingEntry := []
  mode : Mode := .body
  /-- The mode to return to after text that `Mode.text` or `Mode.tableText` took. -/
  outerMode : Mode := .body
  templateModes : List Mode := []
  /-- The text met inside a table and not yet placed (`placePending`). -/
  pending : List Char := []
  /-- The open `form`, of which there is one at most outside of templates. -/
  form : Option Nat := none
  /-- Whether what has no place in a table is put in front of it (`fosterPlace`). -/
  fostering : Bool := false
  /-- Whether a line feed at the start of the next token is dropped, as after `<pre>`. -/
  skipLineFeed : Bool := false
  reading : Reading := .ordinary
deriving Inhabited

def rootName : ElementName := ⟨.html, "html"⟩

/-- The name that the root counts under where it is the innermost open element: markup is read as in a
`body`. -/
def contextName : ElementName := ⟨.html, "body"⟩

/-- The state before the first token, with the root open. -/
def Construction.start : Construction where
  forest := [.node 0 (.element rootName []) []]
  next := 1
  stack := [⟨0, rootName, false⟩]

namespace Construction

/-! ## Open elements -/

/-- The innermost open element. -/
def current (b : Construction) : OpenElement :=
  b.stack.headD ⟨0, rootName, false⟩

/-- The name that decides whether foreign rules apply (`isForeign`); that of the root is `contextName`. -/
def contextualName (b : Construction) : ElementName :=
  match b.stack with
  | _ :: _ :: _ => b.current.name
  | _ => contextName

/-- Whether the innermost open element is an ordinary one of the given name (`isHtml`). -/
def currentIs (b : Construction) (name : String) : Bool :=
  b.current.name.isHtml name

/-- Whether an ordinary element of the given name is open. -/
def hasOpen (b : Construction) (name : String) : Bool :=
  b.stack.any fun e => e.name.isHtml name

/-- The state with the innermost open element closed. -/
def pop (b : Construction) : Construction :=
  { b with stack := b.stack.drop 1 }

/-- The open elements from the first one inward that fails the test. -/
def popWhile (b : Construction) (p : OpenElement → Bool) : Construction :=
  { b with stack := b.stack.dropWhile p }

/-- Closes elements up to and with the first one that passes the test (`popWhile`). -/
def popThrough (b : Construction) (p : OpenElement → Bool) : Construction :=
  (b.popWhile fun e => !p e).pop

/-- Closes elements up to and with the first ordinary one of the given name. -/
def popThroughName (b : Construction) (name : String) : Construction :=
  b.popThrough fun e => e.name.isHtml name

/-- Closes elements up to the first one of the given names, which stays open. -/
def popToNames (b : Construction) (names : List String) : Construction :=
  b.popWhile fun e => !e.name.isIn names

/-- Takes an element out of the open ones. -/
def removeOpen (b : Construction) (id : Nat) : Construction :=
  { b with stack := b.stack.filter fun e => e.id != id }

/-- Closes elements whose end may be left out, such as those of `impliedEndNames`. -/
def closeImplied (b : Construction) (names : List String) : Construction :=
  b.popWhile fun e => e.name.isIn names

/-- Closes elements whose end may be left out (`impliedEndNames`), apart from those of the given name. -/
def closeImpliedExcept (b : Construction) (name : String) : Construction :=
  b.closeImplied (impliedEndNames.filter (· != name))

/-! ## Scopes -/

/-- Whether an element passes the test, looking from the innermost one up to the first at which the
search stops. -/
def anyUpTo (stop : ElementName → Bool) (p : OpenElement → Bool) : List OpenElement → Bool
  | [] => false
  | e :: es => p e || (!stop e.name && anyUpTo stop p es)

/-- Whether the search for an open element stops at an element: one of `scopeNames` or of `more`, or a
foreign one that may hold ordinary ones (`isTextPoint`, `isMarkupPoint`). -/
def stopsScope (more : List String) (e : ElementName) : Bool :=
  e.isIn (scopeNames ++ more) || e.isTextPoint || e.isMarkupPoint

/-- Whether an ordinary element of the given name is open in scope (`stopsScope`). -/
def inScope (b : Construction) (name : String) : Bool :=
  anyUpTo (stopsScope []) (fun e => e.name.isHtml name) b.stack

/-- Whether an ordinary element of the given name is open in the scope of buttons: a `button` stops the
search too. -/
def inButtonScope (b : Construction) (name : String) : Bool :=
  anyUpTo (stopsScope ["button"]) (fun e => e.name.isHtml name) b.stack

/-- Whether an ordinary element of the given name is open in the scope of list items: `ol` and `ul` stop
the search too. -/
def inListScope (b : Construction) (name : String) : Bool :=
  anyUpTo (stopsScope ["ol", "ul"]) (fun e => e.name.isHtml name) b.stack

/-- Whether an ordinary element of one of the given names is open in the scope of tables
(`tableScopeNames`). -/
def inTableScope (b : Construction) (names : List String) : Bool :=
  anyUpTo (fun e => e.isIn tableScopeNames) (fun e => e.name.isIn names) b.stack

/-- Whether a `select` is open around nothing but options. -/
def inSelectScope (b : Construction) : Bool :=
  anyUpTo (fun e => !e.isIn ["optgroup", "option"]) (fun e => e.name.isHtml "select") b.stack

/-! ## Placing nodes -/

/-- A place for a new node, in the forest of a `Construction`. -/
inductive Place where
  | lastIn (parent : Nat)
  | before (sibling : Nat)

/-- The place in front of the innermost `table`. Inside a `template`, or where no table is open, it is the
last one there; a table that stands nowhere leaves its place to the element around it. -/
def fosterPlace (forest : Forest Item) : List OpenElement → Place
  | [] => .lastIn 0
  | e :: es =>
    if e.name.isHtml "template" then .lastIn e.id
    else if e.name.isHtml "table" then
      if (forest.parent? e.id).isSome then .before e.id else .lastIn ((es.map (·.id)).headD 0)
    else fosterPlace forest es

/-- The place for a node that belongs to an open element, which is the `fosterPlace` where that is called
for. -/
def placeIn (b : Construction) (target : OpenElement) : Place :=
  if b.fostering && target.name.isIn fosteringNames then fosterPlace b.forest b.stack
  else .lastIn target.id

/-- The row with a text at its end, joined to the text that stands there. -/
def pushText (id : Nat) (cs : List Char) : Forest Item → Forest Item
  | [] => [.node id (.text cs) []]
  | [.node n (.text ds) ts] => [.node n (.text (ds ++ cs)) ts]
  | t :: ts => t :: pushText id cs ts

def splitRow (n : Nat) (row : Forest Item) : Forest Item × Forest Item :=
  row.span fun t => t.id != n

/-- Puts a text in its place, joined to a text right before it (`pushText`). -/
def insertText (b : Construction) (cs : List Char) : Construction :=
  let forest := match b.placeIn b.current with
    | .lastIn parent => b.forest.update parent (Tree.mapChildren (pushText b.next cs))
    | .before sibling =>
      match b.forest.parent? sibling with
      | none => b.forest
      | some parent =>
        b.forest.update parent (Tree.mapChildren fun row =>
          let (front, rest) := splitRow sibling row
          pushText b.next cs front ++ rest)
  { b with forest := forest, next := b.next + 1 }

/-- Puts a tree in its place. -/
def putTree (forest : Forest Item) (t : Tree Item) : Place → Forest Item
  | .lastIn parent => forest.update parent (Tree.mapChildren (· ++ [t]))
  | .before sibling => forest.expand sibling fun s => [t, s]

/-- Puts a comment in its place, so that the texts around it stay two (`Item.comment`). -/
def insertComment (b : Construction) : Construction :=
  { b with
    forest := putTree b.forest (.node b.next .comment []) (b.placeIn b.current)
    next := b.next + 1 }

/-- The attributes of an element of a vocabulary (`Vocabulary.attributeName`). -/
def spellAttributes (v : Vocabulary) (attributes : List (String × String)) :
    List (String × String) :=
  attributes.map fun a => (v.attributeName a.1, a.2)

/-- Whether an element is an annotation that holds markup: an `annotation-xml` that says so. -/
def annotates (name : ElementName) (attributes : List (String × String)) : Bool :=
  name == ⟨.mathml, "annotation-xml"⟩ &&
    attributes.any fun a =>
      a.1 == "encoding" && ["text/html", "application/xhtml+xml"].contains (lowerName a.2)

/-- Puts a new element in its place without opening it (`putTree`). -/
def insertElement (b : Construction) (name : ElementName) (attributes : List (String × String)) :
    Construction :=
  { b with
    forest := putTree b.forest (.node b.next (.element name attributes) []) (b.placeIn b.current)
    next := b.next + 1 }

/-- Puts a new element in its place (`insertElement`) and opens it. -/
def openElement (b : Construction) (name : ElementName) (attributes : List (String × String)) :
    Construction :=
  let inserted := b.insertElement name attributes
  { inserted with stack := ⟨b.next, name, annotates name attributes⟩ :: b.stack }

/-- Puts the ordinary element of a tag in its place and opens it (`openElement`). -/
def openTag (b : Construction) (tag : Tag) : Construction :=
  b.openElement ⟨.html, tag.name⟩ tag.attributes

/-- Puts an ordinary element without attributes in its place and opens it, where its tag was left out as
that of a `tbody` may be. -/
def openBare (b : Construction) (name : String) : Construction :=
  b.openElement ⟨.html, name⟩ []

/-- Puts the ordinary element of a tag in its place without opening it. -/
def insertTag (b : Construction) (tag : Tag) : Construction :=
  b.insertElement ⟨.html, tag.name⟩ tag.attributes

/-- Opens the element of a tag whose content is read in another way (`Reading`), as text. -/
def openText (b : Construction) (tag : Tag) (reading : Reading) : Construction :=
  { b.openTag tag with outerMode := b.mode, mode := .text, reading := reading }

/-! ## Paragraphs -/

/-- Closes a paragraph and what is left open in it (`closeImpliedExcept`). -/
def closeParagraph (b : Construction) : Construction :=
  (b.closeImpliedExcept "p").popThroughName "p"

/-- Closes the paragraph that is open in the scope of buttons, if one is (`inButtonScope`). -/
def leaveParagraph (b : Construction) : Construction :=
  if b.inButtonScope "p" then b.closeParagraph else b

/-! ## Formatting elements -/

/-- Whether an entry is a bound, or its element is open, so that `reconstruct` has nothing to do for it. -/
def isSettled (b : Construction) : FormattingEntry → Bool
  | .marker => true
  | .element id _ => b.stack.any fun e => e.id == id

/-- Forgets the formatting elements up to the latest bound, and the bound (`mark` set it). -/
def forgetToMarker (b : Construction) : Construction :=
  let inner := b.formatting.dropWhile fun
    | .marker => false
    | .element .. => true
  { b with formatting := inner.drop 1 }

/-- Sets a bound behind the formatting elements. -/
def mark (b : Construction) : Construction :=
  { b with formatting := .marker :: b.formatting }

/-- Opens the elements of the given entries again, the earliest first; answers the new entries, the
latest first. -/
def reopen (b : Construction) : List FormattingEntry → List FormattingEntry × Construction
  | [] => ([], b)
  | .marker :: entries => reopen b entries
  | .element _ tag :: entries =>
    let (entries, b) := reopen b entries
    let opened := b.openTag tag
    (.element b.next tag :: entries, opened)

/-- Opens the formatting elements again that the text to come belongs to: the ones after the latest that
`isSettled`. -/
def reconstruct (b : Construction) : Construction :=
  let unsettled := b.formatting.takeWhile fun e => !b.isSettled e
  let settled := b.formatting.dropWhile fun e => !b.isSettled e
  let (reopened, c) := b.reopen unsettled
  { c with formatting := reopened ++ settled }

/-- Whether an entry is the one of the given element. -/
def isEntryOf (id : Nat) : FormattingEntry → Bool
  | .marker => false
  | .element n _ => n == id

/-- Forgets a formatting element. -/
def forget (b : Construction) (id : Nat) : Construction :=
  { b with formatting := b.formatting.eraseP (isEntryOf id) }

/-- The formatting elements after the latest bound (`FormattingEntry.marker`). -/
def recentFormatting (entries : List FormattingEntry) : List (Nat × Tag) :=
  match entries with
  | .element id tag :: rest => (id, tag) :: recentFormatting rest
  | _ => []

/-- Whether two tags open the same formatting, whatever the order of their attributes. -/
def sameFormatting (s t : Tag) : Bool :=
  s.name == t.name && s.attributes.length == t.attributes.length &&
    s.attributes.all fun a => t.attributes.contains a

/-- Opens the formatting element of a tag. Of three that open the same formatting (`sameFormatting`), the
earliest is forgotten. -/
def openFormatting (b : Construction) (tag : Tag) : Construction :=
  let twins := (recentFormatting b.formatting).filter fun e => sameFormatting tag e.2
  let b := match twins.drop 2 with
    | [] => b
    | later :: rest => b.forget ((later :: rest).getLastD later).1
  let opened := b.openTag tag
  { opened with formatting := .element b.next tag :: b.formatting }

end Construction

end ViewBinding.Html
