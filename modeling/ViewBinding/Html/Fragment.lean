import ViewBinding.Diagnostic
import ViewBinding.Html.TableContent
import ViewBinding.Markup

/-!
# Fragments of markup

`Html.parseFragment` reads markup as the content of a body and answers the views at its top. Comments
and document types leave nothing, a template loses its content, and names are the ones without a prefix.

`parseTemplate` takes the first element of a fragment as the root of a view, and `Injected.ofText` makes
markup ready to take the place of a node: it goes into a wrapper element if the options name one; without
a wrapper it has to be a single node, and is injected as text if it is not.
-/

namespace ViewBinding.Html

namespace Construction

/-! ## Selections and templates -/

/-- Closes the `select` and everything in it. -/
def closeSelect (b : Construction) : Construction :=
  let b := b.popThroughName "select"
  { b with mode := b.resetMode }

/-- An opening tag in a `select`, where only options and their groups have a place. -/
def selectOpening (b : Construction) (tag : Tag) : Step :=
  let name := tag.name
  let outsideOption := if b.currentIs "option" then b.pop else b
  let outsideGroup := if outsideOption.currentIs "optgroup" then outsideOption.pop else outsideOption
  if name = "option" then done (outsideOption.openTag tag)
  else if name = "optgroup" then done (outsideGroup.openTag tag)
  else if name = "hr" then done (outsideGroup.insertTag tag)
  else if name = "select" then done (if b.inSelectScope then b.closeSelect else b)
  else if ["input", "keygen", "textarea"].contains name then
    if b.inSelectScope then
      let b := b.closeSelect
      again b b.mode (.opening tag)
    else done b
  else if name = "script" ∨ name = "template" then done (b.headOpening tag)
  else done b

/-- A closing tag in a selection. -/
def selectClosing (b : Construction) (name : String) : Construction :=
  if name = "optgroup" then
    let b := match b.stack with
      | _ :: e :: _ => if b.currentIs "option" && e.name.isHtml "optgroup" then b.pop else b
      | _ => b
    if b.currentIs "optgroup" then b.pop else b
  else if name = "option" then if b.currentIs "option" then b.pop else b
  else if name = "select" then if b.inSelectScope then b.closeSelect else b
  else if name = "template" then b.closeTemplate
  else b

/-- A token in a `select` (`Mode.select`). -/
def select (b : Construction) : Token → Step
  | .opening tag => b.selectOpening tag
  | .closing name => done (b.selectClosing name)
  | .text cs =>
    match cs.filter (· != '\x00') with
    | [] => done b
    | kept => done (b.insertText kept)
  | .comment => done b.insertComment
  | .doctype => done b

/-- A token in a `select` inside a table, which a tag of the table closes. -/
def selectInTable (b : Construction) (t : Token) : Step :=
  let parts := ["caption", "table", "tbody", "tfoot", "thead", "tr", "td", "th"]
  match t with
  | .opening tag =>
    if parts.contains tag.name then
      let b := b.closeSelect
      again b b.mode t
    else b.select t
  | .closing name =>
    if parts.contains name then
      if b.inTableScope [name] then
        let b := b.closeSelect
        again b b.mode t
      else done b
    else b.select t
  | t => b.select t

/-- A `template` takes the mode that its first tag calls for. -/
def templateAs (b : Construction) (mode : Mode) (t : Token) : Step :=
  again { b with templateModes := mode :: b.templateModes.drop 1 } mode t

/-- A token in a template (`Mode.template`). -/
def template (b : Construction) (t : Token) : Step :=
  match t with
  | .opening tag =>
    let name := tag.name
    if headNames.contains name then done (b.headOpening tag)
    else if name = "caption" ∨ name = "colgroup" ∨ rowGroupNames.contains name then
      b.templateAs .table t
    else if name = "col" then b.templateAs .columnGroup t
    else if name = "tr" then b.templateAs .rowGroup t
    else if name = "td" ∨ name = "th" then b.templateAs .row t
    else b.templateAs .body t
  | .closing name => if name = "template" then done b.closeTemplate else done b
  | t => done (b.body t)

/-! ## Foreign elements -/

/-- Whether a token falls under the rules of foreign elements (`contextualName` decides). -/
def isForeign (b : Construction) (t : Token) : Bool :=
  let name := b.contextualName
  if name.vocabulary = .html then false
  else
    match t with
    | .text _ =>
      !(name.isTextPoint || name.isMarkupPoint || b.current.holdsMarkup)
    | .opening tag =>
      !((name.isTextPoint && !(["mglyph", "malignmark"].contains tag.name)) || name.isMarkupPoint ||
        (name == ⟨.mathml, "annotation-xml"⟩ && tag.name == "svg") || b.current.holdsMarkup)
    | _ => true

/-- The rules of a mode: what each `Mode` does with a token. -/
def byMode (b : Construction) (t : Token) : Step :=
  match b.mode with
  | .body => done (b.body t)
  | .text => done (b.inText t)
  | .table => b.table t
  | .tableText => b.tableText t
  | .caption => b.caption t
  | .columnGroup => b.columnGroup t
  | .rowGroup => b.rowGroup t
  | .row => b.row t
  | .cell => b.cell t
  | .select => b.select t
  | .selectInTable => b.selectInTable t
  | .template => b.template t

/-- The open element that a closing tag inside a foreign element is about: the first one that has its name,
in letters of either case, or is an ordinary one. The root does not count. -/
def foreignTarget (name : String) : List OpenElement → Option OpenElement
  | e :: d :: es =>
    if e.name.vocabulary = .html ∨ lowerName e.name.name = name then some e
    else foreignTarget name (d :: es)
  | _ => none

/-- Whether an opening tag ends the foreign elements that it stands in (`breakingNames`). -/
def breaksOut (tag : Tag) : Bool :=
  breakingNames.contains tag.name ||
    (tag.name == "font" && tag.attributes.any fun a => breakingFontAttributes.contains a.1)

/-- Whether an element may have ordinary elements right inside it: an `isTextPoint`, an `isMarkupPoint`, or
an ordinary one. -/
def takesOrdinary (name : ElementName) : Bool :=
  name.vocabulary == .html || name.isTextPoint || name.isMarkupPoint

/-- Closes the foreign elements around a token and places it by the rules of the mode (`byMode`). -/
def breakOut (b : Construction) (t : Token) : Step :=
  (b.popWhile fun e => !takesOrdinary e.name).byMode t

/-- A closing tag inside a foreign element (`foreignTarget`). -/
def foreignClosing (b : Construction) (name : String) : Step :=
  if name = "p" ∨ name = "br" then b.breakOut (.closing name)
  else
    match foreignTarget name b.stack with
    | none => done b
    | some e =>
      if e.name.vocabulary = .html then b.byMode (.closing name)
      else done (b.popThrough fun d => d.id == e.id)

/-- A token inside a foreign element. -/
def foreign (b : Construction) : Token → Step
  | .opening tag =>
    if breaksOut tag then b.breakOut (.opening tag)
    else
      let v := b.contextualName.vocabulary
      let name : ElementName := ⟨v, v.elementName tag.name⟩
      let attributes := spellAttributes v tag.attributes
      if tag.selfClosing then done (b.insertElement name attributes)
      else done (b.openElement name attributes)
  | .closing name => b.foreignClosing name
  | .text cs => done (b.insertText (cs.map visible))
  | .comment => done b.insertComment
  | .doctype => done b

/-! ## All tokens -/

/-- Places a token, which may fall under the rules of several modes in turn (`again`). The fuel bounds how
many. -/
def placeUpTo : Nat → Construction → Token → Construction
  | 0, b, _ => b
  | fuel + 1, b, t =>
    match if b.isForeign t then b.foreign t else b.byMode t with
    | (b, none) => b
    | (b, some t) => placeUpTo fuel b t

/-- Places a token. A document type counts for nothing; the first line feed of some elements does not
either (`skipLineFeed`). -/
def place (b : Construction) (t : Token) : Construction :=
  let skipping := b.skipLineFeed
  let b := { b with skipLineFeed := false }
  let fuel := b.stack.length + 20
  match t with
  | .doctype => b
  | .text [] => b
  | .text ('\n' :: cs) =>
    if !skipping then placeUpTo fuel b t
    else if cs.isEmpty then b
    else placeUpTo fuel b (.text cs)
  | t => placeUpTo fuel b t

/-- Places all tokens of a text, one `place` after the other. The fuel bounds the length of the text. -/
def placeAll : Nat → Construction → List Char → Construction
  | _, b, [] => b
  | 0, b, _ => b
  | fuel + 1, b, c :: cs =>
    let taken := take (b.contextualName.vocabulary != .html) b.reading (c :: cs)
    let b := { b with skipLineFeed := b.skipLineFeed && !startsFaulty (c :: cs) }
    match taken.token with
    | some t => placeAll fuel (b.place t) taken.after
    | none => placeAll fuel b taken.after

/-- Places what is held back at the end of the text (`pending`). -/
def finish (b : Construction) : Construction :=
  if b.mode = .tableText then b.placePending else b

end Construction

/-! ## Views -/

/-- The attributes of a view. An attribute whose name was given twice has the place of the first and the
value of the last (`Attribute.set`). -/
def viewAttributes (attributes : List (String × String)) : List Attribute :=
  attributes.foldl (fun as a => Attribute.set a.1 a.2 as) []

mutual

/-- The views that a tree stands for (`parse_dom_node`): none for a comment. -/
def view : Tree Item → List Markup
  | .node _ (.text cs) _ => [.text (String.ofList cs)]
  | .node _ .comment _ => []
  | .node _ (.element name attributes) row =>
    let content := if name.isHtml "template" then [] else viewRow row
    [.element name.name (viewAttributes attributes) content]

/-- The views that a row of trees stands for (`view`). -/
def viewRow : Forest Item → List Markup
  | [] => []
  | t :: ts => view t ++ viewRow ts

end

/-- The views at the top of a piece of markup (`parse_fragment_nodes`). -/
def parseFragment (markup : String) : List Markup :=
  let cs := normalize markup.toList
  let b := (Construction.placeAll (cs.length + 1) .start cs).finish
  viewRow (b.forest.children 0)

end ViewBinding.Html

namespace ViewBinding

/-! ## Templates and injected markup -/

/-- The root of the view that a template describes (`parse_template`): its first element. -/
def parseTemplate (markup : String) : Except CompileError Markup :=
  match (Html.parseFragment markup).find? Markup.isElement with
  | some root => .ok root
  | none => .error .missingRoot

/-- Markup made ready to be injected (`MarkupNode`). -/
structure Injected where
  markup : Markup
  /-- Whether the markup is no single node and is injected as text, which `Strategy.applyMarkupReplace`
  reports. -/
  fallback : Bool
deriving Inhabited

def Wrapper.attributes (w : Wrapper) : List Attribute :=
  match w.cls with
  | some cls => [⟨"class", cls⟩]
  | none => []

/-- The node that is injected for a piece of markup (`create_markup_node`). A wrapper takes whatever the
markup is; without one the markup has to be a single node. -/
def Injected.ofText (markup : String) (wrapper : Option Wrapper) : Injected :=
  let nodes := Html.parseFragment markup
  match wrapper with
  | some w => ⟨.element w.tag w.attributes nodes, false⟩
  | none =>
    match nodes with
    | [node] => ⟨node, false⟩
    | _ => ⟨.text markup, true⟩

end ViewBinding
