import ViewBinding.Html.Adoption

/-!
# Ordinary content

The rules for tokens in ordinary content. Rules of other modes fall back on them.
-/

namespace ViewBinding.Html

/-- What a rule does with a token: the new state, and the token if it still has to be placed, by the rules
of the new state's `mode`. -/
abbrev Step := Construction × Option Token

namespace Construction

/-- The token is placed. -/
def done (b : Construction) : Step := (b, none)

/-- The token falls under the rules of another mode (`byMode` goes on with it). -/
def again (b : Construction) (mode : Mode) (t : Token) : Step := ({ b with mode := mode }, some t)

/-! ## The mode after an element closes -/

/-- The mode that the open elements call for, the innermost one that calls for any. -/
def modeFor (templateModes : List Mode) : List OpenElement → Mode
  | [] => .body
  | [_] => .body
  | e :: es =>
    if e.name.vocabulary ≠ .html then modeFor templateModes es
    else
      match e.name.name with
      | "select" =>
        match es.find? fun d => d.name.isIn ["template", "table"] with
        | some d => if d.name.isHtml "table" then .selectInTable else .select
        | none => .select
      | "td" => .cell
      | "th" => .cell
      | "tr" => .row
      | "tbody" => .rowGroup
      | "thead" => .rowGroup
      | "tfoot" => .rowGroup
      | "caption" => .caption
      | "colgroup" => .columnGroup
      | "table" => .table
      | "template" => templateModes.headD .body
      | _ => modeFor templateModes es

/-- The mode that the open elements of a `Construction` call for (`modeFor`). -/
def resetMode (b : Construction) : Mode :=
  modeFor b.templateModes b.stack

/-! ## Tags that count the same as in a head -/

/-- An opening tag that counts the same as in a head (`headNames`). -/
def headOpening (b : Construction) (tag : Tag) : Construction :=
  if headVoidNames.contains tag.name then b.insertTag tag
  else if tag.name = "title" then b.openText tag (.references tag.name)
  else if tag.name = "script" then b.openText tag .script
  else if tag.name = "template" then
    { (b.openTag tag).mark with mode := .template, templateModes := .template :: b.templateModes }
  else b.openText tag (.raw tag.name)

/-- The closing tag of a `template`: closes it with all in it, if one is open. -/
def closeTemplate (b : Construction) : Construction :=
  if !b.hasOpen "template" then b
  else
    let b := ((b.closeImplied templateEndNames).popThroughName "template").forgetToMarker
    let b := { b with templateModes := b.templateModes.drop 1 }
    { b with mode := b.resetMode }

/-! ## Opening tags -/

/-- A list item closes the one that is open before it; the `names` are those of the items. -/
def leaveItem (b : Construction) (names : List String) : Construction :=
  let bounds := specialNames.filter fun n => !(["address", "div", "p"].contains n)
  match b.stack.find? fun e => e.name.isIn names || e.name.isIn bounds with
  | some e =>
    if e.name.isIn names then (b.closeImpliedExcept e.name.name).popThroughName e.name.name else b
  | none => b

/-- An opening tag in ordinary content, such as `<p>` in a `div`. -/
def bodyOpening (b : Construction) (tag : Tag) : Construction :=
  let name := tag.name
  if name = "html" ∨ name = "body" ∨ name = "frameset" then b
  else if headNames.contains name then b.headOpening tag
  else if blockNames.contains name then b.leaveParagraph.openTag tag
  else if headingNames.contains name then
    let b := b.leaveParagraph
    (if b.current.name.isIn headingNames then b.pop else b).openTag tag
  else if name = "pre" ∨ name = "listing" then
    { b.leaveParagraph.openTag tag with skipLineFeed := true }
  else if name = "form" then
    let inTemplate := b.hasOpen "template"
    if b.form.isSome && !inTemplate then b
    else
      let b := b.leaveParagraph
      let opened := b.openTag tag
      if inTemplate then opened else { opened with form := some b.next }
  else if name = "li" then (b.leaveItem ["li"]).leaveParagraph.openTag tag
  else if name = "dd" ∨ name = "dt" then (b.leaveItem ["dd", "dt"]).leaveParagraph.openTag tag
  else if name = "plaintext" then { b.leaveParagraph.openTag tag with reading := .plain }
  else if name = "button" then
    let b := if b.inScope "button" then
        (b.closeImplied impliedEndNames).popThroughName "button" else b
    b.reconstruct.openTag tag
  else if name = "a" then b.leaveLink.reconstruct.openFormatting tag
  else if formattingNames.contains name then b.reconstruct.openFormatting tag
  else if name = "nobr" then
    let b := b.reconstruct
    (if b.inScope "nobr" then (b.adopt "nobr").reconstruct else b).openFormatting tag
  else if ["applet", "marquee", "object"].contains name then (b.reconstruct.openTag tag).mark
  else if name = "table" then { b.leaveParagraph.openTag tag with mode := .table }
  else if inlineVoidNames.contains name then b.reconstruct.insertTag tag
  else if ["param", "source", "track"].contains name then b.insertTag tag
  else if name = "hr" then b.leaveParagraph.insertTag tag
  else if name = "image" then b.reconstruct.insertTag { tag with name := "img" }
  else if name = "textarea" then
    { b.openText tag (.references name) with skipLineFeed := true }
  else if name = "xmp" then b.leaveParagraph.reconstruct.openText tag (.raw name)
  else if ["iframe", "noembed", "noscript"].contains name then b.openText tag (.raw name)
  else if name = "select" then
    let inTable := [Mode.table, .caption, .rowGroup, .row, .cell].contains b.mode
    { b.reconstruct.openTag tag with mode := if inTable then .selectInTable else .select }
  else if name = "optgroup" ∨ name = "option" then
    (if b.currentIs "option" then b.pop else b).reconstruct.openTag tag
  else if name = "rb" ∨ name = "rtc" then
    (if b.inScope "ruby" then b.closeImplied impliedEndNames else b).openTag tag
  else if name = "rp" ∨ name = "rt" then
    (if b.inScope "ruby" then b.closeImpliedExcept "rtc" else b).openTag tag
  else if name = "math" ∨ name = "svg" then
    let v := if name = "svg" then Vocabulary.svg else .mathml
    let attributes := spellAttributes v tag.attributes
    if tag.selfClosing then b.insertElement ⟨v, name⟩ attributes
    else b.openElement ⟨v, name⟩ attributes
  else if tablePartNames.contains name ∨ name = "frame" ∨ name = "head" then b
  else b.reconstruct.openTag tag

/-! ## Closing tags -/

/-- The closing tag of a `form`. Outside templates it closes the open form, and nothing inside it. -/
def closeForm (b : Construction) : Construction :=
  if b.hasOpen "template" then
    if b.inScope "form" then (b.closeImplied impliedEndNames).popThroughName "form" else b
  else
    match b.form with
    | none => b
    | some id =>
      let b := { b with form := none }
      if anyUpTo (stopsScope []) (fun e => e.id == id) b.stack then
        (b.closeImplied impliedEndNames).removeOpen id
      else b

/-- A closing tag in ordinary content. That of a formatting element is for `adopt`. -/
def bodyClosing (b : Construction) (name : String) : Construction :=
  if name = "body" ∨ name = "html" then b
  else if name = "template" then b.closeTemplate
  else if containerNames.contains name then
    if b.inScope name then (b.closeImplied impliedEndNames).popThroughName name else b
  else if name = "form" then b.closeForm
  else if name = "p" then
    (if b.inButtonScope "p" then b else b.openBare "p").closeParagraph
  else if name = "li" then
    if b.inListScope name then (b.closeImpliedExcept name).popThroughName name else b
  else if name = "dd" ∨ name = "dt" then
    if b.inScope name then (b.closeImpliedExcept name).popThroughName name else b
  else if headingNames.contains name then
    if anyUpTo (stopsScope []) (fun e => e.name.isIn headingNames) b.stack then
      (b.closeImplied impliedEndNames).popThrough fun e => e.name.isIn headingNames
    else b
  else if name = "a" ∨ name = "nobr" ∨ formattingNames.contains name then b.adopt name
  else if ["applet", "marquee", "object"].contains name then
    if b.inScope name then
      ((b.closeImplied impliedEndNames).popThroughName name).forgetToMarker
    else b
  else if name = "br" then b.reconstruct.insertTag ⟨"br", [], false⟩
  else b.closeOther name

/-! ## Tokens -/

/-- A text in ordinary content. `U+0000` counts for nothing. -/
def bodyText (b : Construction) (cs : List Char) : Construction :=
  match cs.filter (· != '\x00') with
  | [] => b
  | kept => b.reconstruct.insertText kept

/-- A token in ordinary content (`Mode.body`). -/
def body (b : Construction) : Token → Construction
  | .opening tag => b.bodyOpening tag
  | .closing name => b.bodyClosing name
  | .text cs => b.bodyText cs
  | .comment => b.insertComment
  | .doctype => b

/-- A token in an element that holds text only (`Mode.text`). -/
def inText (b : Construction) : Token → Construction
  | .text cs => b.insertText cs
  | .closing _ => { b.pop with mode := b.outerMode, reading := .ordinary }
  | _ => b

end Construction

end ViewBinding.Html
