import ViewBinding.Html.Body

/-!
# Content of tables

The rules for tokens in the parts of a table. What has no place in a table is put in front of it;
text is held back until the token after it, and put in front of the table unless it is blank.
-/

namespace ViewBinding.Html

namespace Construction

/-- Places a token by the rules of ordinary content (`body`), in front of the table. -/
def foster (b : Construction) (t : Token) : Construction :=
  { ({ b with fostering := true }).body t with fostering := false }

/-- Whether the attribute `type` of a tag says that it is hidden. -/
def isHidden (tag : Tag) : Bool :=
  match tag.attributes.find? fun a => a.1 = "type" with
  | some a => lowerName a.2 == "hidden"
  | none => false

/-! ## Between the parts -/

/-- An opening tag between the parts of a table. One that has no place there is for `foster`. -/
def tableOpening (b : Construction) (tag : Tag) : Step :=
  let name := tag.name
  let cleared := b.popToNames tableScopeNames
  if name = "caption" then done { cleared.mark.openTag tag with mode := .caption }
  else if name = "colgroup" then done { cleared.openTag tag with mode := .columnGroup }
  else if name = "col" then again (cleared.openBare "colgroup") .columnGroup (.opening tag)
  else if rowGroupNames.contains name then done { cleared.openTag tag with mode := .rowGroup }
  else if ["td", "th", "tr"].contains name then
    again (cleared.openBare "tbody") .rowGroup (.opening tag)
  else if name = "table" then
    if b.inTableScope ["table"] then
      let b := b.popThroughName "table"
      again b b.resetMode (.opening tag)
    else done b
  else if ["style", "script", "template"].contains name then done (b.headOpening tag)
  else if name = "input" then
    if isHidden tag then done (b.insertTag tag) else done (b.foster (.opening tag))
  else if name = "form" then
    if b.hasOpen "template" || b.form.isSome then done b
    else done { b.insertTag tag with form := some b.next }
  else done (b.foster (.opening tag))

/-- A closing tag between the parts of a table. -/
def tableClosing (b : Construction) (name : String) : Step :=
  if name = "table" then
    if b.inTableScope ["table"] then
      let b := b.popThroughName "table"
      done { b with mode := b.resetMode }
    else done b
  else if name = "body" ∨ name = "html" ∨ tablePartNames.contains name then done b
  else if name = "template" then done b.closeTemplate
  else done (b.foster (.closing name))

/-- A token between the parts of a table (`Mode.table`). -/
def table (b : Construction) : Token → Step
  | .opening tag => b.tableOpening tag
  | .closing name => b.tableClosing name
  | .text cs =>
    if b.current.name.isIn fosteringNames then
      again { b with outerMode := b.mode } .tableText (.text cs)
    else done (b.foster (.text cs))
  | .comment => done b.insertComment
  | .doctype => done b

/-- Places the text that was held back (`pending`): in the table if it is blank, in front of it if not. -/
def placePending (b : Construction) : Construction :=
  let cs := b.pending
  let b := { b with pending := [], mode := b.outerMode }
  if cs.any fun c => !isSpace c then b.foster (.text cs)
  else if cs.isEmpty then b
  else b.insertText cs

/-- A token after text in a table (`Mode.tableText`). -/
def tableText (b : Construction) : Token → Step
  | .text cs => done { b with pending := b.pending ++ cs.filter (· != '\x00') }
  | t => again b.placePending b.outerMode t

/-! ## Captions and columns -/

/-- Closes the `caption`. -/
def closeCaption (b : Construction) : Construction :=
  ((b.closeImplied impliedEndNames).popThroughName "caption").forgetToMarker

/-- A token in a caption (`Mode.caption`). -/
def caption (b : Construction) (t : Token) : Step :=
  match t with
  | .opening tag =>
    if tablePartNames.contains tag.name then
      if b.inTableScope ["caption"] then again b.closeCaption .table t else done b
    else done (b.body t)
  | .closing name =>
    if name = "caption" then
      if b.inTableScope ["caption"] then done { b.closeCaption with mode := .table } else done b
    else if name = "table" then
      if b.inTableScope ["caption"] then again b.closeCaption .table t else done b
    else if name = "body" ∨ name = "html" ∨ tablePartNames.contains name then done b
    else done (b.body t)
  | t => done (b.body t)

/-- A token that does not belong to a group of columns: it closes the `colgroup`. -/
def leaveColumnGroup (b : Construction) (t : Token) : Step :=
  if b.currentIs "colgroup" then again b.pop .table t else done b

/-- A token in a group of columns (`Mode.columnGroup`). -/
def columnGroup (b : Construction) (t : Token) : Step :=
  match t with
  | .text cs =>
    let b := match cs.takeWhile isSpace with
      | [] => b
      | blank => b.insertText blank
    match cs.dropWhile isSpace with
    | [] => done b
    | rest => b.leaveColumnGroup (.text rest)
  | .comment => done b.insertComment
  | .opening tag =>
    if tag.name = "html" then done b
    else if tag.name = "col" then done (b.insertTag tag)
    else if tag.name = "template" then done (b.headOpening tag)
    else b.leaveColumnGroup t
  | .closing name =>
    if name = "colgroup" then
      if b.currentIs "colgroup" then done { b.pop with mode := .table } else done b
    else if name = "col" then done b
    else if name = "template" then done b.closeTemplate
    else b.leaveColumnGroup t
  | .doctype => done b

/-! ## Rows and cells -/

/-- Closes what is open inside a group of rows, up to one of `rowGroupNames`. -/
def clearRowGroup (b : Construction) : Construction :=
  b.popToNames ("template" :: "html" :: rowGroupNames)

/-- Closes what is open inside a `tr`. -/
def clearRow (b : Construction) : Construction :=
  b.popToNames ["tr", "template", "html"]

/-- A tag that ends a group of rows, and then counts in the `table`. -/
def leaveRowGroup (b : Construction) (t : Token) : Step :=
  if b.inTableScope ["table", "tbody", "tfoot"] then again b.clearRowGroup.pop .table t else done b

/-- A token in a group of rows (`Mode.rowGroup`). -/
def rowGroup (b : Construction) (t : Token) : Step :=
  match t with
  | .opening tag =>
    let name := tag.name
    if name = "tr" then done { b.clearRowGroup.openTag tag with mode := .row }
    else if name = "td" ∨ name = "th" then again (b.clearRowGroup.openBare "tr") .row t
    else if tablePartNames.contains name then b.leaveRowGroup t
    else b.table t
  | .closing name =>
    if rowGroupNames.contains name then
      if b.inTableScope [name] then done { b.clearRowGroup.pop with mode := .table } else done b
    else if name = "table" then b.leaveRowGroup t
    else if name = "body" ∨ name = "html" ∨ tablePartNames.contains name then done b
    else b.table t
  | t => b.table t

/-- A tag that ends a `tr`, and then counts in the group of rows. -/
def leaveRow (b : Construction) (t : Token) : Step :=
  if b.inTableScope ["tr"] then again b.clearRow.pop .rowGroup t else done b

/-- A token in a row (`Mode.row`). -/
def row (b : Construction) (t : Token) : Step :=
  match t with
  | .opening tag =>
    let name := tag.name
    if name = "td" ∨ name = "th" then done { (b.clearRow.openTag tag).mark with mode := .cell }
    else if tablePartNames.contains name then b.leaveRow t
    else b.table t
  | .closing name =>
    if name = "tr" then
      if b.inTableScope ["tr"] then done { b.clearRow.pop with mode := .rowGroup } else done b
    else if name = "table" then b.leaveRow t
    else if rowGroupNames.contains name then
      if b.inTableScope [name] then b.leaveRow t else done b
    else if name = "body" ∨ name = "html" ∨ tablePartNames.contains name then done b
    else b.table t
  | t => b.table t

/-- Closes the cell, `td` or `th`, and forgets the formatting elements in it (`forgetToMarker`). -/
def closeCell (b : Construction) : Construction :=
  ((b.closeImplied impliedEndNames).popThrough fun e => e.name.isIn ["td", "th"]).forgetToMarker

/-- A token in a cell (`Mode.cell`). -/
def cell (b : Construction) (t : Token) : Step :=
  match t with
  | .opening tag =>
    if tablePartNames.contains tag.name then
      if b.inTableScope ["td", "th"] then again b.closeCell .row t else done b
    else done (b.body t)
  | .closing name =>
    if name = "td" ∨ name = "th" then
      if b.inTableScope [name] then
        done { ((b.closeImplied impliedEndNames).popThroughName name).forgetToMarker with
          mode := .row }
      else done b
    else if name = "body" ∨ name = "html" ∨ ["caption", "col", "colgroup"].contains name then done b
    else if name = "table" ∨ tablePartNames.contains name then
      if b.inTableScope [name] then again b.closeCell .row t else done b
    else done (b.body t)
  | t => done (b.body t)

end Construction

end ViewBinding.Html
