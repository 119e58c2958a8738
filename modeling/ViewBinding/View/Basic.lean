import ViewBinding.Tree.Basic
import ViewBinding.View.Node

/-!
# Views

A view is a tree of nodes. It is made from markup with fresh numbers, can be written as markup again,
and has a text content, which can be set. Setting it takes the former children out of the view whole
and puts at most one fresh text in their place; a view that shows the text already stays as it is.
-/

namespace ViewBinding

/-- A tree of `Node`s: what `descendants` of a node reach, with the node itself. -/
abbrev View (κ : Type) := Tree (Node κ)

namespace View

variable {κ : Type}

/-! ## Markup -/

mutual

/-- The view of a piece of markup, its nodes numbered from `next` on in document order; and the first
number that is not used. -/
def ofMarkup (next : NodeId) : Markup → View κ × NodeId
  | .text payload => (.node next (Node.ofText payload) [], next + 1)
  | .element tag attributes children =>
    let (row, after) := ofRow (next + 1) children
    (.node next { content := .element tag attributes none } row, after)

/-- The views of a row of markup, numbered in document order. -/
def ofRow (next : NodeId) : List Markup → Forest (Node κ) × NodeId
  | [] => ([], next)
  | m :: ms =>
    let (view, middle) := ofMarkup next m
    let (row, after) := ofRow middle ms
    (view :: row, after)

end

mutual

/-- The view as markup, for `outer_html`. What stands below a text is not written. -/
def toMarkup : View κ → Markup
  | .node _ n row =>
    match n.content with
    | .text payload => .text payload
    | .element tag attributes _ => .element tag attributes (toRow row)

def toRow : Forest (Node κ) → List Markup
  | [] => []
  | t :: ts => toMarkup t :: toRow ts

end

/-! ## Text content -/

mutual

/-- The text that a view shows (`text_content`): of a text its own, of an element that of its children.
What stands below a text is not shown. -/
def textChars : View κ → List Char
  | .node _ n row =>
    match n.content with
    | .text payload => payload.toList
    | .element .. => rowChars row

def rowChars : Forest (Node κ) → List Char
  | [] => []
  | t :: ts => textChars t ++ rowChars ts

end

/-- The text that a view shows, as a string of its `textChars`. -/
def textContent (t : View κ) : String :=
  String.ofList t.textChars

/-- Whether a row is a single text node with the given text, for which `set_text_content` does nothing. -/
def showsAlready (text : String) : Forest (Node κ) → Bool
  | [.node _ n _] => n.payload? == some text
  | _ => false

/-- What setting a text content comes to. -/
structure TextWritten (κ : Type) where
  view : View κ
  replaced : Bool
  /-- The former children, if they were replaced; what binds them stays with them. -/
  removed : Forest (Node κ)

/-- The row that shows a text: one text node with the given number, or nothing for no text. -/
def textRow (fresh : NodeId) (text : String) : Forest (Node κ) :=
  if text = "" then [] else [.node fresh (Node.ofText text) []]

/-- Sets the text content of a view; `fresh` is the number for a new text node. -/
def setText (fresh : NodeId) (text : String) : View κ → TextWritten κ
  | .node id n row =>
    if !n.isElement then ⟨.node id (n.setPayload text) row, false, []⟩
    else if showsAlready text row then ⟨.node id n row, false, []⟩
    else ⟨.node id n (textRow fresh text), true, row⟩

/-! ## What binds a view -/

/-- The guards in a view, in document order (`Node.guards`). -/
def guards (t : View κ) : List Guard :=
  t.nodes.flatMap fun entry => entry.2.guards

/-- The view with nothing that binds it (`Node.release`). -/
def released (t : View κ) : View κ :=
  Tree.map Node.release t

/-- Whether a listener in one of the views keeps a store alive (`Listener.store?`). -/
def keepsStore (id : StoreId) (row : Forest (Node κ)) : Bool :=
  (Forest.nodes row).any fun entry => entry.2.listeners.any fun r => r.listener.store? = some id

/-! ## Traversal -/

mutual

/-- The nodes of a view in the order in which a traversal meets them that goes below every element
(`walk_node`). It does not go below a text. -/
def visited : View κ → List (NodeId × Node κ)
  | .node id n row => (id, n) :: if n.isElement then visitedRow row else []

/-- The nodes of a row of views in the order in which a traversal meets them (`walk_children`). -/
def visitedRow : Forest (Node κ) → List (NodeId × Node κ)
  | [] => []
  | t :: ts => visited t ++ visitedRow ts

end

end View

end ViewBinding
