import ViewBinding.World

/-!
# Visits

A visit goes over a view in document order (`walk_node`, `walk_children`) and notes what it meets: a tag
for an element, a hash mark and the text for a text. It goes below an element as that is when it gets
there, so what it adds further up it does not meet.

What is done at a node is up to the client that visits (`NodeVisitor`). The visitors here skip the
children of some elements, take some out of their parent, add an element after some or a text below
some: so what a walk does while the view changes can be run and looked at. A compile pass does none of
this.
-/

namespace ViewBinding

/-- What a client's visitor does at the elements of some tags. -/
structure Visit where
  /-- Where it does not go below the element, as `visit_element` may choose. -/
  prune : List String := []
  /-- Where it takes the element out of its parent (`detach`). -/
  detach : List String := []
  /-- Where it adds a new element to the parent (`append_child`). -/
  cloneAfter : List String := []
  /-- Where it adds a text to the element (`append_child`). -/
  grow : List String := []
deriving Repr, Inhabited

namespace Visit

variable {κ : Type}

def noteText (payload : String) : String := "#" ++ payload

/-- The tag of the element that is added to the parent of another one. -/
def lateTag (tag : String) : String := tag ++ "-late"

def growth (tag : String) : String := "grown in " ++ tag

/-- The world with a piece of markup as the last one below a node. -/
def addTo (w : World κ) (parent : NodeId) (m : Markup) : World κ :=
  let built := w.build m
  { built with forest := built.forest.append parent w.next }

/-- Changes the view at an element, before the visit goes below it. -/
def change (v : Visit) (tag : String) (id : NodeId) (w : World κ) : World κ :=
  let w := if v.detach.contains tag then { w with forest := w.forest.detach id } else w
  let w := if v.cloneAfter.contains tag then
      match w.forest.parent? id with
      | some parent => addTo w parent (.element (lateTag tag) [] [])
      | none => w
    else w
  if v.grow.contains tag then addTo w id (.text (growth tag)) else w

mutual

/-- Visits a node and what is below it, in the order of `walk_node`. -/
def node (v : Visit) : View κ → World κ → List String × World κ
  | .node id n row, w =>
    match n.content with
    | .text payload => ([noteText payload], w)
    | .element tag _ _ =>
      let w := v.change tag id w
      if v.prune.contains tag then ([tag], w)
      else
        let (notes, w) := rowOf v row w
        let grown := if v.grow.contains tag then [noteText (growth tag)] else []
        (tag :: notes ++ grown, w)

/-- Visits the nodes of a row and what is below them (`walk_children`). -/
def rowOf (v : Visit) : Forest (Node κ) → World κ → List String × World κ
  | [], w => ([], w)
  | t :: ts, w =>
    let (notes, w) := node v t w
    let (more, w) := rowOf v ts w
    (notes ++ more, w)

end

end Visit

end ViewBinding
