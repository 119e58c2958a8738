import ViewBinding.Session.State

/-!
# Looking, naming and changing

The commands that only look (`Session.look`), those that give names to nodes (`Session.handle`), and
those that change a view (`Session.edit`). None of them makes a client run. What is not held any more
afterwards dies with the next sweep.
-/

namespace ViewBinding

namespace Session

/-! ## Looking -/

/-- What there is to know about the root of a view (`Info`). -/
def infoOf (t : View Client) (hasParent : Bool) : Info :=
  { element := t.val.isElement
    tag := t.val.tag?
    hasChildren := !t.children.isEmpty
    hasParent := hasParent
    payload := t.val.payload?
    value := t.val.value
    textContent := t.textContent
    subscriptions := t.val.guards.length
    descendants := (Forest.nodes t.children).length }

/-- The reply to a command that only looks (`Query`). The session stays as it is. -/
def look (s : Session) (scope : Option StoreId) : Query → Reply
  | .get key => .value (s.value? scope key)
  | .count key => .count (s.subscriberCount key)
  | .methods name => .methods s.methods.names (s.methods.contains name)
  | .known node => s.atNode node fun _ => .nothing
  | .same node other => s.atNode node fun t => s.atNode other fun u => .flag (t.id = u.id)
  | .info node =>
    s.atNode node fun t => .info (infoOf t (s.world.forest.parent? t.id).isSome)
  | .tree node => s.atNode node fun t => .markup t.toMarkup
  | .inner node =>
    s.atNode node fun t => .text (some (String.ofList (Markup.rowChars (View.toRow t.children))))
  | .describe node => s.atNode node fun t => .text (some t.describe)
  | .attributeOf node name => s.atNode node fun t => .text (t.val.attribute? name)
  | .directives node options => s.atNode node fun t => .directives (t.val.directives options)
  | .listeners node event => s.atNode node fun t => .count (t.val.listening event).length
  | .visited node => s.atNode node fun t => .count t.visited.length

/-- The text form of the node of the given name (`outer_html`). -/
def outer? (s : Session) (name : String) : Option String :=
  (s.view? name).map fun t => t.toMarkup.outer

/-! ## Names -/

/-- Gives a name to a node, if there is one, and replies whether there is (`Session.assign`). -/
def assign? (s : Session) (name : String) : Option NodeId → Reply × Session
  | some n => (.flag true, s.assign name n)
  | none => (.flag false, s)

/-- Whether a node is what `find` looks for: an element of the tag, or a text. -/
def isSought {κ : Type} (tag : Option String) (n : Node κ) : Bool :=
  match tag with
  | some tag => n.tag? = some tag
  | none => !n.isElement

/-- The view of a piece of markup, under a name (`World.build`). -/
def build (s : Session) (name : String) (m : Markup) : Reply × Session :=
  { s with world := s.world.build m }.assign? name s.world.next

/-- Performs a command that gives a name to a node (`Handle`). -/
def handle (s : Session) : Handle → Reply × Session
  | .build name m => s.build name m
  | .parse name markup =>
    match parseTemplate markup with
    | .ok m => s.build name m
    | .error e => (.failed (.compile e), s)
  | .child name node index =>
    s.changeAt node fun t => s.assign? name (t.children[index]?.map Tree.id)
  | .find name node tag nth =>
    s.changeAt node fun t =>
      let sought := (Forest.nodes t.children).filter fun entry => isSought tag entry.2
      s.assign? name (sought[nth]?.map Prod.fst)
  | .parent name node =>
    s.changeAt node fun t => s.assign? name (s.world.forest.parent? t.id)
  | .drop name =>
    (.flag (s.nodes.contains name), { s with nodes := s.nodes.erase name })

/-! ## Views -/

/-- Performs a command that changes a view (`Edit`). Of a name without a node it replies `.noSuchNode`, and
nothing changes. -/
def edit (s : Session) : Edit → Reply × Session
  | .setAttribute node name value =>
    s.changeAt node fun t => (.nothing, s.changeNode t.id (·.setAttribute name value))
  | .append node child =>
    s.changeAt node fun t => s.changeAt child fun c =>
      (.nothing, s.changeForest (·.append t.id c.id))
  | .insertBefore node child reference =>
    s.changeAt node fun t => s.changeAt child fun c => s.changeAt reference fun r =>
      (.nothing, s.changeForest (·.insertBefore t.id c.id r.id))
  | .remove node child =>
    s.changeAt node fun t => s.changeAt child fun c =>
      (.flag (s.world.forest.isChild t.id c.id), s.changeForest (·.remove t.id c.id))
  | .detach node =>
    s.changeAt node fun t => (.nothing, s.changeForest (·.detach t.id))
  | .setPayload node text =>
    s.changeAt node fun t =>
      (.flag (t.val.payloadDiffers text), s.changeNode t.id (·.setPayload text))
  | .setValue node text =>
    s.changeAt node fun t =>
      (.flag (t.val.valueDiffers text), s.changeNode t.id (·.setValue text))
  | .setText node text =>
    s.changeAt node fun t =>
      let (removed, world) := s.world.setText t.id text
      (.texts (List.map (fun r => (View.toMarkup r).outer) removed), { s with world := world })
  | .unlisten node name =>
    s.changeAt node fun t =>
      match s.listeners.get? name with
      | none => (.failed .noSuchName, s)
      | some id => (.flag (t.val.hasListener id), s.changeNode t.id (·.removeListener id))
  | .clearListeners node =>
    s.changeAt node fun t => (.nothing, s.changeNode t.id (·.clearListeners))
  | .visit node includingRoot v =>
    s.changeAt node fun t =>
      let (notes, world) :=
        if includingRoot then v.node t s.world else v.rowOf t.children s.world
      (.texts notes, { s with world := world })

end Session

end ViewBinding
