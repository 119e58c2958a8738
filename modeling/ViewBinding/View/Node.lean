import ViewBinding.Markup
import ViewBinding.Store

/-!
# Nodes of a view

A node is a text or an element, together with what binds it: the listeners that hear its events,
and the guards of the subscriptions that keep it up to date. An element that takes input has a value
field; until it is written, the `value` attribute stands in for it.
-/

namespace ViewBinding

/-- What a node is (`NodeData`). -/
inductive Content where
  | text (payload : String)
  /-- An element with its attributes and its value field, if that was written (`set_value`). -/
  | element (tag : String) (attributes : List Attribute) (field : Option String)
deriving DecidableEq, Repr, Inhabited

/-- Who hears an event. -/
inductive Listener (κ : Type) where
  /-- The binding that takes the value field of a node into a key of a store (`Strategy.valueSync`). -/
  | input (node : NodeId) (store : StoreId) (key : String)
  /-- A method, with the store that it works on (`Strategy.eventBinding`). -/
  | method (store : StoreId) (code : κ)
  /-- A client (`Session.listen`). -/
  | client (code : κ)

/-- The store that a listener keeps alive. A guard keeps none. -/
def Listener.store? {κ : Type} : Listener κ → Option StoreId
  | .input _ store _ => some store
  | .method store _ => some store
  | .client _ => none

/-- A listener in the table of a node (`ListenerEntry`). -/
structure Registered (κ : Type) where
  id : Nat
  event : String
  listener : Listener κ

/-- A node without its place in the view, which the `Tree` knows. -/
structure Node (κ : Type) where
  content : Content
  /-- The listeners, in the order of `addListener`, which is that of their numbers. -/
  listeners : List (Registered κ) := []
  /-- The number of the next listener; none is given out twice. -/
  nextListener : Nat := 0
  /-- The guards of the subscriptions that the node holds, in the order of `retain`. -/
  guards : List Guard := []
deriving Inhabited

namespace Node

variable {κ : Type}

/-! ## Content -/

def ofText (payload : String) : Node κ := { content := .text payload }

def isElement (n : Node κ) : Bool :=
  match n.content with
  | .text _ => false
  | .element .. => true

/-- The text of a text node (`payload`). -/
def payload? (n : Node κ) : Option String :=
  match n.content with
  | .text payload => some payload
  | .element .. => none

/-- The tag of an element (`tag`). -/
def tag? (n : Node κ) : Option String :=
  match n.content with
  | .text _ => none
  | .element tag _ _ => some tag

/-- The attributes; a text has none. -/
def attributes (n : Node κ) : List Attribute :=
  match n.content with
  | .text _ => []
  | .element _ attributes _ => attributes

/-- The value of an attribute, the first of that name. -/
def attribute? (n : Node κ) (name : String) : Option String :=
  Attribute.get? name n.attributes

/-- The node with an attribute set (`set_attribute`); a text stays as it is. -/
def setAttribute (n : Node κ) (name value : String) : Node κ :=
  match n.content with
  | .text _ => n
  | .element tag attributes field =>
    { n with content := .element tag (Attribute.set name value attributes) field }

/-- The node with another text (`set_payload`); an element stays as it is. -/
def setPayload (n : Node κ) (text : String) : Node κ :=
  match n.content with
  | .text _ => { n with content := .text text }
  | .element .. => n

/-- Whether `setPayload` changes the node. -/
def payloadDiffers (n : Node κ) (text : String) : Bool :=
  match n.content with
  | .text payload => payload != text
  | .element .. => false

/-- The value of an element that takes input: what was written last, or else the `value` attribute.
A text has the empty one. -/
def value (n : Node κ) : String :=
  match n.content with
  | .text _ => ""
  | .element _ _ (some field) => field
  | .element _ attributes none => (Attribute.get? "value" attributes).getD ""

/-- The node with its value field written (`set_value`); a text stays as it is. -/
def setValue (n : Node κ) (value : String) : Node κ :=
  match n.content with
  | .text _ => n
  | .element tag attributes _ => { n with content := .element tag attributes (some value) }

/-- Whether `setValue` changes the node. -/
def valueDiffers (n : Node κ) (value : String) : Bool :=
  match n.content with
  | .text _ => false
  | .element _ _ field => field != some value

/-! ## Listeners -/

/-- The node with one more listener, numbered `nextListener`. -/
def addListener (n : Node κ) (event : String) (listener : Listener κ) : Node κ :=
  { n with
    listeners := n.listeners ++ [⟨n.nextListener, event, listener⟩]
    nextListener := n.nextListener + 1 }

def hasListener (n : Node κ) (id : Nat) : Bool :=
  n.listeners.any fun r => r.id = id

/-- The node without the listener of the given number (`remove_event_listener`). -/
def removeListener (n : Node κ) (id : Nat) : Node κ :=
  { n with listeners := n.listeners.filter fun r => r.id ≠ id }

/-- The node without listeners (`clear_event_listeners`). -/
def clearListeners (n : Node κ) : Node κ :=
  { n with listeners := [] }

/-- The listeners that hear an event, in the order of the table: those that `dispatch_event` tells. -/
def listening (n : Node κ) (event : String) : List (Registered κ) :=
  n.listeners.filter fun r => r.event = event

/-! ## Guards -/

/-- The node with one more guard (`retain_subscription`). -/
def retain (n : Node κ) (guard : Guard) : Node κ :=
  { n with guards := n.guards ++ [guard] }

/-- The node without guards (`take_subscriptions`). -/
def clearGuards (n : Node κ) : Node κ :=
  { n with guards := [] }

/-- The node with nothing that binds it, as `release_subtree` leaves it. -/
def release (n : Node κ) : Node κ :=
  { n with listeners := [], guards := [] }

end Node

end ViewBinding
