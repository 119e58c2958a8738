import ViewBinding.Session.Action

/-!
# Sessions

A session is a world together with the names under which somebody holds what is in it, the current
store, the methods, and the history of what happened. A node that has a name is held, and so are,
while a command is in progress, the nodes and the stores that it works on.

Every write that changes a value and every event that is fired is a delivery with a number of its
own; the history tells for each who was reached by it, and in which order.
-/

namespace ViewBinding

open Json (Value)

/-- What happened. The entries of one delivery have its number (`Happening.number?`). -/
inductive Happening where
  | noted (text : String)
  | called (name : String) (seen : Value)
  /-- A value was written that was not there before, and its delivery begun. -/
  | wrote (delivery : Nat) (store : StoreId) (key : String) (value : Value)
  /-- The observer of a subscription was told of a value that was written. -/
  | told (delivery : Nat) (store : StoreId) (subscription : Subscription) (value : Value)
  /-- An event was fired at a node, and its delivery begun. -/
  | fired (delivery : Nat) (node : NodeId) (event : String)
  /-- A listener of a node was told of an event. -/
  | heard (delivery : Nat) (node : NodeId) (listener : Nat)

/-- A `World` with the names of what somebody holds. -/
structure Session where
  world : World Client
  /-- The current store, on which observers and listeners work; a method works on that of its scope. -/
  store : StoreId
  methods : Table Client := []
  /-- The named nodes. Each of them lives, with all below it. -/
  nodes : Table NodeId := []
  /-- The kept subscriptions. Keeping one does not make it last (see `guards`). -/
  subscriptions : Table Subscription := []
  listeners : Table Nat := []
  /-- The kept lists of guards, which `Ending.take` took from nodes. -/
  guards : Table (List Guard) := []
  /-- The nodes that commands in progress work on, and that live meanwhile (`holdsNode`). -/
  busyNodes : List NodeId := []
  /-- The stores that commands in progress work on (`holdsStore`). -/
  busyStores : List StoreId := []
  deliveries : Nat := 0
  /-- What happened, the latest first. -/
  history : List Happening := []

namespace Session

/-- A session with one store, and nothing else in its world. -/
def start (model : Value) (methods : List (String × Client)) : Session :=
  { world := { stores := [Store.ofValue model] }, store := 0, methods := Table.ofList methods }

/-! ## What is held -/

/-- Whether a node is held: by a name, or by a command in progress. -/
def holdsNode (s : Session) (n : NodeId) : Bool :=
  s.nodes.any (fun entry => entry.2 = n) || s.busyNodes.contains n

/-- Whether a store is held: as the current one, or by a command in progress. -/
def holdsStore (s : Session) (id : StoreId) : Bool :=
  s.store = id || s.busyStores.contains id

/-- The session without the nodes that nobody holds any more (`World.sweep`). -/
def sweep (s : Session) : Session :=
  { s with world := s.world.sweep s.holdsNode }

/-- Runs a part of a command while some nodes and stores are held. -/
def holding (nodes : List NodeId) (stores : List StoreId) (s : Session)
    (f : Session → Option Session) : Option Session :=
  (f { s with busyNodes := nodes ++ s.busyNodes, busyStores := stores ++ s.busyStores }).map
    fun after => { after with busyNodes := s.busyNodes, busyStores := s.busyStores }

/-! ## Looking up -/

/-- The node of the given name with everything below it, where `nodes` has the name. -/
def view? (s : Session) (name : String) : Option (View Client) :=
  (s.nodes.get? name).bind s.world.forest.find?

/-- The store of a scope: the one that a method was given, else the current one. -/
def storeIn (s : Session) (scope : Option StoreId) : StoreId :=
  scope.getD s.store

/-- The value under a key of the store of a scope (`storeIn`). -/
def value? (s : Session) (scope : Option StoreId) (key : String) : Option Value :=
  s.world.stores.value? (s.storeIn scope) key

/-- How many observers a key of the current store has (`subscriber_count`). -/
def subscriberCount (s : Session) (key : String) : Nat :=
  (s.world.stores[s.store]?.map (·.subscriberCount key)).getD 0

/-- The current store as one value (`to_json`). -/
def model (s : Session) : Value :=
  (s.world.stores[s.store]?.map (·.toValue)).getD (.object [])

/-! ## Names and history -/

/-- The session with a name for a node; the name stands for nothing else any more, so what only it held may
die with the next `sweep`. -/
def assign (s : Session) (name : String) (n : NodeId) : Session :=
  { s with nodes := s.nodes.insert name n }

/-- The session with a happening added to its `history`. -/
def record (s : Session) (h : Happening) : Session :=
  { s with history := h :: s.history }

/-- The session with the next delivery begun, of which `h` tells. -/
def begin (s : Session) (h : Nat → Happening) : Session :=
  { s.record (h s.deliveries) with deliveries := s.deliveries + 1 }

/-! ## Changing a part -/

/-- The session with its forest changed (`Edit.append`, `Edit.insertBefore` and the like). -/
def changeForest (s : Session) (f : Forest (Node Client) → Forest (Node Client)) : Session :=
  { s with world := { s.world with forest := f s.world.forest } }

/-- The session with a node changed (`World.updateNode`). -/
def changeNode (s : Session) (n : NodeId) (f : Node Client → Node Client) : Session :=
  { s with world := s.world.updateNode n f }

/-- The session with its stores changed. -/
def changeStores (s : Session) (f : Stores Client → Stores Client) : Session :=
  { s with world := { s.world with stores := f s.world.stores } }

/-! ## Replies about nodes -/

/-- A reply about a node, `.noSuchNode` if there is none. -/
def atNode (s : Session) (name : String) (f : View Client → Reply) : Reply :=
  match s.view? name with
  | none => .failed .noSuchNode
  | some t => f t

/-- A reply about a node, with the session afterwards; without such a node it stays as it is. -/
def changeAt (s : Session) (name : String) (f : View Client → Reply × Session) : Reply × Session :=
  match s.view? name with
  | none => (.failed .noSuchNode, s)
  | some t => f t

end Session

end ViewBinding
