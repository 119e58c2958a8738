import ViewBinding.Interpolation
import ViewBinding.Json.Printer

/-!
# Stores

A store holds model values under keys, and for each key the observers of it in the order in which
they subscribed. What the observers are told, and in which order, is decided where they run; the
store says who they are.

A key without observers has no entry among the observers. Main statements: `observersOf_subscribe`
and `observersOf_unsubscribe_self` say what a subscription and its release do to the observers of every
key.
-/

namespace ViewBinding

open Json (Value)

/-- The number of a node. A number stands for the same node as long as that lives. -/
abbrev NodeId := Nat

/-- The number of a store. -/
abbrev StoreId := Nat

/-- A subscription to a key: the number by which the store knows its observer. The store gives it out in
`subscribe`, and `unsubscribe` asks for both. -/
structure Subscription where
  id : Nat
  key : String
deriving DecidableEq, Repr, Inhabited

/-- A subscription that a node holds, and that ends with it (`SubscriptionGuard`). -/
structure Guard where
  store : StoreId
  subscription : Subscription
deriving DecidableEq, Repr, Inhabited

/-- Who is told of a new value. `κ` is the code of clients. -/
inductive Observer (κ : Type) where
  /-- The node whose text content shows the value (`Strategy.textSync`). -/
  | content (node : NodeId)
  /-- The node whose value field shows the value (`Strategy.valueSync`). -/
  | field (node : NodeId)
  /-- The text node that shows the value in the place of a marker of its template (`bind_text`). -/
  | marker (node : NodeId) (template : String) (marker : Marker)
  /-- A client that holds its subscription itself (`Session.subscribe`). -/
  | client (code : κ)
  /-- A client whose subscription a node holds (`Session.retain`). -/
  | retained (code : κ)

/-- Model values under keys, and their observers (`Model`). -/
structure Store (κ : Type) where
  data : Table Value := []
  observers : Table (List (Nat × Observer κ)) := []
  /-- The number of the next subscription. -/
  nextId : Nat := 0
deriving Inhabited

namespace Store

variable {κ : Type}

/-- The store that holds the members of an object (`from_json`); any other value makes an empty store. -/
def ofValue : Value → Store κ
  | .object members => { data := members }
  | _ => {}

/-- All values as one object (`to_json`). -/
def toValue (s : Store κ) : Value :=
  .object s.data

def get? (s : Store κ) (key : String) : Option Value :=
  s.data.get? key

/-- Whether a value is the one under a key. A delivery goes on while this holds (`Session.deliver`). -/
def holds (s : Store κ) (key : String) (value : Value) : Bool :=
  match s.get? key with
  | some v => v.same value
  | none => false

/-- The store with a value under a key. Nobody is told; `Session.set` tells the observers. -/
def write (s : Store κ) (key : String) (value : Value) : Store κ :=
  { s with data := s.data.insert key value }

/-- The observers of a key with the numbers of their subscriptions, in the order of `subscribe`. -/
def observersOf (s : Store κ) (key : String) : List (Nat × Observer κ) :=
  (s.observers.get? key).getD []

/-- How many observers a key has (`subscriber_count`). -/
def subscriberCount (s : Store κ) (key : String) : Nat :=
  (s.observersOf key).length

/-- The subscription that the next observer of a key gets (`subscribe`). -/
def nextSubscription (s : Store κ) (key : String) : Subscription :=
  ⟨s.nextId, key⟩

/-- The store with one more observer of a key, the last one; it gets `nextSubscription`. -/
def subscribe (s : Store κ) (key : String) (observer : Observer κ) : Store κ :=
  { s with
    observers := s.observers.insert key (s.observersOf key ++ [(s.nextId, observer)])
    nextId := s.nextId + 1 }

/-- Whether a subscription is registered, under its key and with its number. -/
def isRegistered (s : Store κ) (sub : Subscription) : Bool :=
  (s.observersOf sub.key).any fun entry => entry.1 = sub.id

/-- The store without a subscription (`unsubscribe`); the others stand in their order. -/
def unsubscribe (s : Store κ) (sub : Subscription) : Store κ :=
  match (s.observersOf sub.key).filter fun entry => entry.1 ≠ sub.id with
  | [] => { s with observers := s.observers.erase sub.key }
  | kept => { s with observers := s.observers.insert sub.key kept }

/-! ## What a subscription changes -/

theorem observersOf_subscribe_self (s : Store κ) (key : String) (observer : Observer κ) :
    (s.subscribe key observer).observersOf key = s.observersOf key ++ [(s.nextId, observer)] := by
  simp [subscribe, observersOf, Table.get?_insert_self]

theorem observersOf_subscribe_of_ne (s : Store κ) {key other : String} (h : other ≠ key)
    (observer : Observer κ) :
    (s.subscribe key observer).observersOf other = s.observersOf other := by
  simp [subscribe, observersOf, Table.get?_insert_of_ne h]

theorem observersOf_unsubscribe_self (s : Store κ) (sub : Subscription) :
    (s.unsubscribe sub).observersOf sub.key =
      (s.observersOf sub.key).filter fun entry => entry.1 ≠ sub.id := by
  rw [unsubscribe]
  split
  · next h => simp only [observersOf, Table.get?_erase_self] at h ⊢; exact h.symm
  · simp only [observersOf, Table.get?_insert_self, Option.getD_some]

theorem observersOf_unsubscribe_of_ne (s : Store κ) (sub : Subscription) {other : String}
    (h : other ≠ sub.key) :
    (s.unsubscribe sub).observersOf other = s.observersOf other := by
  rw [unsubscribe]
  split
  · simp [observersOf, Table.get?_erase_of_ne h]
  · simp [observersOf, Table.get?_insert_of_ne h]

end Store

end ViewBinding
