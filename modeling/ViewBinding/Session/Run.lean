import ViewBinding.Session.Binding
import ViewBinding.Session.Edit

/-!
# Running

How a session performs commands and lets clients run.

A write that changes a value is delivered to the observers that the key has at that time, in the
order in which they subscribed, each of them only as long as the store still holds the value: a
nested write has told everybody of a newer one. An event is delivered to the listeners that a node
has at that time. What a delivery does when it reaches a client is an argument of it, `call`, and
`invoke` ties the knot: it bounds how deep clients can make each other run.
-/

namespace ViewBinding

open Json (Value)

/-- What runs the code of a client, in a scope and with a value seen. The answer `none` means that clients
make each other run deeper than the bound. -/
abbrev Caller := Option StoreId → Client → Value → Session → Option Session

namespace Session

/-! ## Writing -/

/-- Tells an observer of a value: a client is called, and for the others the view is written
(`World.refresh`). -/
def tell (call : Caller) (observer : Observer Client) (value : Value) (s : Session) :
    Option Session :=
  match observer with
  | .client code => call none code value s
  | .retained code => call none code value s
  | builtin => some { s with world := s.world.refresh builtin value }.sweep

/-- Tells observers of a value one after the other, as long as the store still holds it. This is the loop
of `set`, which stops where a client has written another value meanwhile. -/
def deliver (call : Caller) (number : Nat) (store : StoreId) (key : String) (value : Value) :
    List (Nat × Observer Client) → Session → Option Session
  | [], s => some s
  | (id, observer) :: rest, s =>
    if s.world.stores[store]?.any (·.holds key value) then
      match tell call observer value (s.record (.told number store ⟨id, key⟩ value)) with
      | none => none
      | some s => deliver call number store key value rest s
    else some s

/-- The session with a value written to a store (`.wrote`), and the delivery of it begun. -/
def write (s : Session) (store : StoreId) (key : String) (value : Value) : Session :=
  (s.changeStores (·.update store (·.write key value))).begin fun number =>
    .wrote number store key value

/-- Sets the value of a key (`set` of a `Model`) and tells its observers, those that there are at that time.
A value that the store holds already is nothing new. -/
def set (call : Caller) (store : StoreId) (key : String) (value : Value) (s : Session) :
    Option Session :=
  match s.world.stores[store]? with
  | none => some s
  | some st =>
    if st.holds key value then some s
    else
      (s.write store key value).holding [] [store]
        (deliver call s.deliveries store key value (st.observersOf key))

/-! ## Events -/

/-- Tells a listener of an event: an `.input` sets its key to what was typed, a `.method` works on its
store, a client sees the event. -/
def hear (call : Caller) (event : String) (listener : Listener Client) (s : Session) :
    Option Session :=
  match listener with
  | .input node store key =>
    match s.world.node? node with
    | none => some s
    | some n => s.set call store key (.string n.value)
  | .method store code => call (some store) code (.string event) s
  | .client code => call none code (.string event) s

/-- Tells listeners of an event one after the other, whatever they do to the table. -/
def hearAll (call : Caller) (number : Nat) (node : NodeId) (event : String) :
    List (Registered Client) → Session → Option Session
  | [], s => some s
  | r :: rest, s =>
    match hear call event r.listener (s.record (.heard number node r.id)) with
    | none => none
    | some s => hearAll call number node event rest s

/-- Fires an event at a node (`dispatch_event`); replies how many listeners heard it. -/
def fire (call : Caller) (node event : String) (s : Session) : Option (Reply × Session) :=
  match s.view? node with
  | none => some (.failed .noSuchNode, s)
  | some t =>
    let listening := t.val.listening event
    let stores := listening.filterMap fun r => r.listener.store?
    ((s.begin fun number => .fired number t.id event).holding [t.id] stores
      (hearAll call s.deliveries t.id event listening)).map fun after =>
        (.count listening.length, after)

/-! ## Commands -/

/-- Performs a command in a scope, which is the store that a method was given. -/
def perform (call : Caller) (scope : Option StoreId) (c : Command Client) (s : Session) :
    Option (Reply × Session) :=
  match c with
  | .set key value => (s.set call (s.storeIn scope) key value).map fun s => (.nothing, s)
  | .fire node event => s.fire call node event
  | .call name event =>
    match s.methods.get? name with
    | none => some (.failed .noSuchName, s)
    | some code =>
      let store := s.storeIn scope
      (s.holding [] [store] (call (some store) code (.string event))).map fun s => (.nothing, s)
  | .subscribe name key code => some (s.subscribe scope name key code)
  | .listen node event name code => some (s.listen node event name code)
  | .retain node key code => some (s.retain scope node key code)
  | .query q => some (s.look scope q, s)
  | .handle h => some (s.handle h)
  | .edit e => some (s.edit e)
  | .ending e => some (s.finish scope e)
  | .bind b => some (s.bind b)
  | .newStore value =>
    some (.nothing,
      { s.changeStores (· ++ [Store.ofValue value]) with store := s.world.stores.length })
  | .note text => some (.nothing, s.record (.noted text))
  | .enter name seen => some (.nothing, s.record (.called name seen))

/-- Runs an action in a scope. After each command the nodes die that nobody holds any more
(`Session.sweep`). -/
def act (call : Caller) (scope : Option StoreId) : Action → Session → Option (Reply × Session)
  | .done reply, s => some (reply, s)
  | .ask command next, s =>
    match s.perform call scope command with
    | none => none
    | some (reply, s) => act call scope (next reply) s.sweep

/-- Runs the code of a client; `depth` bounds how deep clients can make each other run. -/
def invoke : (depth : Nat) → Caller
  | 0 => fun _ _ _ _ => none
  | depth + 1 => fun scope code seen s => (act (invoke depth) scope (code seen) s).map Prod.snd

/-- How deep clients can make each other run. -/
def depth : Nat := 4096

/-- Runs an action from outside, with a history of its own. An action in which clients make each
other run too deep has no effect. -/
def run (s : Session) (a : Action) : Reply × Session :=
  let fresh := { s with history := [] }
  match act (invoke depth) none a fresh with
  | some (reply, after) => (reply, after)
  | none => (.failed .endless, fresh)

end Session

end ViewBinding
