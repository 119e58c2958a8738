import ViewBinding.Session.State

/-!
# Binding and releasing

The commands that bind a view, always to the current store, and those that end subscriptions. None
of them makes a client run.
-/

namespace ViewBinding

open Json (Value)

namespace Session

/-! ## Binding -/

/-- The compiler of a session: its current store and its methods, with the given `options` and `registry`.
-/
def compiler (s : Session) (options : Options) (registry : Registry) : Compiler Client :=
  { store := s.store, methods := s.methods, options := options, registry := registry }

/-- Binds a directive to a node, and replies with the outcome and the findings (`World.applyAt`). -/
def applyAt (s : Session) (n : NodeId)
    (f : Bool → View Client → Wiring Client → Applied Client) : Reply × Session :=
  let (outcome, diagnostics, world) := s.world.applyAt n f
  (.applied outcome diagnostics, { s with world := world })

/-- Performs a command that binds a view: `compile`, `dispatch`, the `apply` of one strategy, `bind_text`.
-/
def bind (s : Session) : Bind → Reply × Session
  | .compile node options registry =>
    s.changeAt node fun t =>
      match s.world.compile (s.compiler options registry) t.id with
      | .error e => (.failed (.compile e), s)
      | .ok (report, world) => (.report report, { s with world := world })
  | .dispatch node name value options registry =>
    s.changeAt node fun t =>
      match Directive.parse name value options with
      | none => (.nothing, s)
      | some d => s.applyAt t.id ((s.compiler options registry).dispatch d)
  | .apply node strategy key modifier name value options =>
    s.changeAt node fun t =>
      let binding : Binding := ⟨value.or (s.value? none key), key, modifier, name⟩
      s.applyAt t.id (strategy.apply (s.compiler options .empty).toSetting binding)
  | .text node delimiters =>
    s.changeAt node fun t =>
      let (marker, world) := s.world.bindText s.store delimiters t.id
      (.marker marker, { s with world := world })

/-! ## Subscriptions of clients -/

/-- The session with one more observer of a key of a store (`Store.subscribe`). -/
def observe (s : Session) (id : StoreId) (key : String) (observer : Observer Client) : Session :=
  s.changeStores (·.update id (·.subscribe key observer))

/-- Lets a client observe a key of a store, and keeps the `Subscription` under a name. -/
def subscribe (s : Session) (scope : Option StoreId) (name key : String) (code : Client) :
    Reply × Session :=
  let id := s.storeIn scope
  match s.world.stores[id]? with
  | none => (.nothing, s)
  | some store =>
    let sub := store.nextSubscription key
    (.subscription sub,
     { s.observe id key (.client code) with subscriptions := s.subscriptions.insert name sub })

/-- Lets a client hear an event at a node (`add_event_listener`), and keeps the number of the listener
under a name. -/
def listen (s : Session) (node event name : String) (code : Client) : Reply × Session :=
  s.changeAt node fun t =>
    let id := t.val.nextListener
    (.text (some (describeListener id)),
     { s.changeNode t.id (·.addListener event (.client code)) with
       listeners := s.listeners.insert name id })

/-- Lets a client observe a key of a store as long as a node lives (`retain_subscription`). Without such a
node the client observes the key all the same, and nobody holds its subscription. -/
def retain (s : Session) (scope : Option StoreId) (node key : String) (code : Client) :
    Reply × Session :=
  let id := s.storeIn scope
  match s.view? node with
  | none => (.failed .noSuchNode, s.observe id key (.client code))
  | some t => (.nothing, { s with world := s.world.retain id key (.retained code) t.id })

/-! ## Ending subscriptions -/

/-- The list of guards that is kept under a name. -/
def guardsOf (s : Session) (name : String) : List Guard :=
  (s.guards.get? name).getD []

/-- Ends a subscription to the store of a scope, and replies whether it was registered (`unsubscribe`). -/
def cancel (s : Session) (scope : Option StoreId) (sub : Subscription) : Reply × Session :=
  let id := s.storeIn scope
  (.flag (s.world.stores[id]?.any (·.isRegistered sub)),
   s.changeStores (·.update id (·.unsubscribe sub)))

/-- Performs a command that ends subscriptions: by their number, by the guards that hold them, or by
`release_subtree`. -/
def finish (s : Session) (scope : Option StoreId) : Ending → Reply × Session
  | .unsubscribe name =>
    match s.subscriptions.get? name with
    | none => (.failed .noSuchName, s)
    | some sub => s.cancel scope sub
  | .cancel sub => s.cancel scope sub
  | .take node name =>
    s.changeAt node fun t =>
      let taken := t.val.guards
      (.texts (taken.map Guard.describe),
       { (({ s with world := s.world.updateNode t.id (·.clearGuards) }).changeStores
           (·.endGuards (s.guardsOf name))) with
         guards := s.guards.insert name taken })
  | .releaseGuards name =>
    let list := s.guardsOf name
    let (successes, stores) :=
      World.giveUp (s.world.isAlive s.holdsStore) list s.world.stores
    (.released ((list.map (·.subscription.key)).zip successes),
     { s with world := { s.world with stores := stores }, guards := s.guards.erase name })
  | .dropGuards name =>
    let list := s.guardsOf name
    (.count list.length,
     { s.changeStores (·.endGuards list) with guards := s.guards.erase name })
  | .release node =>
    s.changeAt node fun t =>
      let (count, world) := s.world.release s.holdsStore t.id
      (.count count, { s with world := world })

end Session

end ViewBinding
