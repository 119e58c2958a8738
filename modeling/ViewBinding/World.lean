import ViewBinding.Compiler

/-!
# Worlds

All nodes and all stores there are. A node that stands below no other is a root of the forest.

Nodes live as long as somebody holds them or a node above them; `sweep` lets go of the others, and
the subscriptions that they hold end. A store lives as long as somebody holds it or a listener works
on it. A subscription to a store that lives no more can still be given up, but not with success:
that is all by which a dead store can be told.
-/

namespace ViewBinding

open Json (Value)

/-- All nodes and all stores. A node or a store goes by its number, and `next` is that of the next node. -/
structure World (κ : Type) where
  forest : Forest (Node κ) := []
  stores : Stores κ := []
  next : NodeId := 0
deriving Inhabited

namespace World

variable {κ : Type}

/-! ## Nodes -/

/-- The node of a number, without its place in the view. -/
def node? (w : World κ) (n : NodeId) : Option (Node κ) :=
  w.forest.val? n

/-- The world with a node changed (`Forest.update`). -/
def updateNode (w : World κ) (n : NodeId) (f : Node κ → Node κ) : World κ :=
  { w with forest := w.forest.update n (Tree.mapRoot f) }

/-- The world with the view of a piece of markup as a new root, numbered `next`. -/
def build (w : World κ) (m : Markup) : World κ :=
  let (t, next) := View.ofMarkup w.next m
  { w with forest := w.forest ++ [t], next := next }

/-- What a view is worked with; `World.settle` puts the view back. -/
def wiring (w : World κ) : Wiring κ :=
  { stores := w.stores, next := w.next }

/-- The world once a view has been worked with: `view` stands in the place of the node, and what was
taken out of it are new roots. -/
def settle (w : World κ) (n : NodeId) (view : View κ) (wiring : Wiring κ) : World κ :=
  { forest := w.forest.expand n (fun _ => [view]) ++ wiring.removed
    stores := wiring.stores
    next := wiring.next }

/-- The views that were the children of a node before its text content was set (`set_text_content`); and
the world afterwards. What bound the former children still does. -/
def setText (w : World κ) (n : NodeId) (text : String) : Forest (Node κ) × World κ :=
  match w.forest.find? n with
  | none => ([], w)
  | some t =>
    let written := View.setText w.next text t
    (written.removed,
     { w with
       forest := w.forest.expand n (fun _ => [written.view]) ++ written.removed
       next := w.next + 1 })

/-! ## Binding -/

/-- Lets a node show a new value, as the observer says: by `write_text`, `set_value` or `set_payload`. A
client is not a matter of the world. -/
def refresh (w : World κ) (observer : Observer κ) (value : Value) : World κ :=
  let text := Value.display (some value)
  match observer with
  | .content n =>
    match w.forest.find? n with
    | none => w
    | some t =>
      let (view, _, wiring) := w.wiring.writeText text t
      w.settle n view wiring
  | .field n => w.updateNode n (·.setValue text)
  | .marker n template marker => w.updateNode n (·.setPayload (marker.render template text))
  | .client _ => w
  | .retained _ => w

/-- Binds the first marker of a node's text (`bind_text`). -/
def bindText (w : World κ) (store : StoreId) (delimiters : String × String) (n : NodeId) :
    Option Marker × World κ :=
  match w.forest.find? n with
  | none => (none, w)
  | some t =>
    let (marker, view, wiring) := w.wiring.bindMarker store delimiters t
    (marker, w.settle n view wiring)

/-- Lets a node hold the guard of a new subscription (`retain_subscription`). -/
def retain (w : World κ) (store : StoreId) (key : String) (observer : Observer κ) (n : NodeId) :
    World κ :=
  match w.forest.find? n with
  | none => w
  | some t =>
    let (view, wiring) := w.wiring.watch store key observer t
    w.settle n view wiring

/-- Applies a binding to a node, and puts what `f` made of it in its place. `f` is told whether the node
has a parent. -/
def applyAt (w : World κ) (n : NodeId) (f : Bool → View κ → Wiring κ → Applied κ) :
    Outcome × List Diagnostic × World κ :=
  match w.forest.find? n with
  | none => (.skipped, [], w)
  | some t =>
    let a := f (w.forest.parent? n).isSome t w.wiring
    (a.outcome, a.wiring.diagnostics, w.settle n a.view a.wiring)

/-- Compiles everything below a node (`Compiler.compile`). -/
def compile (w : World κ) (c : Compiler κ) (n : NodeId) :
    Except CompileError (Report × World κ) :=
  match w.forest.find? n with
  | none => .error .missingRoot
  | some t => do
    let (report, view, wiring) ← c.compile t w.wiring
    return (report, w.settle n view wiring)

/-! ## Release -/

/-- Ends the subscriptions of some guards one after the other (`release` of a `SubscriptionGuard`);
answers for each whether that was a success, which it is if the store lives and knew the subscription. -/
def giveUp (alive : StoreId → Bool) : List Guard → Stores κ → List Bool × Stores κ
  | [], stores => ([], stores)
  | g :: gs, stores =>
    let success := alive g.store && stores[g.store]?.any (·.isRegistered g.subscription)
    let (rest, stores) := giveUp alive gs (stores.endGuard g)
    (success :: rest, stores)

/-- Giving guards up ends them, whatever is answered (`endGuards`). -/
theorem stores_giveUp (alive : StoreId → Bool) (guards : List Guard) (stores : Stores κ) :
    (giveUp alive guards stores).2 = stores.endGuards guards := by
  induction guards generalizing stores with
  | nil => rfl
  | cons g gs ih => exact ih (stores.endGuard g)

/-- Releases nodes one after the other, in the order of `release_subtree`: their guards, and then their
listeners, by which a store may die. Answers how many subscriptions ended with success. -/
def releaseNodes (alive : StoreId → Bool) : List (Node κ) → Stores κ → Nat × Stores κ
  | [], stores => (0, stores)
  | n :: ns, stores =>
    let living := fun id =>
      alive id || (n :: ns).any fun m => m.listeners.any fun r => r.listener.store? = some id
    let (ended, stores) := giveUp living n.guards stores
    let (more, stores) := releaseNodes alive ns stores
    (ended.count true + more, stores)

theorem stores_releaseNodes (alive : StoreId → Bool) (ns : List (Node κ)) (stores : Stores κ) :
    (releaseNodes alive ns stores).2 = stores.endGuards (ns.flatMap (·.guards)) := by
  induction ns generalizing stores with
  | nil => rfl
  | cons n ns ih =>
    have hfirst := stores_giveUp (fun id => alive id || (n :: ns).any fun m =>
      m.listeners.any fun r => r.listener.store? = some id) n.guards stores
    simp only [releaseNodes, List.flatMap_cons, hfirst, ih]
    exact (List.foldl_append ..).symm

/-- Releases a node and everything below it: no listener and no guard is left there. `held` tells the
stores that somebody holds. Answers how many subscriptions ended with success. -/
def release (w : World κ) (held : StoreId → Bool) (n : NodeId) : Nat × World κ :=
  match w.forest.find? n with
  | none => (0, w)
  | some t =>
    let others := w.forest.erase n
    let alive := fun id => held id || View.keepsStore id others
    let (count, stores) := releaseNodes alive (t.nodes.map Prod.snd) w.stores
    (count, { w with forest := w.forest.update n View.released, stores := stores })

/-- Whether a store lives: somebody holds it, or a listener works on it (`View.keepsStore`). -/
def isAlive (w : World κ) (held : StoreId → Bool) (id : StoreId) : Bool :=
  held id || View.keepsStore id w.forest

/-! ## Life and death of nodes -/

mutual

/-- What is left of a root: the root if it is held, else what is left of its children (`sweepRow`). With it
the guards of the nodes that died. -/
def sweepTree (held : NodeId → Bool) : View κ → Forest (Node κ) × List Guard
  | .node id n row =>
    if held id then ([.node id n row], [])
    else
      let (left, guards) := sweepRow held row
      (left, n.guards ++ guards)

/-- What is left of a row of roots, with the guards of the nodes that died. -/
def sweepRow (held : NodeId → Bool) : Forest (Node κ) → Forest (Node κ) × List Guard
  | [] => ([], [])
  | t :: ts =>
    let (left, guards) := sweepTree held t
    let (more, others) := sweepRow held ts
    (left ++ more, guards ++ others)

end

/-- Lets go of the nodes that nobody holds; the subscriptions of their guards end (`Stores.endGuards`). -/
def sweep (w : World κ) (held : NodeId → Bool) : World κ :=
  let (left, guards) := sweepRow held w.forest
  { w with forest := left, stores := w.stores.endGuards guards }

end World

end ViewBinding
