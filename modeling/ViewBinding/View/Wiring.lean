import ViewBinding.View.Basic
import ViewBinding.Diagnostic

/-!
# Wiring

What the binding of a view works with besides the view itself: the stores, the numbers for new
nodes, the trees that were taken out of the view, and the findings. Each function here works on one
view and answers it as it is afterwards.
-/

namespace ViewBinding

open Json (Value)

/-- Stores by number; a store keeps its number, `Stores.update` changes one in its place. -/
abbrev Stores (κ : Type) := List (Store κ)

namespace Stores

variable {κ : Type}

def update (id : StoreId) (f : Store κ → Store κ) (stores : Stores κ) : Stores κ :=
  stores.modify id f

/-- The value under a key of a store (`Store.get?`). -/
def value? (id : StoreId) (key : String) (stores : Stores κ) : Option Value :=
  stores[id]?.bind (·.get? key)

/-- The stores without the subscription of a guard (`Store.unsubscribe`). -/
def endGuard (stores : Stores κ) (g : Guard) : Stores κ :=
  stores.update g.store (·.unsubscribe g.subscription)

/-- The stores without the subscriptions of some guards, ended one after the other. -/
def endGuards (guards : List Guard) (stores : Stores κ) : Stores κ :=
  guards.foldl endGuard stores

end Stores

/-- What the binding of a view works with besides the view. `World.wiring` starts it, and `World.settle`
takes it back. -/
structure Wiring (κ : Type) where
  stores : Stores κ
  next : NodeId
  /-- The trees that were taken out of the view, which become roots. -/
  removed : Forest (Node κ) := []
  /-- The findings, in the order in which they were made (`report`). -/
  diagnostics : List Diagnostic := []
deriving Inhabited

namespace Wiring

variable {κ : Type}

/-- The wiring with one more finding. -/
def report (w : Wiring κ) (d : Diagnostic) : Wiring κ :=
  { w with diagnostics := w.diagnostics ++ [d] }

/-- The wiring with a view taken out, and nothing left that binds it (`release_subtree`). -/
def discard (w : Wiring κ) (t : View κ) : Wiring κ :=
  { w with
    stores := w.stores.endGuards t.guards
    removed := w.removed ++ [t.released] }

/-- The wiring with some views taken out one after the other (`discard`). -/
def discardAll (w : Wiring κ) (row : Forest (Node κ)) : Wiring κ :=
  row.foldl discard w

/-- Subscribes an observer to a key, and lets the root of the view hold the guard (`subscribe`, then
`retain_subscription`). -/
def watch (w : Wiring κ) (store : StoreId) (key : String) (observer : Observer κ) (t : View κ) :
    View κ × Wiring κ :=
  match w.stores[store]? with
  | none => (t, w)
  | some s =>
    (t.mapRoot (·.retain ⟨store, s.nextSubscription key⟩),
     { w with stores := w.stores.update store (·.subscribe key observer) })

/-- Writes the text content of a view (`write_text`). Children that make room for it are discarded. Answers
also whether there were any to make room. -/
def writeText (w : Wiring κ) (text : String) (t : View κ) : View κ × Bool × Wiring κ :=
  let written := t.setText w.next text
  (written.view, written.replaced, { w with next := w.next + 1 }.discardAll written.removed)

/-- Binds the first marker of a text node (`bind_text`): its text shows the current value of the key, and
follows it. A node without a marker, or that is no text, stays as it is. -/
def bindMarker (w : Wiring κ) (store : StoreId) (delimiters : String × String) (t : View κ) :
    Option Marker × View κ × Wiring κ :=
  match t.val.payload? with
  | none => (none, t, w)
  | some template =>
    match Marker.find? delimiters template with
    | none => (none, t, w)
    | some marker =>
      let shown := marker.render template (Value.display (w.stores.value? store marker.key))
      let (bound, w) := w.watch store marker.key (.marker t.id template marker)
        (t.mapRoot (·.setPayload shown))
      (some marker, bound, w)

end Wiring

end ViewBinding
