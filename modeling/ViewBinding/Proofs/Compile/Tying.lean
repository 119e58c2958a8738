import ViewBinding.Proofs.Compile.Planning
import ViewBinding.Proofs.Guards.Wiring

/-!
# What an element is tied to

The directives on an element tie its node to the store: each adds at most a guard and a listener, and
which ones are seen from the directive (`Compiler.link?`, `Compiler.listener?`).  What stands below
the node is changed only by a directive that owns the content, and only if it does not show the value
yet (`Compiler.keepsRow`); then all of it is released, and nothing new is bound (`Reworked`).

* `Tied.trans` — the steps of a binding are put together.
* `tied_dispatch` — one directive that does not replace its element.
* `tied_dispatchAll` — all directives, up to one that does.
-/

namespace ViewBinding

open Json (Value)

variable {κ : Type}

/-! ## Nodes -/

namespace Node

/-- Whether nothing binds a node, as `release_subtree` leaves it. -/
def Unbound (n : Node κ) : Prop := n.listeners = [] ∧ n.guards = []

/-- The listeners of a node, and the number that the next one gets. -/
def listenerTable (n : Node κ) : List (Registered κ) × Nat := (n.listeners, n.nextListener)

@[simp] theorem listenerTable_setPayload (n : Node κ) (text : String) :
    (n.setPayload text).listenerTable = n.listenerTable := by
  unfold setPayload
  split <;> rfl

@[simp] theorem listenerTable_setValue (n : Node κ) (value : String) :
    (n.setValue value).listenerTable = n.listenerTable := by
  unfold setValue
  split <;> rfl

@[simp] theorem listenerTable_retain (n : Node κ) (g : Guard) :
    (n.retain g).listenerTable = n.listenerTable := rfl

@[simp] theorem listenerTable_addListener (n : Node κ) (event : String) (listener : Listener κ) :
    (n.addListener event listener).listenerTable =
      (n.listenerTable.1 ++ [⟨n.listenerTable.2, event, listener⟩], n.listenerTable.2 + 1) := rfl

@[simp] theorem isElement_setPayload (n : Node κ) (text : String) :
    (n.setPayload text).isElement = n.isElement := by
  cases hn : n.content <;> simp [setPayload, isElement, hn]

@[simp] theorem isElement_setValue (n : Node κ) (value : String) :
    (n.setValue value).isElement = n.isElement := by
  cases hn : n.content <;> simp [setValue, isElement, hn]

@[simp] theorem isElement_addListener (n : Node κ) (event : String) (listener : Listener κ) :
    (n.addListener event listener).isElement = n.isElement := rfl

@[simp] theorem guards_addListener (n : Node κ) (event : String) (listener : Listener κ) :
    (n.addListener event listener).guards = n.guards := rfl

@[simp] theorem guards_retain (n : Node κ) (g : Guard) : (n.retain g).guards = n.guards ++ [g] := rfl

end Node

namespace Compiler

variable (c : Compiler κ)

/-- The listener that a directive on a node adds (`add_event_listener`), and the event that it hears. -/
def listener? (id : NodeId) (d : Directive) : Option (String × Listener κ) :=
  match c.strategy? d with
  | some .valueSync => some (c.options.inputEvent, .input id c.store d.key)
  | some .eventBinding =>
    d.event?.bind fun event =>
      (c.methods.get? d.key).map fun code => (event, .method c.store code)
  | _ => none

/-- The listeners of a node once one more directive is dispatched (`listener?`). -/
def hear (id : NodeId) (table : List (Registered κ) × Nat) (d : Directive) :
    List (Registered κ) × Nat :=
  match c.listener? id d with
  | none => table
  | some (event, listener) => (table.1 ++ [⟨table.2, event, listener⟩], table.2 + 1)

/-- Whether a directive on an element leaves the row below it as it is: it does not own the content, or
what it shows is there (`showsAlready`). -/
def keepsRow (data : String → Option Value) (row : Forest (Node κ)) (d : Directive) : Bool :=
  !c.ownsContent d || View.showsAlready (Value.display (data d.key)) row

end Compiler

/-! ## What stands below a node -/

/-- What becomes of a row while content is written: `row'` stands in its place, and `more` are out of
the view.  It is `kept` as it is, or all of it is out.  Nodes from `next` on are new. -/
structure Reworked (row : Forest (Node κ)) (next : NodeId) (kept : Bool)
    (row' more : Forest (Node κ)) : Prop where
  same : kept = true → row' = row ∧ more = []
  fresh : kept = false → ∀ x ∈ Forest.nodes row', next ≤ x.1 ∧ x.2.Unbound
  gone : ∀ x ∈ Forest.nodes more, x.2.Unbound ∧ (next ≤ x.1 ∨ x.1 ∈ Forest.ids row)
  ids : ∀ i ∈ Forest.ids row, i ∈ Forest.ids (row' ++ more)
  out : kept = false → ∀ i ∈ Forest.ids row, i ∈ Forest.ids more

namespace Reworked

variable {row row₁ row₂ more₁ more₂ : Forest (Node κ)} {next next' : NodeId} {kept kept' : Bool}

theorem refl (row : Forest (Node κ)) (next : NodeId) : Reworked row next true row [] where
  same _ := ⟨rfl, rfl⟩
  fresh h := absurd h (by simp)
  gone x hx := absurd hx (by simp [Forest.nodes])
  ids i hi := by rwa [List.append_nil]
  out h := absurd h (by simp)

theorem stays (h : Reworked row next kept row₁ more₁) :
    ∀ x ∈ Forest.nodes row₁, next ≤ x.1 ∧ x.2.Unbound ∨ x ∈ Forest.nodes row := by
  intro x hx
  cases hkept : kept with
  | true => exact Or.inr ((h.same hkept).1 ▸ hx)
  | false => exact Or.inl (h.fresh hkept x hx)

theorem trans (h₁ : Reworked row next kept row₁ more₁) (h₂ : Reworked row₁ next' kept' row₂ more₂)
    (hle : next ≤ next') : Reworked row next (kept && kept') row₂ (more₁ ++ more₂) where
  same hkept := by
    obtain ⟨hfirst, hsecond⟩ := Bool.and_eq_true_iff.1 hkept
    obtain ⟨rfl, rfl⟩ := h₁.same hfirst
    obtain ⟨rfl, rfl⟩ := h₂.same hsecond
    exact ⟨rfl, rfl⟩
  fresh hkept x hx := by
    rcases h₂.stays x hx with ⟨hnew, hunbound⟩ | hin
    · exact ⟨Nat.le_trans hle hnew, hunbound⟩
    · -- the first step kept nothing, or the second did not
      cases hfirst : kept with
      | false => exact h₁.fresh hfirst x hin
      | true =>
        rw [hfirst, Bool.true_and] at hkept
        obtain ⟨hnew, hunbound⟩ := h₂.fresh hkept x hx
        exact ⟨Nat.le_trans hle hnew, hunbound⟩
  gone x hx := by
    rw [Forest.nodes_append, List.mem_append] at hx
    rcases hx with hx | hx
    · exact h₁.gone x hx
    · obtain ⟨hunbound, hwhere⟩ := h₂.gone x hx
      refine ⟨hunbound, ?_⟩
      rcases hwhere with hnew | hin
      · exact Or.inl (Nat.le_trans hle hnew)
      · obtain ⟨y, hy, hid⟩ := Forest.mem_ids.1 hin
        rw [← hid]
        rcases h₁.stays y hy with ⟨hnew, -⟩ | hy
        · exact Or.inl hnew
        · exact Or.inr (Forest.mem_ids.2 ⟨y, hy, rfl⟩)
  ids i hi := by
    have hfirst := h₁.ids i hi
    have hsecond := h₂.ids i
    simp only [Forest.ids_append, List.mem_append] at hfirst hsecond ⊢
    tauto
  out hkept i hi := by
    rw [Forest.ids_append, List.mem_append]
    cases hfirst : kept with
    | false => exact Or.inl (h₁.out hfirst i hi)
    | true =>
      rw [hfirst, Bool.true_and] at hkept
      rw [← (h₁.same hfirst).1] at hi
      exact Or.inr (h₂.out hkept i hi)

/-- What binds the row afterwards did so before. -/
theorem guards (h : Reworked row next kept row₁ more₁) :
    ∀ g ∈ (View.ledger row₁).guards, g ∈ (View.ledger row).guards := by
  intro g hg
  simp only [Ledger.guards, View.ledger, List.flatMap_map, List.mem_flatMap] at hg ⊢
  obtain ⟨x, hx, hg⟩ := hg
  rcases h.stays x hx with ⟨-, hunbound⟩ | hin
  · rw [hunbound.2] at hg
    exact absurd hg (by simp)
  · exact ⟨x, hin, hg⟩

theorem ids_release (row : Forest (Node κ)) :
    Forest.ids (Forest.map Node.release row) = Forest.ids row := by
  simp [Forest.ids, Forest.nodes_map]

/-- All of a row is taken out, and at most a new text stands in its place. -/
theorem textRow (row : Forest (Node κ)) (next : NodeId) (text : String) :
    Reworked row next false (View.textRow next text) (Forest.map Node.release row) where
  same h := absurd h (by simp)
  fresh _ x hx := by
    obtain rfl := View.eq_of_mem_textRow hx
    exact ⟨Nat.le_refl _, rfl, rfl⟩
  gone x hx := by
    rw [Forest.nodes_map, List.mem_map] at hx
    obtain ⟨y, hy, rfl⟩ := hx
    exact ⟨⟨rfl, rfl⟩, Or.inr (Forest.mem_ids.2 ⟨y, hy, rfl⟩)⟩
  ids i hi := by
    rw [Forest.ids_append, List.mem_append]
    exact Or.inr (ids_release row ▸ hi)
  out _ i hi := ids_release row ▸ hi

end Reworked

/-- Views that are taken out one after the other. -/
theorem Wiring.discardAll_eq (row : Forest (Node κ)) (w : Wiring κ) : w.discardAll row =
    { w with
      stores := w.stores.endGuards (View.ledger row).guards
      removed := w.removed ++ Forest.map Node.release row } := by
  induction row generalizing w with
  | nil => simp [discardAll, Stores.endGuards, Forest.map]
  | cons t ts ih =>
    have hledger : (View.ledger (t :: ts)).guards = View.guards t ++ (View.ledger ts).guards := by
      rw [View.ledger_cons, Ledger.guards_append, View.guards_ledger]
    have hrest := ih (w.discard t)
    rw [discardAll, List.foldl_cons, ← discardAll, hrest, hledger, Forest.map]
    simp [discard, Stores.endGuards, View.released]

/-! ## Ties -/

/-- The guards in a row that end unless the row is kept. -/
def View.endedRow (kept : Bool) (row : Forest (Node κ)) : List Guard :=
  if kept then [] else (View.ledger row).guards

theorem View.mem_of_mem_endedRow {kept : Bool} {row : Forest (Node κ)} {g : Guard}
    (hg : g ∈ View.endedRow kept row) : g ∈ (View.ledger row).guards := by
  cases kept with
  | true => exact absurd hg (by simp [endedRow])
  | false => exact hg

/-- What binding a node comes to, where numbers of subscriptions start at `k`: the node holds guards
for the links, its listeners are what `hear` makes of them, and the row below it is `kept` or not. -/
structure Tied (store : StoreId) (k : Nat) (links : List (Link κ))
    (hear : List (Registered κ) × Nat → List (Registered κ) × Nat) (kept : Bool)
    (n : Node κ) (row : Forest (Node κ)) (w : Wiring κ)
    (n' : Node κ) (row' more : Forest (Node κ)) (w' : Wiring κ) : Prop where
  element : n'.isElement = n.isElement
  guards : n'.guards = n.guards ++ (numbered k (links.map some)).map (Link.guard store)
  listenerTable : n'.listenerTable = hear n.listenerTable
  planned : Planned store k (links.map some) (View.endedRow kept row) w.stores w'.stores
  next : w.next ≤ w'.next
  removed : w'.removed = w.removed ++ more
  content : Reworked row w.next kept row' more

namespace Tied

variable {store : StoreId} {k : Nat} {links links₂ : List (Link κ)}
  {hear hear₂ : List (Registered κ) × Nat → List (Registered κ) × Nat} {kept kept₂ : Bool}
  {n n₁ n₂ : Node κ} {row row₁ row₂ more₁ more₂ : Forest (Node κ)} {w w₁ w₂ : Wiring κ}

/-- A node is changed, but not in what binds it. -/
theorem of_node (store : StoreId) (k : Nat)
    {hear : List (Registered κ) × Nat → List (Registered κ) × Nat}
    (helement : n₁.isElement = n.isElement) (hguards : n₁.guards = n.guards)
    (htable : n₁.listenerTable = hear n.listenerTable) (row : Forest (Node κ))
    (hstores : w₁.stores = w.stores) (hnext : w.next ≤ w₁.next) (hremoved : w₁.removed = w.removed) :
    Tied store k [] hear true n row w n₁ row [] w₁ where
  element := helement
  guards := by simp [hguards, numbered]
  listenerTable := htable
  planned := hstores ▸ Planned.refl store k w.stores
  next := hnext
  removed := by rw [hremoved, List.append_nil]
  content := Reworked.refl row w.next

theorem refl (store : StoreId) (k : Nat) (n : Node κ) (row : Forest (Node κ)) (w : Wiring κ) :
    Tied store k [] (fun table => table) true n row w n row [] w :=
  of_node store k rfl rfl rfl row rfl (Nat.le_refl _) rfl

/-- A node is given a listener. -/
theorem addListener (store : StoreId) (k : Nat) (n : Node κ) (event : String) (listener : Listener κ)
    (row : Forest (Node κ)) (w : Wiring κ) :
    Tied store k [] (fun table => (table.1 ++ [⟨table.2, event, listener⟩], table.2 + 1)) true n row w
      (n.addListener event listener) row [] w :=
  of_node store k (n.isElement_addListener event listener) (n.guards_addListener event listener)
    (n.listenerTable_addListener event listener) row rfl (Nat.le_refl _) rfl

/-- One binding after the other; the guards below the node are older than both. -/
theorem trans (h₁ : Tied store k links hear kept n row w n₁ row₁ more₁ w₁)
    (h₂ : Tied store (k + links.length) links₂ hear₂ kept₂ n₁ row₁ w₁ n₂ row₂ more₂ w₂)
    (holder : ∀ g ∈ (View.ledger row).guards, g.store = store → g.subscription.id < k) :
    Tied store k (links ++ links₂) (hear₂ ∘ hear) (kept && kept₂) n row w n₂ row₂
      (more₁ ++ more₂) w₂ where
  element := h₂.element.trans h₁.element
  guards := by
    rw [h₂.guards, h₁.guards, List.map_append, numbered_append, List.map_append, List.length_map,
      List.append_assoc]
  listenerTable := by rw [h₂.listenerTable, h₁.listenerTable, Function.comp_apply]
  planned := by
    have hsecond := h₂.planned
    rw [← List.length_map some] at hsecond
    rw [List.map_append]
    refine (h₁.planned.trans hsecond fun g hg =>
      holder g (h₁.content.guards g (View.mem_of_mem_endedRow hg))).congr fun g => ?_
    -- a row that the first step did not keep has no old guards any more
    cases hkept : kept with
    | true => simp [View.endedRow, (h₁.content.same hkept).1]
    | false =>
      rw [Bool.false_and, List.mem_append]
      exact ⟨fun hg => hg.elim (fun hg => hg) fun hg =>
        h₁.content.guards g (View.mem_of_mem_endedRow hg), Or.inl⟩
  next := Nat.le_trans h₁.next h₂.next
  removed := by rw [h₂.removed, h₁.removed, List.append_assoc]
  content := h₁.content.trans h₂.content h₁.next

end Tied

/-! ## Single steps of a binding -/

namespace Wiring

variable {store : StoreId} {k : Nat}

/-- A node is given the guard of a new subscription. -/
theorem tied_watch {w : Wiring κ} (hdue : w.stores.Due store k) (l : Link κ) (id : NodeId)
    (n : Node κ) (row : Forest (Node κ)) :
    ∃ n', (w.watch store l.key l.observer (.node id n row)).1 = .node id n' row ∧
      Tied store k [l] (fun table => table) true n row w n' row []
        (w.watch store l.key l.observer (.node id n row)).2 := by
  have hplanned := planned_subscribe hdue l
  obtain ⟨st, hst, hnext, -⟩ := hdue
  simp only [watch, hst]
  refine ⟨n.retain ⟨store, st.nextSubscription l.key⟩, rfl, rfl, ?_, rfl, hplanned,
    Nat.le_refl _, (List.append_nil _).symm, Reworked.refl row w.next⟩
  simp [numbered, Link.guard, Link.subscription, Store.nextSubscription, hnext]

/-- A text content is written on an element. -/
theorem tied_writeText (w : Wiring κ) (store : StoreId) (k : Nat) (text : String) (id : NodeId)
    {n : Node κ} (hn : n.isElement = true) (row : Forest (Node κ)) :
    ∃ n' row' more, (w.writeText text (.node id n row)).1 = .node id n' row' ∧
      Tied store k [] (fun table => table) (View.showsAlready text row) n row w n' row' more
        (w.writeText text (.node id n row)).2.2 := by
  simp only [writeText, View.setText, hn, Bool.not_true, Bool.false_eq_true, if_false]
  cases hshows : View.showsAlready text row with
  | true =>
    exact ⟨n, row, [], rfl, Tied.of_node store k rfl rfl rfl row rfl (Nat.le_succ _) rfl⟩
  | false =>
    refine ⟨n, View.textRow w.next text, Forest.map Node.release row, rfl, ?_⟩
    simp only [Bool.false_eq_true, if_false, discardAll_eq]
    exact
      { element := rfl
        guards := by simp [numbered]
        listenerTable := rfl
        planned := planned_endGuards store k _ w.stores
        next := Nat.le_succ _
        removed := rfl
        content := Reworked.textRow row w.next text }

end Wiring

/-! ## Directives -/

theorem Stores.Due.hold {stores : Stores κ} {store : StoreId} {k : Nat} (h : stores.Due store k) :
    ∃ data, stores.Hold store data := by
  obtain ⟨st, hst, -⟩ := h
  exact ⟨st.get?, st, hst, fun _ => rfl⟩

namespace Compiler

variable {c : Compiler κ} {k : Nat} {data : String → Option Value}

theorem link?_eq_none {d : Directive} (hd : c.binds d = false) (id : NodeId) : c.link? id d = none := by
  rcases strategy?_of_unbound hd with hs | ⟨hs, -⟩ <;> simp [link?, hs]

theorem hear_unbound {d : Directive} (hd : c.binds d = false) (id : NodeId)
    (table : List (Registered κ) × Nat) : c.hear id table d = table := by
  have hnone : c.listener? id d = none := by
    rcases strategy?_of_unbound hd with hs | ⟨hs, hmissing⟩
    · simp [listener?, hs]
    · rcases hmissing with hevent | hcode
      · simp [listener?, hs, hevent]
      · simp [listener?, hs, hcode]
  rw [hear, hnone]

/-- **One directive.**  Below a root, a directive that does not replace its element ties it to the
store as the directive says. -/
theorem tied_dispatch (hbuiltin : c.registry.Builtin) {d : Directive} (hstays : c.replaces d = false)
    {w : Wiring κ} (hdue : w.stores.Due c.store k) (hhold : w.stores.Hold c.store data) (id : NodeId)
    {n : Node κ} (hn : n.isElement = true) {row : Forest (Node κ)}
    (holder : ∀ g ∈ (View.ledger row).guards, g.store = c.store → g.subscription.id < k) :
    ∃ n' row' more, (c.dispatch d true (.node id n row) w).view = .node id n' row' ∧
      Tied c.store k (c.link? id d).toList (fun table => c.hear id table d) (c.keepsRow data row d) n
        row w n' row' more (c.dispatch d true (.node id n row) w).wiring := by
  have hshown : Value.display (w.stores.value? c.store d.key) = Value.display (data d.key) := by
    rw [hhold.value?_eq]
  generalize hvalue : Value.display (data d.key) = shown at hshown
  cases handled hbuiltin d with
  | unbound hd =>
    have hkeeps : c.keepsRow data row d = true := by simp [keepsRow, ownsContent_eq_false hd]
    rw [dispatch_unbound hd, hkeeps]
    refine ⟨n, row, [], rfl, ?_⟩
    simp only [link?_eq_none hd, hear_unbound hd, Option.toList]
    exact Tied.of_node c.store k rfl rfl rfl row rfl (Nat.le_refl _) rfl
  | text hs =>
    have hkeeps : c.keepsRow data row d = View.showsAlready shown row := by
      simp [keepsRow, ownsContent, hs, hvalue]
    rw [dispatch_text hs hshown]
    simp only [link?, hear, listener?, hkeeps, hs, Option.toList]
    obtain ⟨n₁, row₁, more₁, hview₁, htied₁⟩ := w.tied_writeText c.store k shown id hn row
    obtain ⟨n₂, hview₂, htied₂⟩ := Wiring.tied_watch (htied₁.planned.due hdue)
      ⟨id, d.key, .content id⟩ id n₁ row₁
    rw [hview₁]
    have hboth := htied₁.trans htied₂ holder
    rw [Bool.and_true] at hboth
    exact ⟨n₂, row₁, more₁ ++ [], hview₂, hboth⟩
  | value hs =>
    have hkeeps : c.keepsRow data row d = true := by simp [keepsRow, ownsContent, hs]
    rw [dispatch_value hs hshown]
    simp only [link?, hear, listener?, hkeeps, hs, Option.toList]
    obtain ⟨n₂, hview₂, htied₂⟩ := Wiring.tied_watch hdue ⟨id, d.key, .field id⟩ id
      (n.setValue shown) row
    rw [Tree.mapRoot, Tree.id, hview₂]
    have hset : Tied c.store k [] (fun table => table) true n row w (n.setValue shown) row [] w :=
      Tied.of_node c.store k (n.isElement_setValue shown) (n.guards_setValue shown)
        (n.listenerTable_setValue shown) row rfl (Nat.le_refl _) rfl
    have hheard := Tied.addListener c.store (k + 1) n₂ c.options.inputEvent
      (.input id c.store d.key) row
    exact ⟨_, row, [], rfl, hset.trans (htied₂.trans (hheard _) holder) holder⟩
  | @method hs event hevent code hcode =>
    have hkeeps : c.keepsRow data row d = true := by simp [keepsRow, ownsContent, hs]
    rw [dispatch_method hs hevent hcode]
    simp only [link?, hear, listener?, hkeeps, hs, Option.toList, hevent, hcode, Option.bind_some,
      Option.map_some]
    exact ⟨_, row, [], rfl, Tied.addListener c.store k n event (.method c.store code) row w⟩
  | markup hs => simp [replaces, hs] at hstays

/-- Directives none of which replaces the element. -/
theorem tied_dispatchAll (hbuiltin : c.registry.Builtin) (id : NodeId) {ds : List Directive}
    (hstays : ∀ d ∈ ds, c.replaces d = false) {e : ElementPass κ} {n : Node κ}
    (hn : n.isElement = true) {row : Forest (Node κ)} (hview : e.view = .node id n row)
    (hgone : e.gone = false) (hdue : e.pass.wiring.stores.Due c.store k)
    (hhold : e.pass.wiring.stores.Hold c.store data)
    (holder : ∀ g ∈ (View.ledger row).guards, g.store = c.store → g.subscription.id < k) :
    ∃ n' row' more, (c.dispatchAll ds e).view = .node id n' row' ∧ (c.dispatchAll ds e).gone = false ∧
      Tied c.store k (ds.filterMap (c.link? id)) (fun table => ds.foldl (c.hear id) table)
        (ds.all (c.keepsRow data row)) n row e.pass.wiring n' row' more
        (c.dispatchAll ds e).pass.wiring := by
  induction ds generalizing e k n row with
  | nil => exact ⟨n, row, [], hview, hgone, Tied.refl c.store k n row _⟩
  | cons d ds ih =>
    have hd : c.replaces d = false := hstays d List.mem_cons_self
    obtain ⟨n₁, row₁, more₁, hview₁, htied₁⟩ := tied_dispatch hbuiltin hd hdue hhold id hn holder
    rw [← hview] at hview₁ htied₁
    have hgone₁ : (c.dispatchOn e d).gone = false := by
      have hanswers := dispatch_answers hbuiltin d e.view hhold
      have hnot : (c.dispatch d true e.view e.pass.wiring).outcome ≠ .detached := fun hdetached => by
        rw [hanswers.detached.1 hdetached] at hd
        exact absurd hd (by simp)
      simpa [dispatchOn] using hnot
    have hlength : k + (c.link? id d).toList.length ≥ k := Nat.le_add_right _ _
    obtain ⟨n₂, row₂, more₂, hview₂, hgone₂, htied₂⟩ := ih
      (fun x hx => hstays x (List.mem_cons_of_mem d hx)) (htied₁.element.trans hn) hview₁ hgone₁
      (htied₁.planned.due hdue) ((c.advances_dispatch d true e.view e.pass.wiring).stores.hold hhold)
      (fun g hg hstore => by
        have hold := holder g (htied₁.content.guards g hg) hstore
        omega)
    have hall : c.dispatchAll (d :: ds) e = c.dispatchAll ds (c.dispatchOn e d) := by
      rw [dispatchAll, if_neg (by simp [hgone])]
    have hlinks : (d :: ds).filterMap (c.link? id) =
        (c.link? id d).toList ++ ds.filterMap (c.link? id) := by
      cases hlink : c.link? id d <;> simp [hlink]
    -- the other directives find the row as it was, if the first one keeps it
    have hkeeps : (d :: ds).all (c.keepsRow data row) =
        (c.keepsRow data row d && ds.all (c.keepsRow data row₁)) := by
      rw [List.all_cons]
      cases hkept : c.keepsRow data row d with
      | false => rfl
      | true => rw [(htied₁.content.same hkept).1]
    rw [hall, hlinks, hkeeps]
    refine ⟨n₂, row₂, more₁ ++ more₂, hview₂, hgone₂, ?_⟩
    rw [List.length_map] at htied₂
    exact htied₁.trans htied₂ holder

/-! ## Up to one that replaces the element -/

theorem upToReplacing_eq_self {ds : List Directive} (h : ds.any c.replaces = false) :
    c.upToReplacing ds = ds := by
  induction ds with
  | nil => rfl
  | cons d ds ih =>
    rw [List.any_cons, Bool.or_eq_false_iff] at h
    rw [upToReplacing, h.1, if_neg (by simp), ih h.2]

/-- The first directive that replaces the element is the last one that is dispatched. -/
theorem exists_replacing {ds : List Directive} (h : ds.any c.replaces = true) :
    ∃ front d rest, ds = front ++ d :: rest ∧ (∀ x ∈ front, c.replaces x = false) ∧
      c.replaces d = true ∧ c.upToReplacing ds = front ++ [d] := by
  induction ds with
  | nil => exact absurd h (by simp)
  | cons d ds ih =>
    cases hd : c.replaces d with
    | true => exact ⟨[], d, ds, rfl, by simp, hd, by rw [upToReplacing, hd, if_pos rfl]; rfl⟩
    | false =>
      rw [List.any_cons, hd, Bool.false_or] at h
      obtain ⟨front, d', rest, rfl, hfront, hd', hup⟩ := ih h
      refine ⟨d :: front, d', rest, rfl, ?_, hd', ?_⟩
      · intro x hx
        rcases List.mem_cons.1 hx with rfl | hx
        · exact hd
        · exact hfront x hx
      · rw [upToReplacing, hd, if_neg (by simp), hup, List.cons_append]

theorem any_upToReplacing (ds : List Directive) :
    (c.upToReplacing ds).any c.replaces = ds.any c.replaces := by
  induction ds with
  | nil => rfl
  | cons d ds ih =>
    rw [upToReplacing, List.any_cons, List.any_cons]
    by_cases hd : c.replaces d = true
    · simp [hd]
    · rw [if_neg hd, ih]

/-- Nothing is dispatched behind a directive that replaces the element. -/
theorem dispatchAll_gone (ds : List Directive) {e : ElementPass κ} (h : e.gone = true) :
    c.dispatchAll ds e = e := by
  cases ds with
  | nil => rfl
  | cons d ds => rw [dispatchAll, if_pos h]

theorem dispatchAll_append (a b : List Directive) (e : ElementPass κ) :
    c.dispatchAll (a ++ b) e = c.dispatchAll b (c.dispatchAll a e) := by
  induction a generalizing e with
  | nil => rfl
  | cons d ds ih =>
    rw [List.cons_append, dispatchAll, dispatchAll]
    by_cases hgone : e.gone = true
    · rw [if_pos hgone, if_pos hgone, dispatchAll_gone b hgone]
    · rw [if_neg hgone, if_neg hgone, ih]

/-- A directive that replaces its element puts a new view in its place, and takes it out. -/
theorem dispatch_replacing {d : Directive} (hd : c.replaces d = true) (t : View κ) (w : Wiring κ) :
    ∃ (m : Markup) (w₁ : Wiring κ), w₁.stores = w.stores ∧ w₁.next = w.next ∧
      w₁.removed = w.removed ∧ (c.dispatch d true t w).view = (View.ofMarkup w.next m).1 ∧
      (c.dispatch d true t w).outcome = .detached ∧ (c.dispatch d true t w).wiring =
        ({ w₁ with next := (View.ofMarkup w.next m : View κ × NodeId).2 } : Wiring κ).discard t := by
  have hs : c.strategy? d = some .markupReplace := by simpa [replaces] using hd
  rw [dispatch_markup hs rfl rfl]
  generalize Injected.ofText (Value.display (w.stores.value? c.store d.key)) c.options.markupWrapper
    = injected
  split
  · exact ⟨injected.markup, w.report (.markupFallback d.name d.key), rfl, rfl, rfl, rfl, rfl, rfl⟩
  · exact ⟨injected.markup, w, rfl, rfl, rfl, rfl, rfl, rfl⟩

end Compiler

end ViewBinding
