import ViewBinding.Proofs.Compile.Tying

/-!
# What a pass links

The nodes that a pass binds, the subscriptions that they hold afterwards and the listeners that they
have are read off the view before the pass: the plan along the itinerary, and `Compiler.hearing`.
Values matter in one place: the content that a directive owns keeps its listeners and guards if it shows
the value already, and is taken out otherwise (`Compiler.takenOut`).

* `Linked.append` — a row is linked part by part.
* `exists_linked_row` — what a pass makes of a row: the plan is carried out, each link is held by its
  node, no new node is bound, and every former node is still there or was released.
-/

namespace ViewBinding

open Json (Value)

variable {κ : Type}

/-! ## Who holds and who hears -/

namespace View

/-- The guards in a row of views, each with the node that holds it. -/
def held (row : Forest (Node κ)) : List (NodeId × Guard) :=
  (ledger row).flatMap fun x => x.2.map fun g => (x.1, g)

@[simp] theorem held_nil : held ([] : Forest (Node κ)) = [] := by
  simp [held]

@[simp] theorem held_append (a b : Forest (Node κ)) : held (a ++ b) = held a ++ held b := by
  simp [held]

@[simp] theorem held_node (id : NodeId) (n : Node κ) (row ts : List (View κ)) :
    held (.node id n row :: ts) = (n.guards.map fun g => (id, g)) ++ (held row ++ held ts) := by
  simp [held]

theorem map_snd_held (row : Forest (Node κ)) : (held row).map Prod.snd = (ledger row).guards := by
  simp [held, Ledger.guards, List.map_flatMap, Function.comp_def]

theorem guards_of_node (id : NodeId) (n : Node κ) (row : Forest (Node κ)) :
    (ledger [.node id n row]).guards = n.guards ++ (ledger row).guards := by
  simp

/-- Of guards that are all old, none is picked out with its node. -/
theorem filter_old {fresh : Guard → Bool} {gs : List Guard} (h : ∀ g ∈ gs, fresh g = false)
    (id : NodeId) : (gs.map fun g => (id, g)).filter (fun x => fresh x.2) = [] := by
  refine List.filter_eq_nil_iff.2 fun x hx => ?_
  obtain ⟨g, hg, rfl⟩ := List.mem_map.1 hx
  simp [h g hg]

theorem held_of_unbound {row : Forest (Node κ)} (h : ∀ x ∈ Forest.nodes row, x.2.Unbound) :
    held row = [] := by
  have hguards : (ledger row).guards = [] := by
    simp only [Ledger.guards, ledger, List.flatMap_map, List.flatMap_eq_nil_iff]
    exact fun x hx => (h x hx).2
  rw [← map_snd_held, List.map_eq_nil_iff] at hguards
  exact hguards

/-- The listeners in a row of views. -/
def listening (row : Forest (Node κ)) : List (NodeId × List (Registered κ)) :=
  (Forest.nodes row).map fun x => (x.1, x.2.listeners)

/-- The nodes in a row of views with no listeners. -/
def silent (row : Forest (Node κ)) : List (NodeId × List (Registered κ)) :=
  (Forest.ids row).map fun i => (i, [])

theorem map_fst_listening (row : Forest (Node κ)) : (listening row).map Prod.fst = Forest.ids row := by
  simp [listening, Forest.ids]

theorem map_fst_silent (row : Forest (Node κ)) : (silent row).map Prod.fst = Forest.ids row := by
  simp [silent, Function.comp_def]

theorem mem_listening {row : Forest (Node κ)} {x : NodeId × Node κ} (hx : x ∈ Forest.nodes row) :
    (x.1, x.2.listeners) ∈ listening row :=
  List.mem_map.2 ⟨x, hx, rfl⟩

theorem mem_silent {row : Forest (Node κ)} {i : NodeId} (hi : i ∈ Forest.ids row) :
    (i, []) ∈ silent row :=
  List.mem_map.2 ⟨i, hi, rfl⟩

end View

namespace Compiler

variable (c : Compiler κ) (data : String → Option Value)

/-- Whether the row below an element shows the values of all directives that own it already
(`showsAlready`). -/
def showsAll (n : Node κ) (row : Forest (Node κ)) : Bool :=
  (n.directives c.options).all (c.keepsRow data row)

mutual

/-- The nodes of a view with the listeners that they are to have after a pass (`hear`). -/
def hearing : View κ → List (NodeId × List (Registered κ))
  | .node id n row =>
    if !n.isElement then View.listening [.node id n row]
    else if (n.directives c.options).any c.replaces then View.silent [.node id n row]
    else
      (id, ((n.directives c.options).foldl (c.hear id) n.listenerTable).1) ::
        if !(n.directives c.options).any c.ownsContent then hearingRow row
        else if c.showsAll data n row then View.listening row
        else View.silent row

/-- The nodes of a row of views with the listeners that they are to have after a pass. -/
def hearingRow : Forest (Node κ) → List (NodeId × List (Registered κ))
  | [] => []
  | t :: ts => hearing t ++ hearingRow ts

end

theorem hearingRow_append (a b : Forest (Node κ)) :
    c.hearingRow data (a ++ b) = c.hearingRow data a ++ c.hearingRow data b := by
  induction a with
  | nil => rw [hearingRow, List.nil_append, List.nil_append]
  | cons t ts ih => rw [List.cons_append, hearingRow, hearingRow, ih, List.append_assoc]

theorem itineraryRow_append (a b : Forest (Node κ)) :
    c.itineraryRow (a ++ b) = c.itineraryRow a ++ c.itineraryRow b := by
  induction a with
  | nil => rw [itineraryRow, List.nil_append, List.nil_append]
  | cons t ts ih => rw [List.cons_append, itineraryRow, itineraryRow, ih, List.append_assoc]

mutual

theorem map_fst_hearing : ∀ t : View κ, (c.hearing data t).map Prod.fst = t.ids
  | .node id n row => by
    have hself : Forest.ids [Tree.node id n row] = Tree.ids (.node id n row) := by
      rw [Forest.ids_cons, Forest.ids_nil, List.append_nil]
    rw [hearing]
    split
    · rw [View.map_fst_listening, hself]
    · split
      · rw [View.map_fst_silent, hself]
      · rw [List.map_cons, Tree.ids_node]
        split
        · rw [map_fst_hearingRow row]
        · split
          · rw [View.map_fst_listening]
          · rw [View.map_fst_silent]

/-- Every node is listed once in `hearing`. -/
theorem map_fst_hearingRow : ∀ row : Forest (Node κ),
    (c.hearingRow data row).map Prod.fst = Forest.ids row
  | [] => by rw [hearingRow, Forest.ids_nil, List.map_nil]
  | t :: ts => by
    rw [hearingRow, List.map_append, map_fst_hearing t, map_fst_hearingRow ts, Forest.ids_cons]

end

/-- The nodes of a view with the listeners that they are to have after a pass below its root. -/
def hearingBelow (t : View κ) : List (NodeId × List (Registered κ)) :=
  (t.id, t.val.listeners) :: c.hearingRow data t.children

theorem map_fst_hearingBelow (t : View κ) : (c.hearingBelow data t).map Prod.fst = t.ids := by
  obtain ⟨id, n, row⟩ := t
  rw [hearingBelow, List.map_cons, map_fst_hearingRow, Tree.ids_node]
  rfl

mutual

/-- The views in a view that a pass takes out: an element that is replaced (`replaces`), and the content of
one that a directive owns and that does not show the value yet (`showsAll`). -/
def takenOut : View κ → Forest (Node κ)
  | .node id n row =>
    if !n.isElement then []
    else if (n.directives c.options).any c.replaces then [.node id n row]
    else if !(n.directives c.options).any c.ownsContent then takenOutRow row
    else if c.showsAll data n row then [] else row

/-- The views in a row of views that a pass takes out. -/
def takenOutRow : Forest (Node κ) → Forest (Node κ)
  | [] => []
  | t :: ts => takenOut t ++ takenOutRow ts

end

theorem takenOutRow_append (a b : Forest (Node κ)) :
    c.takenOutRow data (a ++ b) = c.takenOutRow data a ++ c.takenOutRow data b := by
  induction a with
  | nil => rw [takenOutRow, List.nil_append, List.nil_append]
  | cons t ts ih => rw [List.cons_append, takenOutRow, takenOutRow, ih, List.append_assoc]

mutual

theorem takenOut_sublist : ∀ t : View κ, (Forest.nodes (c.takenOut data t)).Sublist t.nodes
  | .node id n row => by
    have hself : Forest.nodes [Tree.node id n row] = Tree.nodes (.node id n row) :=
      Forest.nodes_singleton _
    have hbelow : (Forest.nodes row).Sublist (Tree.nodes (.node id n row)) := by
      rw [Tree.nodes]
      exact List.sublist_cons_self _ _
    rw [takenOut]
    split
    · exact List.nil_sublist _
    · split
      · rw [hself]
      · split
        · exact (takenOutRow_sublist row).trans hbelow
        · split
          · exact List.nil_sublist _
          · exact hbelow

/-- What is taken out was there, in its order (`takenOut`). -/
theorem takenOutRow_sublist : ∀ row : Forest (Node κ),
    (Forest.nodes (c.takenOutRow data row)).Sublist (Forest.nodes row)
  | [] => by rw [takenOutRow]
  | t :: ts => by
    rw [takenOutRow, Forest.nodes_append, Forest.nodes]
    exact (takenOut_sublist t).append (takenOutRow_sublist ts)

end

/-- The guards of what a pass takes out of a row (`takenOutRow`): with them the subscriptions end. -/
def endedRow (row : Forest (Node κ)) : List Guard := (View.ledger (c.takenOutRow data row)).guards

theorem mem_of_mem_endedRow {row : Forest (Node κ)} {g : Guard} (hg : g ∈ c.endedRow data row) :
    g ∈ (View.ledger row).guards := by
  simp only [endedRow, Ledger.guards, View.ledger, List.flatMap_map, List.mem_flatMap] at hg ⊢
  obtain ⟨x, hx, hg⟩ := hg
  exact ⟨x, (c.takenOutRow_sublist data row).subset hx, hg⟩

theorem endedRow_append (a b : Forest (Node κ)) :
    c.endedRow data (a ++ b) = c.endedRow data a ++ c.endedRow data b := by
  rw [endedRow, takenOutRow_append, View.ledger_append, Ledger.guards_append]
  rfl

/-- The links that a pass over a row is to make (`plan`), at the stops of its itinerary. -/
def planRow (row : Forest (Node κ)) : List (Option (Link κ)) := c.plan (c.itineraryRow row)

end Compiler

/-! ## A row that was linked -/

/-- What a pass makes of a row where numbers start at `k`: `row'` stands in its place, and `more` are
out of the view.  `fresh` tells the guards that the pass makes from the old ones. -/
structure Linked (c : Compiler κ) (data : String → Option Value) (fresh : Guard → Bool) (k : Nat)
    (row : Forest (Node κ)) (w : Wiring κ) (row' more : Forest (Node κ)) (w' : Wiring κ) : Prop where
  planned : Planned c.store k (c.planRow row) (c.endedRow data row) w.stores w'.stores
  held : (View.held row').filter (fun x => fresh x.2) =
    (numbered k (c.planRow row)).map fun x => (x.2.node, Link.guard c.store x)
  next : w.next ≤ w'.next
  removed : w'.removed = w.removed ++ more
  clear : ∀ x ∈ Forest.nodes more, x.2.Unbound
  met : ∀ x ∈ Forest.nodes (row' ++ more), w.next ≤ x.1 ∧ x.2.Unbound ∨
    (x.1, x.2.listeners) ∈ c.hearingRow data row
  ids : ∀ i ∈ Forest.ids row, i ∈ Forest.ids (row' ++ more)
  out : ∀ i ∈ Forest.ids (c.takenOutRow data row), i ∈ Forest.ids more

/-- Whether `fresh` tells the guards of a pass from old ones. -/
structure Tells (fresh : Guard → Bool) (store : StoreId) (k : Nat) (old : List Guard) : Prop where
  old : ∀ g ∈ old, fresh g = false
  fresh : ∀ j key, k ≤ j → fresh ⟨store, j, key⟩ = true

namespace Tells

variable {fresh : Guard → Bool} {store : StoreId} {k j : Nat} {old some : List Guard}

/-- Old guards have old numbers, below `k`. -/
theorem older (h : Tells fresh store k old) {g : Guard} (hg : g ∈ old) (hstore : g.store = store) :
    g.subscription.id < k := by
  by_contra hge
  have hfresh := h.fresh g.subscription.id g.subscription.key (Nat.le_of_not_lt hge)
  rw [← hstore] at hfresh
  exact absurd ((h.old g hg).symm.trans hfresh) (by simp)

theorem mono (h : Tells fresh store k old) (hle : k ≤ j) (hsub : ∀ g ∈ some, g ∈ old) :
    Tells fresh store j some where
  old g hg := h.old g (hsub g hg)
  fresh i key hi := h.fresh i key (Nat.le_trans hle hi)

theorem filter_held {row : Forest (Node κ)} (h : Tells fresh store k old)
    (hrow : ∀ g ∈ (View.ledger row).guards, g ∈ old) :
    (View.held row).filter (fun x => fresh x.2) = [] := by
  refine List.filter_eq_nil_iff.2 fun x hx => ?_
  have hin : x.2 ∈ (View.ledger row).guards := View.map_snd_held row ▸ List.mem_map_of_mem hx
  simp [h.old x.2 (hrow x.2 hin)]

end Tells

namespace Linked

variable {c : Compiler κ} {data : String → Option Value} {fresh : Guard → Bool} {k : Nat}
  {a a' b b' more₁ more₂ : Forest (Node κ)} {w w₁ w₂ : Wiring κ}

theorem append (h₁ : Linked c data fresh k a w a' more₁ w₁)
    (h₂ : Linked c data fresh (k + (c.planRow a).length) b w₁ b' more₂ w₂)
    (hold : ∀ g ∈ (View.ledger b).guards, g.store = c.store → g.subscription.id < k) :
    Linked c data fresh k (a ++ b) w (a' ++ b') (more₁ ++ more₂) w₂ := by
  have hplan : c.planRow (a ++ b) = c.planRow a ++ c.planRow b := by
    rw [Compiler.planRow, c.itineraryRow_append, c.plan_append]
    rfl
  constructor
  case planned =>
    rw [hplan, c.endedRow_append]
    exact h₁.planned.trans h₂.planned fun g hg => hold g (c.mem_of_mem_endedRow data hg)
  case held =>
    rw [View.held_append, List.filter_append, h₁.held, h₂.held, hplan, numbered_append,
      List.map_append]
  case next => exact Nat.le_trans h₁.next h₂.next
  case removed => rw [h₂.removed, h₁.removed, List.append_assoc]
  case clear =>
    intro x hx
    rw [Forest.nodes_append, List.mem_append] at hx
    exact hx.elim (h₁.clear x) (h₂.clear x)
  case met =>
    intro x hx
    have hparts : x ∈ Forest.nodes (a' ++ more₁) ∨ x ∈ Forest.nodes (b' ++ more₂) := by
      simp only [Forest.nodes_append, List.mem_append] at hx ⊢
      tauto
    rw [c.hearingRow_append]
    rcases hparts with hx | hx
    · exact (h₁.met x hx).imp_right (List.mem_append_left _)
    · rcases h₂.met x hx with ⟨hnew, hunbound⟩ | hin
      · exact Or.inl ⟨Nat.le_trans h₁.next hnew, hunbound⟩
      · exact Or.inr (List.mem_append_right _ hin)
  case ids =>
    intro i hi
    have hfirst := h₁.ids i
    have hsecond := h₂.ids i
    simp only [Forest.ids_append, List.mem_append] at hi hfirst hsecond ⊢
    tauto
  case out =>
    intro i hi
    rw [c.takenOutRow_append, Forest.ids_append, List.mem_append] at hi
    rw [Forest.ids_append, List.mem_append]
    exact hi.imp (h₁.out i) (h₂.out i)

end Linked

section

variable {c : Compiler κ} {data : String → Option Value} {fresh : Guard → Bool} {k : Nat}
  {row row' more : Forest (Node κ)} {w w' : Wiring κ}

/-- Where there are no old guards, all guards are those of the plan (`numbered`). -/
theorem Linked.guards_eq (h : Linked c data (fun _ => true) k row w row' more w') :
    (View.ledger row').guards = (numbered k (c.planRow row)).map (Link.guard c.store) := by
  have hall := h.held
  rw [List.filter_true] at hall
  rw [← View.map_snd_held, hall, List.map_map]
  rfl

/-- Below a node, too, what is met is new, or its listeners are those that it is to have (`hearingBelow`).
-/
theorem Linked.met_below (h : Linked c data fresh k row w row' more w') (id : NodeId) (n : Node κ) :
    ∀ x ∈ Forest.nodes (.node id n row' :: more), w.next ≤ x.1 ∧ x.2.Unbound ∨
      (x.1, x.2.listeners) ∈ c.hearingBelow data (.node id n row) := by
  intro x hx
  rw [Forest.nodes, Tree.nodes, List.cons_append, List.mem_cons, ← Forest.nodes_append] at hx
  rcases hx with rfl | hx
  · exact Or.inr List.mem_cons_self
  · exact (h.met x hx).imp_right (List.mem_cons_of_mem _)

theorem Linked.ids_below (h : Linked c data fresh k row w row' more w') {id i : NodeId}
    {n n' : Node κ} (hi : i ∈ Tree.ids (.node id n row)) :
    i ∈ Forest.ids (.node id n' row' :: more) := by
  have hin := h.ids i
  simp only [Forest.ids_append, Forest.ids_cons, Tree.ids_node, List.mem_cons, List.mem_append]
    at hi hin ⊢
  tauto

end

/-! ## One node -/

namespace Tied

variable {c : Compiler κ} {data : String → Option Value} {fresh : Guard → Bool} {k : Nat}
  {links : List (Link κ)} {hear : List (Registered κ) × Nat → List (Registered κ) × Nat} {kept : Bool}
  {id : NodeId} {n n' : Node κ} {row row' below more more₂ : Forest (Node κ)} {w w₁ w₂ : Wiring κ}

/-- The guards that a node is given are those of its links. -/
theorem filter_guards (h : Tied c.store k links hear kept n row w n' row' more w₁)
    (htells : Tells fresh c.store k n.guards) (hnode : ∀ l ∈ links, l.node = id) :
    (n'.guards.map fun g => (id, g)).filter (fun x => fresh x.2) =
      (numbered k (links.map some)).map fun x => (x.2.node, Link.guard c.store x) := by
  have hnew : ∀ x ∈ numbered k (links.map some),
      x.2.node = id ∧ fresh (Link.guard c.store x) = true := by
    intro x hx
    obtain ⟨l, hl, heq⟩ := List.mem_map.1 (mem_of_mem_numbered hx)
    rw [← Option.some.inj heq]
    exact ⟨hnode l hl, htells.fresh x.1 x.2.key (bounds_of_mem_numbered hx).1⟩
  have hall : (numbered k (links.map some)).filter
      ((fun x : NodeId × Guard => fresh x.2) ∘ (fun g => (id, g)) ∘ Link.guard c.store) =
      numbered k (links.map some) :=
    List.filter_eq_self.2 fun x hx => (hnew x hx).2
  rw [h.guards, List.map_append, List.filter_append, View.filter_old htells.old, List.nil_append,
    List.map_map, List.filter_map, hall]
  refine List.map_congr_left fun x hx => ?_
  rw [(hnew x hx).1]
  rfl

theorem listeners_eq (h : Tied c.store k links hear kept n row w n' row' more w₁) :
    n'.listeners = (hear n.listenerTable).1 := by
  rw [← h.listenerTable]
  rfl

/-- A node that was tied (`Tied`), with the content that its directives left. -/
theorem linked (h : Tied c.store k links hear kept n row w n' row' more w₁)
    (htells : Tells fresh c.store k (View.ledger [.node id n row]).guards)
    (hnode : ∀ l ∈ links, l.node = id) (hplan : c.planRow [.node id n row] = links.map some)
    (hhearing : c.hearingRow data [.node id n row] =
      (id, (hear n.listenerTable).1) :: if kept then View.listening row else View.silent row)
    (hout : c.takenOutRow data [.node id n row] = if kept then [] else row) :
    Linked c data fresh k [.node id n row] w [.node id n' row'] more w₁ := by
  rw [View.guards_of_node] at htells
  have hroot : Tells fresh c.store k n.guards :=
    htells.mono (Nat.le_refl k) fun g hg => List.mem_append_left _ hg
  constructor
  case planned =>
    have hended : c.endedRow data [.node id n row] = View.endedRow kept row := by
      rw [Compiler.endedRow, hout, View.endedRow]
      cases kept <;> rfl
    rw [hplan, hended]
    exact h.planned
  case held =>
    have hbelow : (View.held row').filter (fun x => fresh x.2) = [] :=
      htells.filter_held fun g hg => List.mem_append_right _ (h.content.guards g hg)
    rw [View.held_node, View.held_nil, List.append_nil, List.filter_append, hbelow, List.append_nil,
      h.filter_guards hroot hnode, hplan]
  case next => exact h.next
  case removed => exact h.removed
  case clear => exact fun x hx => (h.content.gone x hx).1
  case met =>
    intro x hx
    rw [hhearing]
    rw [List.singleton_append, Forest.nodes, Tree.nodes, List.cons_append, List.mem_cons,
      List.mem_append] at hx
    rcases hx with rfl | hx | hx
    · rw [h.listeners_eq]
      exact Or.inr List.mem_cons_self
    · cases hkept : kept with
      | false => exact Or.inl (h.content.fresh hkept x hx)
      | true =>
        rw [(h.content.same hkept).1] at hx
        exact Or.inr (List.mem_cons_of_mem _ (View.mem_listening hx))
    · cases hkept : kept with
      | false =>
        obtain ⟨hunbound, hnew | hin⟩ := h.content.gone x hx
        · exact Or.inl ⟨hnew, hunbound⟩
        · rw [hunbound.1]
          exact Or.inr (List.mem_cons_of_mem _ (View.mem_silent hin))
      | true =>
        rw [(h.content.same hkept).2] at hx
        exact absurd hx (by simp [Forest.nodes])
  case ids =>
    intro i hi
    have hin := h.content.ids i
    simp only [Forest.ids_append, Forest.ids_cons, Forest.ids_nil, Tree.ids_node, List.append_nil,
      List.mem_cons, List.mem_append] at hi hin ⊢
    tauto
  case out =>
    intro i hi
    rw [hout] at hi
    cases hkept : kept with
    | true => exact absurd hi (by simp [hkept])
    | false => exact h.content.out hkept i (by simpa [hkept] using hi)

/-- A node that was tied (`Tied`), below which the pass went on. -/
theorem linked_below (h : Tied c.store k links hear true n row w n' row' more w₁)
    (hbelow : Linked c data fresh (k + links.length) row w₁ below more₂ w₂)
    (htells : Tells fresh c.store k (View.ledger [.node id n row]).guards)
    (hnode : ∀ l ∈ links, l.node = id)
    (hplan : c.planRow [.node id n row] = links.map some ++ c.planRow row)
    (hhearing : c.hearingRow data [.node id n row] = (id, (hear n.listenerTable).1) :: c.hearingRow data row)
    (hout : c.takenOutRow data [.node id n row] = c.takenOutRow data row) :
    Linked c data fresh k [.node id n row] w [.node id n' below] more₂ w₂ := by
  rw [View.guards_of_node] at htells
  have hroot : Tells fresh c.store k n.guards :=
    htells.mono (Nat.le_refl k) fun g hg => List.mem_append_left _ hg
  constructor
  case planned =>
    have hsecond := hbelow.planned
    rw [← List.length_map some] at hsecond
    rw [hplan, Compiler.endedRow, hout]
    exact h.planned.trans hsecond fun g hg =>
      htells.older (List.mem_append_right _ (c.mem_of_mem_endedRow data hg))
  case held =>
    rw [View.held_node, View.held_nil, List.append_nil, List.filter_append, hbelow.held,
      h.filter_guards hroot hnode, hplan, numbered_append, List.map_append, List.length_map]
  case next => exact Nat.le_trans h.next hbelow.next
  case removed =>
    rw [hbelow.removed, h.removed, (h.content.same rfl).2, List.append_nil]
  case clear => exact hbelow.clear
  case met =>
    intro x hx
    rw [hhearing, ← h.listeners_eq]
    refine (hbelow.met_below id n' x hx).imp_left fun hnew => ?_
    exact ⟨Nat.le_trans h.next hnew.1, hnew.2⟩
  case ids =>
    intro i hi
    rw [Forest.ids_cons, Forest.ids_nil, List.append_nil] at hi
    exact hbelow.ids_below hi
  case out => exact hout ▸ hbelow.out

/-- A node that was tied and what is below it are released (`View.released`): each is new or was there
before. -/
theorem released (h : Tied c.store k links hear kept n row w n' row' more w₁) :
    ∀ x ∈ Tree.nodes (View.released (.node id n' row')),
      x.2.Unbound ∧ (w.next ≤ x.1 ∨ x.1 ∈ Tree.ids (.node id n row)) := by
  intro x hx
  rw [View.released, Tree.nodes_map, List.mem_map] at hx
  obtain ⟨y, hy, rfl⟩ := hx
  refine ⟨⟨rfl, rfl⟩, ?_⟩
  rw [Tree.ids_node, List.mem_cons]
  rw [Tree.nodes, List.mem_cons] at hy
  rcases hy with rfl | hy
  · exact Or.inr (Or.inl rfl)
  · rcases h.content.stays y hy with ⟨hnew, -⟩ | hin
    · exact Or.inl hnew
    · exact Or.inr (Or.inr (Forest.mem_ids.2 ⟨y, hin, rfl⟩))

/-- What a node was tied with ends with its guards, and with it what the guards there were stood
for. -/
theorem planned_released (h : Tied c.store k links hear kept n row w n' row' more w₁)
    (hdue : w.stores.Due c.store k) :
    Planned c.store k (links.map fun _ => none) (View.ledger [.node id n row]).guards w.stores
      (w₁.stores.endGuards (View.ledger [.node id n' row']).guards) := by
  have hall : ∀ x ∈ numbered k (links.map some),
      Link.guard c.store x ∈ n'.guards ++ (View.ledger row').guards := by
    intro x hx
    rw [h.guards]
    exact List.mem_append_left _ (List.mem_append_right _ (List.mem_map_of_mem hx))
  have hothers : ∀ g ∈ n.guards ++ (View.ledger row').guards,
      g ∈ n'.guards ++ (View.ledger row').guards := by
    intro g hg
    rw [h.guards, List.append_assoc]
    simp only [List.mem_append] at hg ⊢
    tauto
  have honly : ∀ g ∈ n'.guards ++ (View.ledger row').guards,
      g ∈ n.guards ++ (View.ledger row').guards ∨ g.store = c.store ∧ k ≤ g.subscription.id := by
    intro g hg
    rw [h.guards, List.append_assoc, List.mem_append, List.mem_append] at hg
    rcases hg with hg | hg | hg
    · exact Or.inl (List.mem_append_left _ hg)
    · obtain ⟨x, hx, rfl⟩ := List.mem_map.1 hg
      exact Or.inr ⟨rfl, (bounds_of_mem_numbered hx).1⟩
    · exact Or.inl (List.mem_append_right _ hg)
  have hundo := h.planned.undo hdue hall hothers honly
  rw [List.map_map] at hundo
  rw [View.guards_of_node, View.guards_of_node]
  refine hundo.congr fun g => ?_
  have hbelow := h.content.guards g
  cases hkept : kept with
  | true =>
    rw [(h.content.same hkept).1]
    simp [View.endedRow]
  | false =>
    simp only [View.endedRow, List.mem_append, Bool.false_eq_true, if_false]
    tauto

/-- A node that was tied, and then taken out: all that was subscribed for it ends (`endGuards`). -/
theorem linked_replaced (h : Tied c.store k links hear kept n row w n' row' more w₁)
    (hdue : w.stores.Due c.store k) (m : Markup) (hstores : w₂.stores = w₁.stores)
    (hremoved : w₂.removed = w₁.removed)
    (hplan : c.planRow [.node id n row] = links.map fun _ => none)
    (hhearing : c.hearingRow data [.node id n row] = View.silent [.node id n row])
    (htaken : c.takenOutRow data [.node id n row] = [.node id n row]) :
    Linked c data fresh k [.node id n row] w [(View.ofMarkup w₁.next m).1]
      (more ++ [View.released (.node id n' row')])
      (({ w₂ with next := (View.ofMarkup w₁.next m : View κ × NodeId).2 } : Wiring κ).discard
        (.node id n' row')) := by
  have hmarkup : ∀ x ∈ Forest.nodes [(View.ofMarkup w₁.next m : View κ × NodeId).1],
      w.next ≤ x.1 ∧ x.2.Unbound := by
    intro x hx
    rw [Forest.nodes_singleton] at hx
    exact ⟨Nat.le_trans h.next (View.le_of_mem_ofMarkup w₁.next m x hx),
      View.unbound_ofMarkup w₁.next m x hx⟩
  have hout : ∀ x ∈ Forest.nodes (more ++ [View.released (.node id n' row')]),
      x.2.Unbound ∧ (w.next ≤ x.1 ∨ x.1 ∈ Tree.ids (.node id n row)) := by
    intro x hx
    rw [Forest.nodes_append, Forest.nodes_singleton, List.mem_append] at hx
    rcases hx with hx | hx
    · obtain ⟨hunbound, hwhere⟩ := h.content.gone x hx
      rw [Tree.ids_node]
      exact ⟨hunbound, hwhere.imp_right (List.mem_cons_of_mem _)⟩
    · exact h.released x hx
  have hgone : ∀ i ∈ Forest.ids [Tree.node id n row],
      i ∈ Forest.ids (more ++ [View.released (.node id n' row')]) := by
    intro i hi
    have hin := h.content.ids i
    have hself : Tree.ids (View.released (.node id n' row')) = id :: Forest.ids row' := by
      simp [View.released, Tree.ids, Tree.nodes_map, Tree.nodes, Forest.ids]
    simp only [Forest.ids_append, Forest.ids_cons, Forest.ids_nil, hself, Tree.ids_node,
      List.append_nil, List.mem_cons, List.mem_append] at hi hin ⊢
    tauto
  constructor
  case planned =>
    rw [hplan, Compiler.endedRow, htaken]
    simp only [Wiring.discard, hstores, ← View.guards_ledger]
    exact h.planned_released hdue
  case held =>
    rw [View.held_of_unbound fun x hx => (hmarkup x hx).2, hplan, numbered_gaps]
    rfl
  case next => exact Nat.le_trans h.next (View.le_ofMarkup w₁.next m)
  case removed =>
    show w₂.removed ++ _ = _
    rw [hremoved, h.removed, List.append_assoc]
  case clear => exact fun x hx => (hout x hx).1
  case met =>
    intro x hx
    rw [Forest.nodes_append, List.mem_append] at hx
    rcases hx with hx | hx
    · exact Or.inl (hmarkup x hx)
    · obtain ⟨hunbound, hnew | hin⟩ := hout x hx
      · exact Or.inl ⟨hnew, hunbound⟩
      · rw [hhearing, hunbound.1]
        refine Or.inr (View.mem_silent ?_)
        rwa [Forest.ids_cons, Forest.ids_nil, List.append_nil]
  case ids =>
    intro i hi
    rw [Forest.ids_append, List.mem_append]
    exact Or.inr (hgone i hi)
  case out =>
    rw [htaken]
    exact hgone

end Tied

/-! ## The pass -/

namespace Compiler

variable {c : Compiler κ} {data : String → Option Value} {fresh : Guard → Bool} {k : Nat}
  {id : NodeId} {n : Node κ} {row : Forest (Node κ)}

theorem node_of_link? {d : Directive} {l : Link κ} (h : c.link? id d = some l) : l.node = id := by
  unfold link? at h
  split at h
  · rw [← Option.some.inj h]
  · rw [← Option.some.inj h]
  · exact absurd h (by simp)

theorem planRow_text (hn : n.isElement = false) :
    c.planRow [.node id n row] = (c.markerLink? id n).toList.map some := by
  simp [planRow, itineraryRow, itinerary, plan, stopAt, links, hn,
    directives_of_not_element hn c.options, upToReplacing]

theorem markerLink?_of_element (hn : n.isElement = true) : c.markerLink? id n = none := by
  simp [markerLink?, payload?_of_element hn]

theorem planRow_element (hn : n.isElement = true) : c.planRow [.node id n row] =
    (if (n.directives c.options).any c.replaces then
      ((c.upToReplacing (n.directives c.options)).filterMap (c.link? id)).map fun _ => none
    else ((n.directives c.options).filterMap (c.link? id)).map some) ++
      if c.seals n then [] else c.planRow row := by
  have hlinks : c.links (c.stopAt id n) =
      (c.upToReplacing (n.directives c.options)).filterMap (c.link? id) := by
    simp [links, stopAt, markerLink?_of_element hn]
  have hsealed : c.itineraryRow [.node id n row] =
      [c.stopAt id n] ++ if c.seals n then [] else c.itineraryRow row := by
    simp only [itineraryRow, itinerary, hn, Bool.true_and, List.append_nil, List.singleton_append]
    cases c.seals n <;> rfl
  have hbelow : c.plan (if c.seals n then [] else c.itineraryRow row) =
      if c.seals n then [] else c.planRow row := by
    cases c.seals n <;> rfl
  rw [planRow, hsealed, plan_append, hbelow]
  congr 1
  have hdispatched : (c.stopAt id n).dispatched = c.upToReplacing (n.directives c.options) := rfl
  simp only [plan, List.flatMap_singleton, hlinks, hdispatched, any_upToReplacing]
  cases hreplaced : (n.directives c.options).any c.replaces with
  | true => rfl
  | false => rw [upToReplacing_eq_self hreplaced]

theorem seals_eq_false (hopen : c.seals n = false) :
    (n.directives c.options).any c.replaces = false ∧
      (n.directives c.options).any c.ownsContent = false := by
  unfold seals at hopen
  simp only [List.any_eq_false, Bool.or_eq_true, not_or] at hopen ⊢
  exact ⟨fun d hd => (hopen d hd).1, fun d hd => (hopen d hd).2⟩

theorem linked_text (hn : n.isElement = false) {w : Wiring κ} (hdue : w.stores.Due c.store k)
    (htells : Tells fresh c.store k (View.ledger [.node id n row]).guards) :
    Linked c data fresh k [.node id n row] w
      [(w.bindMarker c.store c.options.delimiters (.node id n row)).2.1] []
      (w.bindMarker c.store c.options.delimiters (.node id n row)).2.2 := by
  have hhearing : c.hearingRow data [.node id n row] = (id, n.listenerTable.1) :: View.listening row := by
    simp [hearingRow, hearing, hn, View.listening, Forest.nodes, Tree.nodes, Node.listenerTable]
  have hout : c.takenOutRow data [.node id n row] = [] := by simp [takenOutRow, takenOut, hn]
  have hnone : c.markerLink? id n = none →
      Linked c data fresh k [.node id n row] w [.node id n row] [] w :=
    fun hlink => (Tied.refl c.store k n row w).linked htells (by simp)
      (by simp [planRow_text hn, hlink]) hhearing hout
  unfold Wiring.bindMarker
  cases hpayload : n.payload? with
  | none => simpa [Tree.val, hpayload] using hnone (by simp [markerLink?, hpayload])
  | some template =>
    cases hmarker : Marker.find? c.options.delimiters template with
    | none => simpa [Tree.val, hpayload, hmarker] using hnone (by simp [markerLink?, hpayload, hmarker])
    | some marker =>
      have hlink : c.markerLink? id n = some ⟨id, marker.key, .marker id template marker⟩ := by
        simp [markerLink?, hpayload, hmarker]
      simp only [Tree.val, hpayload, hmarker, Tree.id, Tree.mapRoot]
      generalize marker.render template _ = shown
      obtain ⟨n', hview, htied⟩ := Wiring.tied_watch hdue ⟨id, marker.key, .marker id template marker⟩
        id (n.setPayload shown) row
      have hshown : Tied c.store k [] (fun table => table) true n row w (n.setPayload shown) row [] w :=
        Tied.of_node c.store k (n.isElement_setPayload shown) (n.guards_setPayload shown)
          (n.listenerTable_setPayload shown) row rfl (Nat.le_refl _) rfl
      rw [hview]
      refine (hshown.trans htied fun g hg => htells.older (by simp [hg])).linked htells ?_ ?_ hhearing
        hout
      · simp
      · simp [planRow_text hn, hlink]

/-- An element that is replaced, with all that was tied to it before. -/
theorem exists_linked_replaced (hbuiltin : c.registry.Builtin) (hn : n.isElement = true)
    (hreplaced : (n.directives c.options).any c.replaces = true) (row : Forest (Node κ)) (p : Pass κ)
    (hdue : p.wiring.stores.Due c.store k) (hhold : p.wiring.stores.Hold c.store data)
    (htells : Tells fresh c.store k (View.ledger [.node id n row]).guards) :
    ∃ more, Linked c data fresh k [.node id n row] p.wiring [(c.enter id n row p).view] more
      (c.enter id n row p).pass.wiring := by
  obtain ⟨front, d, rest, hds, hfront, hd, hup⟩ := exists_replacing hreplaced
  obtain ⟨n', row', more, hview, hgone, htied⟩ := tied_dispatchAll hbuiltin id hfront
    (e := { view := .node id n row, pass := { p with visitedNodes := p.visitedNodes + 1 } }) hn rfl rfl
    hdue hhold (fun g hg => htells.older (by simp [hg]))
  obtain ⟨m, w₂, hstores, hnext, hremoved, hnew, houtcome, hwiring⟩ :=
    dispatch_replacing hd (.node id n' row') (c.dispatchAll front
      { view := .node id n row, pass := { p with visitedNodes := p.visitedNodes + 1 } }).pass.wiring
  have hlast : c.enter id n row p = c.dispatchOn (c.dispatchAll front
      { view := .node id n row, pass := { p with visitedNodes := p.visitedNodes + 1 } }) d := by
    rw [enter, hds, dispatchAll_append, dispatchAll, if_neg (by simp [hgone]), dispatchAll_gone]
    simp [dispatchOn, hview, houtcome]
  have hplan : c.planRow [.node id n row] = (front.filterMap (c.link? id)).map fun _ => none := by
    have hlink : c.link? id d = none := by
      have hs : c.strategy? d = some .markupReplace := by simpa [replaces] using hd
      simp [link?, hs]
    have hseals : c.seals n = true := by
      obtain ⟨x, hx, hxr⟩ := List.any_eq_true.1 hreplaced
      exact List.any_eq_true.2 ⟨x, hx, by simp [hxr]⟩
    rw [planRow_element hn, if_pos hreplaced, hseals, if_pos rfl, List.append_nil, hup]
    simp [List.filterMap_append, hlink]
  have hhearing : c.hearingRow data [.node id n row] = View.silent [.node id n row] := by
    simp [hearingRow, hearing, hn, hreplaced]
  have htaken : c.takenOutRow data [.node id n row] = [.node id n row] := by
    simp [takenOutRow, takenOut, hn, hreplaced]
  rw [hlast]
  simp only [dispatchOn, hview, hnew, hwiring]
  exact ⟨_, htied.linked_replaced hdue m hstores hremoved hplan hhearing htaken⟩

mutual

theorem exists_linked_node (hbuiltin : c.registry.Builtin) : ∀ (t : View κ) (p : Pass κ) {k : Nat},
    p.wiring.stores.Due c.store k → p.wiring.stores.Hold c.store data →
      Tells fresh c.store k (View.ledger [t]).guards → ∃ more,
        Linked c data fresh k [t] p.wiring [(c.compileNode t p).1] more (c.compileNode t p).2.wiring
  | .node id n row, p, k, hdue, hhold, htells => by
    cases hn : n.isElement with
    | false =>
      rw [compileNode_text hn]
      exact ⟨[], linked_text hn hdue htells⟩
    | true =>
      cases hreplaced : (n.directives c.options).any c.replaces with
      | true =>
        have hseals : c.seals n = true := by
          obtain ⟨x, hx, hxr⟩ := List.any_eq_true.1 hreplaced
          exact List.any_eq_true.2 ⟨x, hx, by simp [hxr]⟩
        rw [compileNode_sealed hbuiltin hn hhold hseals]
        exact exists_linked_replaced hbuiltin hn hreplaced row p hdue hhold htells
      | false =>
        have hstays : ∀ d ∈ n.directives c.options, c.replaces d = false := by
          simpa [List.any_eq_false] using hreplaced
        have hnode : ∀ l ∈ (n.directives c.options).filterMap (c.link? id), l.node = id := by
          intro l hl
          obtain ⟨d, -, hd⟩ := List.mem_filterMap.1 hl
          exact node_of_link? hd
        obtain ⟨n', row', more, hview, hgone, htied⟩ := tied_dispatchAll hbuiltin id hstays
          (e := { view := .node id n row, pass := { p with visitedNodes := p.visitedNodes + 1 } })
          hn rfl rfl hdue hhold (fun g hg => htells.older (by simp [hg]))
        cases hseals : c.seals n with
        | true =>
          have howned : (n.directives c.options).any c.ownsContent = true := by
            obtain ⟨x, hx, hxs⟩ := List.any_eq_true.1 hseals
            refine List.any_eq_true.2 ⟨x, hx, ?_⟩
            simpa [hstays x hx] using hxs
          rw [compileNode_sealed hbuiltin hn hhold hseals, enter, hview]
          refine ⟨more, htied.linked htells hnode ?_ ?_ ?_⟩
          · rw [planRow_element hn, if_neg (by simp [hreplaced]), if_pos hseals, List.append_nil]
          · simp [hearingRow, hearing, showsAll, hn, hreplaced, howned]
          · simp [takenOutRow, takenOut, showsAll, hn, hreplaced, howned]
        | false =>
          obtain ⟨-, hopen⟩ := seals_eq_false hseals
          have hkept : (n.directives c.options).all (c.keepsRow data row) = true :=
            List.all_eq_true.2 fun d hd => by
              simp [keepsRow, Bool.eq_false_iff.2 (List.any_eq_false.1 hopen d hd)]
          obtain ⟨more₂, hbelow⟩ := exists_linked_row hbuiltin row (c.enter id n row p).pass
            (htied.planned.due hdue) (hold_enter id n row hhold)
            (htells.mono (Nat.le_add_right _ _) fun g hg => by simp [hg])
          rw [hkept] at htied
          rw [List.length_map] at hbelow
          rw [compileNode_open hbuiltin hn hhold hseals, show (c.enter id n row p).view = _ from hview]
          refine ⟨more₂, htied.linked_below hbelow htells hnode ?_ ?_ ?_⟩
          · rw [planRow_element hn, if_neg (by simp [hreplaced]), if_neg (by simp [hseals])]
          · simp [hearingRow, hearing, hn, hreplaced, hopen]
          · simp [takenOutRow, takenOut, hn, hreplaced, hopen]

/-- **What a pass makes of a row** is what is `Linked` to it by the plan. -/
theorem exists_linked_row (hbuiltin : c.registry.Builtin) : ∀ (row : Forest (Node κ)) (p : Pass κ)
    {k : Nat}, p.wiring.stores.Due c.store k → p.wiring.stores.Hold c.store data →
      Tells fresh c.store k (View.ledger row).guards → ∃ more,
        Linked c data fresh k row p.wiring (c.compileRow row p).1 more (c.compileRow row p).2.wiring
  | [], p, k, hdue, hhold, htells => by
    rw [compileRow]
    exact ⟨[],
      { planned := Planned.refl c.store k p.wiring.stores
        held := by simp [planRow, itineraryRow, plan, numbered]
        next := Nat.le_refl _
        removed := (List.append_nil _).symm
        clear := fun x hx => absurd hx (by simp [Forest.nodes])
        met := fun x hx => absurd hx (by simp [Forest.nodes])
        ids := fun i hi => absurd hi (by simp)
        out := fun i hi => absurd hi (by simp [takenOutRow]) }⟩
  | t :: ts, p, k, hdue, hhold, htells => by
    rw [View.ledger_cons, Ledger.guards_append] at htells
    obtain ⟨more₁, hfirst⟩ := exists_linked_node hbuiltin t p hdue hhold
      (htells.mono (Nat.le_refl k) fun g hg => List.mem_append_left _ hg)
    obtain ⟨more₂, hrest⟩ := exists_linked_row hbuiltin ts (c.compileNode t p).2
      (hfirst.planned.due hdue) ((c.advances_compileNode t p).stores.hold hhold)
      (htells.mono (Nat.le_add_right _ _) fun g hg => List.mem_append_right _ hg)
    rw [compileRow]
    exact ⟨more₁ ++ more₂, hfirst.append hrest fun g hg => htells.older (List.mem_append_right _ hg)⟩

end

end Compiler

/-! ## The command -/

/-- What the command to compile an element makes of the view (`compileRow`). -/
theorem Session.exists_linked {s : Session} {name : String} {t : View Client} {options : Options}
    {registry : Registry} {data : String → Option Value} {k : Nat} {fresh : Guard → Bool}
    (ht : s.view? name = some t) (hroot : t.val.isElement = true) (hvalid : options.flaw? = none)
    (hbuiltin : registry.Builtin) (hdue : s.world.stores.Due s.store k)
    (hhold : s.world.stores.Hold s.store data)
    (htells : Tells fresh s.store k (View.ledger t.children).guards) :
    ∃ report row more wiring, s.bind (.compile name options registry) = (.report report,
        { s with world := s.world.settle t.id (t.mapChildren fun _ => row) wiring }) ∧
      Linked (s.compiler options registry) data fresh k t.children s.world.wiring row more wiring := by
  obtain ⟨report, hbind⟩ := bind_compile registry ht hroot hvalid
  obtain ⟨more, hlinked⟩ := (s.compiler options registry).exists_linked_row hbuiltin t.children
    { wiring := s.world.wiring } hdue hhold htells
  exact ⟨report, _, more, _, hbind, hlinked⟩

end ViewBinding
