import ViewBinding.Proofs.Tree.Lookup
import ViewBinding.Proofs.View.Fresh
import ViewBinding.View.Wiring

/-!
# Views without some of their attributes

`View.without` takes attributes away, told by the node and the attribute.  Everything else stays: the
tree, the texts, the value fields, the listeners and the guards.  So what is done to a view for its
text, its listeners or its guards can be done before or after the attributes are taken away.

* `View.without_setText`, `View.without_released`, `View.guards_without` — what does not depend on
  attributes.
* `View.without_ofMarkup` — a view of new nodes has none of the attributes that are taken away.
-/

namespace ViewBinding

variable {κ : Type}

/-- The node without some attributes, those for which `drop` holds. -/
def Node.without (drop : Attribute → Bool) (n : Node κ) : Node κ :=
  match n.content with
  | .text _ => n
  | .element tag attributes field =>
    { n with content := .element tag (attributes.filter fun a => !drop a) field }

mutual

/-- The view without some attributes of its nodes (`Node.without`). -/
def View.without (drop : NodeId → Attribute → Bool) : View κ → View κ
  | .node id n row => .node id (n.without (drop id)) (View.rowWithout drop row)

/-- The views without some attributes of their nodes. -/
def View.rowWithout (drop : NodeId → Attribute → Bool) : Forest (Node κ) → Forest (Node κ)
  | [] => []
  | t :: ts => View.without drop t :: View.rowWithout drop ts

end

namespace Node

variable (drop : Attribute → Bool) (n : Node κ)

@[simp] theorem isElement_without : (n.without drop).isElement = n.isElement := by
  cases hc : n.content <;> simp [without, isElement, hc]

@[simp] theorem payload?_without : (n.without drop).payload? = n.payload? := by
  cases hc : n.content <;> simp [without, payload?, hc]

@[simp] theorem guards_without : (n.without drop).guards = n.guards := by
  cases hc : n.content <;> simp [without, hc]

theorem attributes_without : (n.without drop).attributes = n.attributes.filter fun a => !drop a := by
  cases hc : n.content <;> simp [without, attributes, hc]

theorem without_ofText (payload : String) :
    (ofText payload : Node κ).without drop = ofText payload := rfl

/-- Nothing is taken away where no attribute is to be taken away. -/
theorem without_of_forall {drop : Attribute → Bool} (h : ∀ a, drop a = false) (n : Node κ) :
    n.without drop = n := by
  obtain ⟨content, listeners, next, guards⟩ := n
  cases content with
  | text payload => rfl
  | element tag attributes field => simp [without, h]

theorem without_setPayload (text : String) :
    (n.setPayload text).without drop = (n.without drop).setPayload text := by
  obtain ⟨content, listeners, next, guards⟩ := n
  cases content <;> rfl

theorem without_setValue (value : String) :
    (n.setValue value).without drop = (n.without drop).setValue value := by
  obtain ⟨content, listeners, next, guards⟩ := n
  cases content <;> rfl

theorem without_addListener (event : String) (listener : Listener κ) :
    (n.addListener event listener).without drop = (n.without drop).addListener event listener := by
  obtain ⟨content, listeners, next, guards⟩ := n
  cases content <;> rfl

theorem without_retain (guard : Guard) :
    (n.retain guard).without drop = (n.without drop).retain guard := by
  obtain ⟨content, listeners, next, guards⟩ := n
  cases content <;> rfl

theorem without_release : n.release.without drop = (n.without drop).release := by
  obtain ⟨content, listeners, next, guards⟩ := n
  cases content <;> rfl

end Node

namespace View

variable (drop : NodeId → Attribute → Bool)

@[simp] theorem without_node (id : NodeId) (n : Node κ) (row : List (View κ)) :
    without drop (.node id n row) = .node id (n.without (drop id)) (rowWithout drop row) := by
  rw [without]

@[simp] theorem rowWithout_nil : rowWithout drop ([] : Forest (Node κ)) = [] := by
  rw [rowWithout]

@[simp] theorem rowWithout_cons (t : View κ) (ts : Forest (Node κ)) :
    rowWithout drop (t :: ts) = without drop t :: rowWithout drop ts := by
  rw [rowWithout]

theorem rowWithout_append (ts us : Forest (Node κ)) :
    rowWithout drop (ts ++ us) = rowWithout drop ts ++ rowWithout drop us := by
  induction ts with
  | nil => rw [List.nil_append, rowWithout_nil, List.nil_append]
  | cons t ts ih => rw [List.cons_append, rowWithout_cons, ih, rowWithout_cons, List.cons_append]

@[simp] theorem id_without (t : View κ) : (without drop t).id = t.id := by
  obtain ⟨id, n, row⟩ := t
  rw [without_node]
  rfl

@[simp] theorem children_without (t : View κ) :
    (without drop t).children = rowWithout drop t.children := by
  obtain ⟨id, n, row⟩ := t
  rw [without_node]
  rfl

theorem val_without (t : View κ) : (without drop t).val = t.val.without (drop t.id) := by
  obtain ⟨id, n, row⟩ := t
  rw [without_node]
  rfl

theorem without_mapRoot {f : Node κ → Node κ} {t : View κ}
    (hf : ∀ n : Node κ, (f n).without (drop t.id) = f (n.without (drop t.id))) :
    without drop (t.mapRoot f) = (without drop t).mapRoot f := by
  obtain ⟨id, n, row⟩ := t
  rw [Tree.mapRoot, without_node, without_node, Tree.mapRoot]
  exact congrArg (fun m => Tree.node id m _) (hf n)

theorem without_mapChildren (t : View κ) (row : Forest (Node κ)) :
    without drop (t.mapChildren fun _ => row) =
      (without drop t).mapChildren fun _ => rowWithout drop row := by
  obtain ⟨id, n, us⟩ := t
  rw [Tree.mapChildren, without_node, without_node, Tree.mapChildren]

/-! ## What does not depend on attributes -/

mutual

theorem guards_without : ∀ t : View κ, (without drop t).guards = t.guards
  | .node id n row => by
    have hrow := guards_rowWithout row
    simp only [guards, without_node, Tree.nodes, List.flatMap_cons, Node.guards_without] at hrow ⊢
    rw [hrow]

theorem guards_rowWithout : ∀ row : Forest (Node κ),
    ((rowWithout drop row).nodes.flatMap fun x => x.2.guards) =
      row.nodes.flatMap fun x => x.2.guards
  | [] => by rw [rowWithout_nil]
  | t :: ts => by
    have hhead := guards_without t
    simp only [guards] at hhead
    rw [rowWithout_cons, Forest.nodes, Forest.nodes, List.flatMap_append, List.flatMap_append,
      hhead, guards_rowWithout ts]

end

mutual

theorem without_released : ∀ t : View κ, without drop t.released = (without drop t).released
  | .node id n row => by
    have hrow := rowWithout_released row
    simp only [released, Tree.map, without_node, Node.without_release] at hrow ⊢
    rw [hrow]

theorem rowWithout_released : ∀ row : Forest (Node κ),
    rowWithout drop (row.map Node.release) = (rowWithout drop row).map Node.release
  | [] => by rw [Forest.map, rowWithout_nil, Forest.map]
  | t :: ts => by
    have hhead := without_released t
    simp only [released] at hhead
    rw [Forest.map, rowWithout_cons, rowWithout_cons, Forest.map, hhead, rowWithout_released ts]

end

theorem showsAlready_rowWithout (text : String) (row : Forest (Node κ)) :
    showsAlready text (rowWithout drop row) = showsAlready text row := by
  match row with
  | [] => rw [rowWithout_nil]
  | [.node id n us] =>
    rw [rowWithout_cons, without_node, rowWithout_nil, showsAlready, showsAlready,
      Node.payload?_without]
  | t :: u :: us =>
    rw [rowWithout_cons, rowWithout_cons, showsAlready, showsAlready]
    all_goals simp

theorem rowWithout_textRow (fresh : NodeId) (text : String) :
    rowWithout drop (textRow fresh text : Forest (Node κ)) = textRow fresh text := by
  unfold textRow
  split
  · rw [rowWithout_nil]
  · rw [rowWithout_cons, without_node, rowWithout_nil, Node.without_ofText]

/-- Attributes may be taken away before or after the text content is set (`View.setText`). -/
theorem without_setText (fresh : NodeId) (text : String) (t : View κ) :
    (without drop t).setText fresh text =
      ⟨without drop (t.setText fresh text).view, (t.setText fresh text).replaced,
        rowWithout drop (t.setText fresh text).removed⟩ := by
  obtain ⟨id, n, row⟩ := t
  rw [without_node, setText, setText, Node.isElement_without, showsAlready_rowWithout]
  split
  · rw [without_node, rowWithout_nil, Node.without_setPayload]
  · split
    · rw [without_node, rowWithout_nil]
    · rw [without_node, rowWithout_textRow]

/-! ## New views -/

mutual

/-- A view keeps its attributes where none of its nodes is to lose one. -/
theorem without_of_forall : ∀ {t : View κ}, (∀ i ∈ t.ids, ∀ a, drop i a = false) →
    without drop t = t
  | .node id n row, h => by
    rw [without_node, Node.without_of_forall (h id (by simp)), rowWithout_of_forall fun i hi =>
      h i (by rw [Tree.ids_node]; exact List.mem_cons_of_mem id hi)]

theorem rowWithout_of_forall : ∀ {row : Forest (Node κ)}, (∀ i ∈ row.ids, ∀ a, drop i a = false) →
    rowWithout drop row = row
  | [], _ => rowWithout_nil drop
  | t :: ts, h => by
    rw [rowWithout_cons,
      without_of_forall fun i hi => h i (by rw [Forest.ids_cons]; exact List.mem_append_left _ hi),
      rowWithout_of_forall fun i hi =>
        h i (by rw [Forest.ids_cons]; exact List.mem_append_right _ hi)]

end

theorem without_ofMarkup {drop : NodeId → Attribute → Bool} {next : NodeId}
    (hnew : ∀ i, next ≤ i → ∀ a, drop i a = false) (m : Markup) :
    without drop (ofMarkup next m : View κ × NodeId).1 = (ofMarkup next m : View κ × NodeId).1 := by
  refine without_of_forall drop fun i hi => hnew i ?_
  obtain ⟨x, hx, rfl⟩ := List.mem_map.1 hi
  exact le_of_mem_ofMarkup next m x hx

/-! ## In a forest -/

mutual

theorem without_expand (n : NodeId) (view : View κ) : ∀ t : View κ,
    rowWithout drop (Tree.expand n (fun _ => [view]) t) =
      Tree.expand n (fun _ => [without drop view]) (without drop t)
  | .node id m row => by
    rw [without_node, Tree.expand, Tree.expand]
    split
    · rw [rowWithout_cons, rowWithout_nil]
    · rw [rowWithout_cons, rowWithout_nil, without_node, rowWithout_expand n view row]

/-- Attributes may be taken away before or after a view is put in its place (`Forest.expand`). -/
theorem rowWithout_expand (n : NodeId) (view : View κ) : ∀ row : Forest (Node κ),
    rowWithout drop (row.expand n fun _ => [view]) =
      (rowWithout drop row).expand n fun _ => [without drop view]
  | [] => by rw [Forest.expand, rowWithout_nil, Forest.expand]
  | t :: ts => by
    rw [Forest.expand, rowWithout_append, rowWithout_cons, Forest.expand, without_expand n view t,
      rowWithout_expand n view ts]

end

mutual

theorem find?_without (n : NodeId) : ∀ t : View κ,
    Tree.find? n (without drop t) = (Tree.find? n t).map (without drop)
  | .node id m row => by
    rw [without_node, Tree.find?, Tree.find?]
    split
    · rw [Option.map_some, without_node]
    · exact find?_rowWithout n row

theorem find?_rowWithout (n : NodeId) : ∀ row : Forest (Node κ),
    (rowWithout drop row).find? n = (row.find? n).map (without drop)
  | [] => by rw [rowWithout_nil, Forest.find?, Option.map_none]
  | t :: ts => by
    have hrest := find?_rowWithout n ts
    simp only [rowWithout_cons, Forest.find?, find?_without n t]
    cases Tree.find? n t with
    | some s => rfl
    | none => exact hrest

end

end View

end ViewBinding
