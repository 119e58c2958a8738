import ViewBinding.Proofs.View.Picture
import ViewBinding.Proofs.World.Untouched

/-!
# What becomes of a content

The content of an element is what stands below it.  Writing a text as its content leaves it alone if it
shows the text already, and else puts a new text in its place (`View.Rewritten`).  Either way it shows the
text; that nothing in it is bound is sure only if it was replaced, or if nothing in it was bound before
(`Rewritten.free_iff`).

* `World.find?_refresh_content` — an observer shows a value as the content of an element.
* `World.children_refresh` — any other observer that shows nothing in a content in which nothing is bound
  leaves it alone.
-/

namespace ViewBinding

open Json (Value)

variable {κ : Type}

namespace View

/-- Whether nothing below the root of a view is bound (`Node.Unbound`). -/
def Free (t : View κ) : Prop := ∀ x ∈ Forest.nodes t.children, x.2.Unbound

theorem Free.of_children {t u : View κ} (h : t.Free) (heq : u.children = t.children) : u.Free := by
  unfold Free
  rw [heq]
  exact h

theorem free_textRow (fresh : NodeId) (text : String) :
    ∀ x ∈ Forest.nodes (textRow fresh text : Forest (Node κ)), x.2.Unbound := by
  intro x hx
  obtain rfl := eq_of_mem_textRow hx
  exact ⟨rfl, rfl⟩

theorem eq_of_mem_ids_textRow {fresh i : NodeId} {text : String}
    (hi : i ∈ Forest.ids (textRow fresh text : Forest (Node κ))) : i = fresh := by
  obtain ⟨x, hx, rfl⟩ := Forest.mem_ids.1 hi
  rw [eq_of_mem_textRow hx]

/-! ## What is shown -/

/-- The text content of an element is that of the row below it. -/
theorem textContent_of_element {t : View κ} (h : t.val.isElement = true) :
    t.textContent = String.ofList (rowChars t.children) := by
  obtain ⟨id, n, row⟩ := t
  obtain ⟨tag, attributes, field, hn⟩ :
      ∃ tag attributes field, n.content = .element tag attributes field := by
    cases hc : n.content with
    | text payload => exact absurd h (by simp [Tree.val, Node.isElement, hc])
    | element tag attributes field => exact ⟨tag, attributes, field, rfl⟩
  rw [textContent, textChars, hn]
  rfl

theorem rowChars_textRow (fresh : NodeId) (text : String) :
    String.ofList (rowChars (textRow fresh text : Forest (Node κ))) = text := by
  unfold textRow
  split
  · next hempty => simp [hempty, rowChars]
  · simp [rowChars, textChars, Node.ofText]

theorem rowChars_of_showsAlready {text : String} {row : Forest (Node κ)}
    (h : showsAlready text row = true) : String.ofList (rowChars row) = text := by
  obtain ⟨id, n, below, rfl, hn⟩ := exists_of_showsAlready h
  simp [rowChars, textChars, hn]

/-- A row shows a text already if and only if it is one node, a text node that holds the text. -/
theorem showsAlready_iff {text : String} {row : Forest (Node κ)} :
    showsAlready text row = true ↔ ∃ c, row = [c] ∧ c.val.payload? = some text := by
  constructor
  · intro h
    obtain ⟨id, n, below, rfl, hn⟩ := exists_of_showsAlready h
    exact ⟨.node id n below, rfl, by simp [Tree.val, Node.payload?, hn]⟩
  · rintro ⟨⟨id, n, below⟩, rfl, hc⟩
    have hpayload : n.payload? = some text := hc
    simp [showsAlready, hpayload]

/-- A new row shows the text that it was made for, so `set_text_content` leaves it alone. -/
theorem showsAlready_textRow (fresh : NodeId) {text : String} (h : text ≠ "") :
    showsAlready text (textRow fresh text : Forest (Node κ)) = true := by
  rw [textRow, if_neg h]
  exact showsAlready_iff.2 ⟨_, rfl, rfl⟩

/-! ## What is written -/

section

variable (fresh : NodeId) (text : String) {t : View κ}

theorem setText_of_text (h : t.val.isElement = false) :
    t.setText fresh text = ⟨t.mapRoot (·.setPayload text), false, []⟩ := by
  obtain ⟨id, n, row⟩ := t
  have hn : n.isElement = false := h
  rw [setText, hn]
  rfl

theorem setText_of_shown (h : t.val.isElement = true) (hshown : showsAlready text t.children = true) :
    t.setText fresh text = ⟨t, false, []⟩ := by
  obtain ⟨id, n, row⟩ := t
  exact (setText_element fresh id text h).trans (if_pos hshown)

theorem setText_of_new (h : t.val.isElement = true) (hnew : showsAlready text t.children = false) :
    t.setText fresh text = ⟨t.mapChildren fun _ => textRow fresh text, true, t.children⟩ := by
  obtain ⟨id, n, row⟩ := t
  refine (setText_element fresh id text h).trans (if_neg ?_)
  exact Bool.not_eq_true _ ▸ hnew

end

/-- What writing a text makes of an element, where the number of a new text is `fresh`. -/
inductive Rewritten (fresh : NodeId) (text : String) (t : View κ) : View κ → Prop
  /-- It shows the text already. -/
  | same (h : showsAlready text t.children = true) : Rewritten fresh text t t
  /-- A new text takes the place of what was below it. -/
  | new (h : showsAlready text t.children = false) :
      Rewritten fresh text t (t.mapChildren fun _ => textRow fresh text)

theorem rewritten_setText (fresh : NodeId) (text : String) {t : View κ} (h : t.val.isElement = true) :
    Rewritten fresh text t (t.setText fresh text).view := by
  cases hshown : showsAlready text t.children with
  | true =>
    rw [setText_of_shown fresh text h hshown]
    exact .same hshown
  | false =>
    rw [setText_of_new fresh text h hshown]
    exact .new hshown

namespace Rewritten

variable {fresh : NodeId} {text : String} {t u : View κ}

theorem val_eq (h : Rewritten fresh text t u) : u.val = t.val := by
  cases h with
  | same => rfl
  | new => cases t; rfl

theorem children_eq (h : Rewritten fresh text t u) :
    u.children = t.children ∨ u.children = textRow fresh text := by
  cases h with
  | same => exact Or.inl rfl
  | new => cases t; exact Or.inr rfl

/-- The element shows the text. -/
theorem textContent_eq (h : Rewritten fresh text t u) (helement : t.val.isElement = true) :
    u.textContent = text := by
  rw [textContent_of_element (h.val_eq ▸ helement)]
  cases h with
  | same hshown => exact rowChars_of_showsAlready hshown
  | new => cases t; exact rowChars_textRow fresh text

/-- **Nothing is bound in the content** unless the element showed the text already (`showsAlready`), in
nodes that were bound. -/
theorem free_iff (h : Rewritten fresh text t u) :
    u.Free ↔ (showsAlready text t.children = true → t.Free) := by
  cases h with
  | same hshown => exact ⟨fun hfree _ => hfree, fun himp => himp hshown⟩
  | new hnew =>
    refine ⟨fun _ hshown => absurd (hshown.symm.trans hnew) (by simp), fun _ => ?_⟩
    cases t
    exact free_textRow fresh text

end Rewritten

end View

/-! ## Wiring -/

theorem Wiring.root_watch (w : Wiring κ) (store : StoreId) (key : String)
    (observer : Observer κ) (t : View κ) : (w.watch store key observer t).1.id = t.id ∧
      (w.watch store key observer t).1.val.isElement = t.val.isElement := by
  obtain ⟨id, n, row⟩ := t
  unfold watch
  split <;> exact ⟨rfl, rfl⟩

/-! ## Worlds -/

namespace World

variable {w : World κ} {n : NodeId} {t : View κ}

/-- A change of a node is found at the node. -/
theorem find?_updateNode (hd : w.forest.Distinct) (ht : w.forest.find? n = some t)
    (f : Node κ → Node κ) : (w.updateNode n f).forest.find? n = some (t.mapRoot f) := by
  have hid : (t.mapRoot f).id = n := (t.id_mapRoot f).trans (Forest.find?_id ht)
  have hroot : n ∈ t.ids := Forest.find?_id ht ▸ Tree.mem_ids_of_find? t.find?_self
  have hself : Tree.find? n (t.mapRoot f) = some (t.mapRoot f) := hid ▸ (t.mapRoot f).find?_self
  rw [updateNode, Forest.update,
    Forest.find?_expand_of_mem hd ht (Forest.not_mem_erase hd ht hroot), Forest.find?_singleton, hself]

/-- A view that was worked with is found where it stood. -/
theorem find?_settle (ht : w.forest.find? n = some t) {view : View κ} (hid : view.id = t.id)
    (wiring : Wiring κ) : (w.settle n view wiring).forest.find? n = some view := by
  rw [settle, Forest.find?_append,
    Forest.find?_expand_self (hid.trans (Forest.find?_id ht)) ht, Option.some_or]

/-- **A value is shown as the content** of an element: the content is `Rewritten` to the text of the value.
-/
theorem find?_refresh_content (ht : w.forest.find? n = some t) (helement : t.val.isElement = true)
    (value : Value) : ∃ u, (w.refresh (.content n) value).forest.find? n = some u ∧
      View.Rewritten w.next (Value.display (some value)) t u := by
  refine ⟨_, ?_, View.rewritten_setText w.next (Value.display (some value)) helement⟩
  simp only [refresh, ht]
  exact find?_settle ht (w.wiring.id_writeText _ t) _

theorem children_released_of_free (h : t.Free) : (View.released t).children = t.children := by
  obtain ⟨id, m, row⟩ := t
  exact View.releasedRow_of_unbound row h

/-- **A content in which nothing is bound**, and in which an observer shows nothing, stays as it is when
the observer shows a value (`refresh`), unless that is shown as the content. -/
theorem children_refresh (hd : w.forest.Distinct) (hold : n < w.next) (ht : w.forest.find? n = some t)
    (helement : t.val.isElement = true) (hfree : t.Free) (observer : Observer κ) (value : Value)
    (hspared : ∀ m, observer.target? = some m → m ∉ Forest.ids t.children) :
    ∃ u, (w.refresh observer value).forest.find? n = some u ∧ u.val.isElement = true ∧
      (u.children = t.children ∨
        observer = .content n ∧ u.children = View.textRow w.next (Value.display (some value))) := by
  by_cases htarget : observer.target? = some n
  · cases observer with
    | content m =>
      obtain rfl : m = n := Option.some.inj htarget
      obtain ⟨u, hu, hwritten⟩ := find?_refresh_content ht helement value
      exact ⟨u, hu, hwritten.val_eq ▸ helement, hwritten.children_eq.imp_right fun h => ⟨rfl, h⟩⟩
    | field m =>
      obtain rfl : m = n := Option.some.inj htarget
      refine ⟨_, find?_updateNode hd ht _, ?_, Or.inl (t.children_mapRoot _)⟩
      obtain ⟨id, a, row⟩ := t
      exact (a.isElement_setValue _).trans helement
    | marker m template marker =>
      obtain rfl : m = n := Option.some.inj htarget
      refine ⟨_, find?_updateNode hd ht _, ?_, Or.inl (t.children_mapRoot _)⟩
      obtain ⟨id, a, row⟩ := t
      exact (a.isElement_setPayload _).trans helement
    | client code => exact absurd htarget (by simp [Observer.target?])
    | retained code => exact absurd htarget (by simp [Observer.target?])
  · have haway : ∀ v, w.forest.find? n = some v → ∀ m, observer.target? = some m → m ∉ v.ids := by
      intro v hv m hm hin
      obtain rfl : t = v := Option.some.inj (ht.symm.trans hv)
      obtain ⟨id, a, row⟩ := t
      rw [Tree.ids_node, List.mem_cons] at hin
      rcases hin with rfl | hin
      · exact htarget (hm.trans (congrArg some (Forest.find?_id ht)))
      · exact hspared m hm hin
    rcases find?_refresh_or hd observer value hold haway with hsame | hreleased
    · exact ⟨t, hsame.trans ht, helement, Or.inl rfl⟩
    · rw [ht, Option.map_some] at hreleased
      refine ⟨_, hreleased, ?_, Or.inl (children_released_of_free hfree)⟩
      obtain ⟨id, a, row⟩ := t
      exact helement

end World

end ViewBinding
