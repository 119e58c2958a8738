import ViewBinding.Proofs.Listeners.Tables
import ViewBinding.Proofs.World.Induction

/-!
# Binding and the tables of listeners

However some views are bound, each of the nodes that come out of it is one of those that went in, and
its table only changed as tables do, or it is new and began with an empty table (`Continues`).  The
elementary changes have a statement each (`Wiring.continues_watch`, `Wiring.continues_discard`,
`Wiring.continues_ofMarkup`); strategies and the compile pass follow (`Wiring.bindwise_continues`).
-/

namespace ViewBinding

variable {κ : Type}

/-- Whether a node is one of some nodes at a later time, or new: `next` is the first number that a new
node can have. -/
def ComesFrom (next : NodeId) (xs : List (NodeId × Node κ)) (y : NodeId × Node κ) : Prop :=
  (∃ x ∈ xs, x.1 = y.1 ∧ x.2.Becomes y.2) ∨ (next ≤ y.1 ∧ y.2.Born)

namespace ComesFrom

variable {next next' : NodeId} {xs xs' : List (NodeId × Node κ)} {y : NodeId × Node κ}

theorem of_mem (h : y ∈ xs) : ComesFrom next xs y :=
  Or.inl ⟨y, h, rfl, .refl y.2⟩

/-- A node that nothing binds, and that has a new number (`ComesFrom`). -/
theorem fresh (hnext : next ≤ y.1) (hlisteners : y.2.listeners = []) (hzero : y.2.nextListener = 0) :
    ComesFrom next xs y :=
  Or.inr ⟨hnext, .of_unbound hlisteners hzero⟩

theorem mono (h : ComesFrom next xs y) (hsub : xs ⊆ xs') : ComesFrom next xs' y :=
  h.imp_left fun ⟨x, hx, hid, hbecomes⟩ => ⟨x, hsub hx, hid, hbecomes⟩

theorem trans (h : ComesFrom next' xs' y) (hnext : next ≤ next')
    (hxs : ∀ x ∈ xs', ComesFrom next xs x) : ComesFrom next xs y := by
  rcases h with ⟨x, hx, hid, hbecomes⟩ | ⟨hle, hborn⟩
  · rcases hxs x hx with ⟨x₀, hx₀, hid₀, hbecomes₀⟩ | ⟨hle, hborn⟩
    · exact Or.inl ⟨x₀, hx₀, hid₀.trans hid, hbecomes₀.trans hbecomes⟩
    · exact Or.inr ⟨hid ▸ hle, hborn.becomes hbecomes⟩
  · exact Or.inr ⟨Nat.le_trans hnext hle, hborn⟩

end ComesFrom

/-- All nodes in some views and among those that were taken out. -/
def Wiring.nodes (w : Wiring κ) (row : Forest (Node κ)) : List (NodeId × Node κ) :=
  Forest.nodes row ++ Forest.nodes w.removed

/-- Whether some views, with a wiring, were worked into others so that their nodes are the same ones at a
later time (`Node.Becomes`), or new. -/
structure Continues (row : Forest (Node κ)) (w : Wiring κ) (row' : Forest (Node κ)) (w' : Wiring κ) :
    Prop where
  next : w.next ≤ w'.next
  nodes : ∀ y ∈ w'.nodes row', ComesFrom w.next (w.nodes row) y

namespace Continues

variable {a a' b b' row row' : Forest (Node κ)} {w w₁ w₂ : Wiring κ}

/-- No node comes out that did not go in as it is. -/
theorem of_subset (hnext : w.next ≤ w₁.next) (hsub : w₁.nodes row' ⊆ w.nodes row) :
    Continues row w row' w₁ :=
  ⟨hnext, fun _ hy => .of_mem (hsub hy)⟩

theorem refl (row : Forest (Node κ)) (w : Wiring κ) : Continues row w row w :=
  of_subset (Nat.le_refl _) (List.Subset.refl _)

theorem trans (h₁ : Continues a w a' w₁) (h₂ : Continues a' w₁ b w₂) : Continues a w b w₂ :=
  ⟨Nat.le_trans h₁.next h₂.next, fun y hy => (h₂.nodes y hy).trans h₁.next h₁.nodes⟩

/-- Some views are worked on, and then others behind them. -/
theorem append (h₁ : Continues a w a' w₁) (h₂ : Continues b w₁ b' w₂) :
    Continues (a ++ b) w (a' ++ b') w₂ := by
  have hfirst : ∀ y ∈ w₁.nodes a', ComesFrom w.next (w.nodes (a ++ b)) y := fun y hy =>
    (h₁.nodes y hy).mono (by simp [Wiring.nodes, Forest.nodes_append])
  have hmiddle : ∀ x ∈ w₁.nodes b, ComesFrom w.next (w.nodes (a ++ b)) x := by
    intro x hx
    rcases List.mem_append.1 hx with hx | hx
    · exact .of_mem (by simp [Wiring.nodes, Forest.nodes_append, hx])
    · exact hfirst x (List.mem_append_right _ hx)
  refine ⟨Nat.le_trans h₁.next h₂.next, fun y hy => ?_⟩
  rw [Wiring.nodes, Forest.nodes_append, List.append_assoc, List.mem_append] at hy
  rcases hy with hy | hy
  · exact hfirst y (List.mem_append_left _ hy)
  · exact (h₂.nodes y hy).trans h₁.next hmiddle

/-- What is below a node is worked on, and the node itself. -/
theorem below (h : Continues row w row' w₁) (id : NodeId) {n n' : Node κ} (hn : n.Becomes n') :
    Continues [.node id n row] w [.node id n' row'] w₁ := by
  have hnodes : ∀ (w : Wiring κ) (n : Node κ) (row : Forest (Node κ)),
      w.nodes [.node id n row] = (id, n) :: w.nodes row := fun w n row => by
    simp [Wiring.nodes, Forest.nodes, Tree.nodes]
  refine ⟨h.next, fun y hy => ?_⟩
  rw [hnodes] at hy ⊢
  rcases List.mem_cons.1 hy with rfl | hy
  · exact Or.inl ⟨(id, n), List.mem_cons_self, rfl, hn⟩
  · exact (h.nodes y hy).mono (List.subset_cons_self _ _)

theorem mapRoot (t : View κ) (f : Node κ → Node κ) (hf : ∀ n : Node κ, n.Becomes (f n))
    (w : Wiring κ) : Continues [t] w [t.mapRoot f] w := by
  obtain ⟨id, n, row⟩ := t
  exact (refl row w).below id (hf n)

end Continues

/-! ## Wiring -/

namespace Wiring

theorem continues_watch (w : Wiring κ) (store : StoreId) (key : String) (observer : Observer κ)
    (t : View κ) :
    Continues [t] w [(w.watch store key observer t).1] (w.watch store key observer t).2 := by
  unfold watch
  split
  · exact .refl _ w
  · have hroot := Continues.mapRoot t (·.retain ⟨store, ‹Store κ›.nextSubscription key⟩)
      (fun n => .same rfl rfl) w
    exact ⟨hroot.next, hroot.nodes⟩

theorem continues_discard (w : Wiring κ) (t : View κ) : Continues [t] w [] (w.discard t) := by
  refine ⟨Nat.le_refl _, fun y hy => ?_⟩
  rw [nodes, discard, Forest.nodes_append] at hy
  rw [Forest.nodes, List.nil_append, List.mem_append] at hy
  rcases hy with hy | hy
  · exact .of_mem (List.mem_append_right _ hy)
  · -- the node is one of the view, released
    have hreleased :
        Forest.nodes [View.released t] = (Forest.nodes [t]).map fun x => (x.1, x.2.release) := by
      rw [← Forest.nodes_map, Forest.map, Forest.map, View.released]
    rw [hreleased] at hy
    obtain ⟨x, hx, rfl⟩ := List.mem_map.1 hy
    exact Or.inl ⟨x, List.mem_append_left _ hx, rfl, .release x.2⟩

/-- A new view with the next numbers (`View.ofMarkup`). -/
theorem continues_ofMarkup (w : Wiring κ) (m : Markup) :
    Continues [] w [(View.ofMarkup w.next m).1]
      { w with next := (View.ofMarkup w.next m : View κ × NodeId).2 } := by
  refine ⟨View.le_ofMarkup w.next m, fun y hy => ?_⟩
  rw [nodes, Forest.nodes, Forest.nodes, List.append_nil] at hy
  rcases List.mem_append.1 hy with hy | hy
  · obtain ⟨content, hplain⟩ := View.plain_ofMarkup w.next m y hy
    exact .fresh (View.le_of_mem_ofMarkup w.next m y hy) (by rw [hplain]) (by rw [hplain])
  · exact .of_mem (List.mem_append_right _ hy)

/-- **Whatever is bound**, from `discard` to `compile`, every table is left to itself, but for the
listeners that are added. -/
theorem bindwise_continues : Bindwise (Continues (κ := κ)) where
  refl := .refl
  trans := .trans
  append := .append
  below id n h := h.below id (.refl n)
  setPayload t text w := .mapRoot t _ (fun n => .setPayload n text) w
  setValue t value w := .mapRoot t _ (fun n => .setValue n value) w
  setAttribute t name value w := .mapRoot t _ (fun n => .setAttribute n name value) w
  listen t event listener w := .mapRoot t _ (fun n => ⟨_, .add n event listener⟩) w
  watch w store key observer t _ := w.continues_watch store key observer t
  note _ _ _ := .of_subset (Nat.le_refl _) (List.Subset.refl _)
  skip _ _ := .of_subset (Nat.le_succ _) (List.Subset.refl _)
  ofMarkup := continues_ofMarkup
  discard := continues_discard
  remove w row := .of_subset (Nat.le_refl _) fun y hy => by
    simp only [nodes, Forest.nodes_append, Forest.nodes, List.nil_append, List.mem_append] at hy ⊢
    exact hy.symm

end Wiring

end ViewBinding
