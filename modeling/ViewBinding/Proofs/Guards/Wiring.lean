import ViewBinding.Proofs.World.Induction

/-!
# Binding keeps the accounts

Whatever is done to some views keeps all subscriptions accounted for, whatever else there is beside
them (`Keeps`).  The parts of a view are worked on one after the other, and so are the accounts of the
parts put together (`Keeps.append`, `Keeps.below`); the elementary changes have a statement each
(`Wiring.keeps_watch`, `Wiring.keeps_discard`, `Wiring.keeps_ofMarkup`).  So all strategies and the compile
pass keep the accounts (`Wiring.bindwise_keeps`).
-/

namespace ViewBinding

open List

variable {κ : Type}

/-- Whether working some views, with a wiring, into others keeps every subscription accounted for. -/
def Keeps (row : Forest (Node κ)) (w : Wiring κ) (row' : Forest (Node κ)) (w' : Wiring κ) : Prop :=
  ∀ rest kept, Accounted (View.ledger row ++ View.ledger w.removed ++ rest) kept w.stores w.next →
    Accounted (View.ledger row' ++ View.ledger w'.removed ++ rest) kept w'.stores w'.next

namespace Keeps

variable {a a' b b' row row' : Forest (Node κ)} {w w₁ w₂ : Wiring κ}

theorem refl (row : Forest (Node κ)) (w : Wiring κ) : Keeps row w row w := fun _ _ h => h

theorem trans (h₁ : Keeps a w a' w₁) (h₂ : Keeps a' w₁ b w₂) : Keeps a w b w₂ :=
  fun rest kept h => h₂ rest kept (h₁ rest kept h)

/-- Views that look the same to the accounts. -/
theorem of_ledger (hledger : View.ledger row' = View.ledger row) (hstores : w₁.stores = w.stores)
    (hremoved : w₁.removed = w.removed) (hnext : w.next ≤ w₁.next) : Keeps row w row' w₁ := by
  intro rest kept h
  rw [hledger, hstores, hremoved]
  exact h.le hnext

theorem perm (h : Keeps a w b w₁) (ha : View.ledger a' ~ View.ledger a)
    (hb : View.ledger b ~ View.ledger b') : Keeps a' w b' w₁ := fun rest kept hrow =>
  (h rest kept (hrow.perm ((ha.append_right _).append_right _))).perm
    ((hb.append_right _).append_right _)

/-- Some views are worked on while others stand in front of them. -/
theorem behind (h : Keeps a w a' w₁) (front : Forest (Node κ)) :
    Keeps (front ++ a) w (front ++ a') w₁ := by
  have hswap : ∀ l m r : Ledger, View.ledger front ++ l ++ m ++ r ~
      l ++ m ++ (View.ledger front ++ r) := fun l m r => by
    rw [perm_iff_count]
    intro x
    simp only [List.count_append]
    omega
  intro rest kept hrow
  rw [View.ledger_append] at hrow ⊢
  exact (h _ kept (hrow.perm (hswap _ _ _))).perm (hswap _ _ _).symm

/-- Some views are worked on, and then others behind them. -/
theorem append (h₁ : Keeps a w a' w₁) (h₂ : Keeps b w₁ b' w₂) :
    Keeps (a ++ b) w (a' ++ b') w₂ := by
  have hfirst : Keeps (a ++ b) w (a' ++ b) w₁ := (h₁.behind b).perm
    (by rw [View.ledger_append, View.ledger_append]; exact perm_append_comm)
    (by rw [View.ledger_append, View.ledger_append]; exact perm_append_comm)
  exact hfirst.trans (h₂.behind a')

/-- What is below a node is worked on. -/
theorem below (h : Keeps row w row' w₁) (id : NodeId) {n n' : Node κ}
    (hguards : n'.guards = n.guards) : Keeps [.node id n row] w [.node id n' row'] w₁ := by
  have hnode := h.behind [.node id n []]
  refine hnode.perm ?_ ?_
  · simp
  · simp [hguards]

/-- A root is changed but for its guards. -/
theorem mapRoot (t : View κ) (f : Node κ → Node κ) (hf : ∀ n, (f n).guards = n.guards)
    (w : Wiring κ) : Keeps [t] w [t.mapRoot f] w := by
  obtain ⟨id, n, row⟩ := t
  exact (refl row w).below id (hf n)

end Keeps

/-! ## Wiring -/

namespace Node

@[simp] theorem guards_setPayload (n : Node κ) (text : String) :
    (n.setPayload text).guards = n.guards := by
  unfold setPayload
  split <;> rfl

@[simp] theorem guards_setValue (n : Node κ) (value : String) :
    (n.setValue value).guards = n.guards := by
  unfold setValue
  split <;> rfl

@[simp] theorem guards_setAttribute (n : Node κ) (name value : String) :
    (n.setAttribute name value).guards = n.guards := by
  unfold setAttribute
  split <;> rfl

end Node

namespace Wiring

/-- A node is given the guard of an observer that shows its value there, if anywhere. -/
theorem keeps_watch (w : Wiring κ) (store : StoreId) (key : String) {observer : Observer κ}
    {t : View κ} (haim : ∀ n, observer.target? = some n → n = t.id) :
    Keeps [t] w [(w.watch store key observer t).1] (w.watch store key observer t).2 := by
  obtain ⟨id, n, row⟩ := t
  unfold watch
  split
  · exact Keeps.refl _ w
  · next st hst =>
    intro rest kept h
    rw [View.ledger_node, List.cons_append, List.cons_append] at h
    rw [Tree.mapRoot, View.ledger_node, List.cons_append, List.cons_append]
    exact h.watch hst key haim

/-- Views that are taken out as they are. -/
theorem keeps_remove (w : Wiring κ) (row : Forest (Node κ)) :
    Keeps row w [] { w with removed := w.removed ++ row } := by
  intro rest kept h
  refine h.perm ?_
  rw [View.ledger_append, View.ledger_nil, List.nil_append]
  exact perm_append_comm.append_right _

theorem keeps_discard (w : Wiring κ) (t : View κ) : Keeps [t] w [] (w.discard t) := by
  intro rest kept h
  have hcleared : View.ledger [t.released] = (View.ledger [t]).cleared := by
    rw [← View.ledger_released]
    simp [View.released, Forest.map]
  rw [List.append_assoc] at h
  have hclear := h.clear
  rw [View.guards_ledger, ← hcleared] at hclear
  refine hclear.perm ?_
  simp only [discard, View.ledger_append, View.ledger_nil, List.nil_append]
  rw [← List.append_assoc]
  exact perm_append_comm.append_right _

/-- A new view with the next numbers. -/
theorem keeps_ofMarkup (w : Wiring κ) (m : Markup) :
    Keeps [] w [(View.ofMarkup w.next m).1]
      { w with next := (View.ofMarkup w.next m : View κ × NodeId).2 } := by
  intro rest kept h
  obtain ⟨count, hids, hnext⟩ := View.ids_ofMarkup (κ := κ) w.next m
  have hguards : (View.ofMarkup w.next m : View κ × NodeId).1.guards = [] :=
    List.flatMap_eq_nil_iff.2 fun x hx => (View.unbound_ofMarkup w.next m x hx).2
  rw [View.ledger_nil, List.nil_append] at h
  rw [hnext, List.append_assoc]
  refine h.fresh _ _ ?_ ((View.guards_ledger _).trans hguards)
  rw [View.ids_ledger, Forest.ids_cons, Forest.ids_nil, List.append_nil, hids]

/-- **Whatever is bound**, from `discard` to `compile`, every subscription stays accounted for. -/
theorem bindwise_keeps : Bindwise (Keeps (κ := κ)) where
  refl := Keeps.refl
  trans := Keeps.trans
  append := Keeps.append
  below id _ h := h.below id rfl
  setPayload t text w := Keeps.mapRoot t _ (fun n => n.guards_setPayload text) w
  setValue t value w := Keeps.mapRoot t _ (fun n => n.guards_setValue value) w
  setAttribute t name value w := Keeps.mapRoot t _ (fun n => n.guards_setAttribute name value) w
  listen t event listener w := Keeps.mapRoot t (·.addListener event listener) (fun _ => rfl) w
  watch w store key _ _ haim := w.keeps_watch store key haim
  note _ _ _ := Keeps.of_ledger rfl rfl rfl (Nat.le_refl _)
  skip _ _ := Keeps.of_ledger rfl rfl rfl (Nat.le_succ _)
  ofMarkup := keeps_ofMarkup
  discard := keeps_discard
  remove := keeps_remove

end Wiring

end ViewBinding
