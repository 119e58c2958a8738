import ViewBinding.Proofs.Store.Log
import ViewBinding.Proofs.World.Induction

/-!
# Binding and releasing write no value

To every function that binds, releases, moves or drops views there is a run of the stores in which no
value is written (`Stores.Changes`): observers come and go, which leaves the stores rewired.  Nor does
any of them give out a number of a node that was given out before.  `Wiring.Advances` is both.

Binding comes to this by induction (`Wiring.bindwise_advances`, `World.settlewise_advances`); releasing,
sweeping and visiting have a statement each (`World.advances_release`, `World.advances_sweep`,
`Visit.preserves_advances`).  What a release answers is told by the attempts in its run
(`World.fst_giveUp`, `World.fst_releaseNodes_eq`).
-/

namespace ViewBinding

open Json (Value)

/-! ## Wiring -/

/-- What holds between a wiring and a later one: no value was written in between (`Changes`), and the
numbers of nodes went up, if anywhere. -/
structure Wiring.Advances {κ : Type} (w w' : Wiring κ) : Prop where
  stores : w.stores.Changes w'.stores
  next : w.next ≤ w'.next

namespace Wiring.Advances

variable {κ : Type} {w w₁ w₂ : Wiring κ}

theorem refl (w : Wiring κ) : w.Advances w :=
  ⟨Stores.Changes.refl _, Nat.le_refl _⟩

theorem trans (h₁ : w.Advances w₁) (h₂ : w₁.Advances w₂) : w.Advances w₂ :=
  ⟨h₁.stores.trans h₂.stores, Nat.le_trans h₁.next h₂.next⟩

end Wiring.Advances

namespace Wiring

variable {κ : Type}

theorem advances_watch (w : Wiring κ) (store : StoreId) (key : String) (observer : Observer κ)
    (t : View κ) : w.Advances (w.watch store key observer t).2 := by
  unfold watch
  split
  · exact Advances.refl w
  · exact ⟨Stores.changes_subscribe key observer, Nat.le_refl _⟩

theorem advances_next (w : Wiring κ) {next : NodeId} (h : w.next ≤ next) :
    w.Advances { w with next := next } :=
  ⟨Stores.Changes.refl _, h⟩

/-- **Whatever is bound**, from `discard` to `compile`, no value is written, and numbers of nodes are only
used up. -/
theorem bindwise_advances :
    Bindwise fun (_ : Forest (Node κ)) w (_ : Forest (Node κ)) w' => w.Advances w' where
  refl _ w := .refl w
  trans := .trans
  append := .trans
  below _ _ h := h
  setPayload _ _ w := .refl w
  setValue _ _ w := .refl w
  setAttribute _ _ _ w := .refl w
  listen _ _ _ w := .refl w
  watch w store key _ t _ := w.advances_watch store key _ t
  note _ _ _ := ⟨.refl _, Nat.le_refl _⟩
  skip _ w := w.advances_next (Nat.le_succ _)
  ofMarkup w m := w.advances_next (View.le_ofMarkup _ m)
  discard w t := ⟨Stores.changes_endGuards t.guards w.stores, Nat.le_refl _⟩
  remove _ _ := ⟨.refl _, Nat.le_refl _⟩

end Wiring

namespace Compiler

variable {κ : Type} (c : Compiler κ)

theorem advances_dispatch (d : Directive) (hasParent : Bool) (t : View κ) (w : Wiring κ) :
    w.Advances (c.dispatch d hasParent t w).wiring :=
  Wiring.bindwise_advances.dispatch c d hasParent t w

theorem advances_dispatchAll (ds : List Directive) (e : ElementPass κ) :
    e.pass.wiring.Advances (c.dispatchAll ds e).pass.wiring :=
  Wiring.bindwise_advances.dispatchAll c ds e

theorem advances_compileNode (t : View κ) (p : Pass κ) :
    p.wiring.Advances (c.compileNode t p).2.wiring :=
  Wiring.bindwise_advances.compileNode c t p

theorem advances_compileRow (row : Forest (Node κ)) (p : Pass κ) :
    p.wiring.Advances (c.compileRow row p).2.wiring :=
  Wiring.bindwise_advances.compileRow c row p

end Compiler

/-! ## Worlds -/

namespace World

variable {κ : Type} {w : World κ}

/-- What holds between a world and a later one if no value was written in between (`Wiring.Advances`). -/
def Advances (w w' : World κ) : Prop := w.wiring.Advances w'.wiring

theorem Advances.refl (w : World κ) : w.Advances w := Wiring.Advances.refl w.wiring

theorem Advances.trans {w₁ w₂ : World κ} (h₁ : w.Advances w₁) (h₂ : w₁.Advances w₂) :
    w.Advances w₂ :=
  Wiring.Advances.trans h₁ h₂

/-- Only the stores change. -/
theorem Advances.of_stores {w' : World κ} (h : w.stores.Changes w'.stores)
    (hnext : w'.next = w.next) : w.Advances w' :=
  ⟨h, Nat.le_of_eq hnext.symm⟩

theorem advances_build (w : World κ) (m : Markup) : w.Advances (w.build m) :=
  ⟨Stores.Changes.refl _, View.le_ofMarkup w.next m⟩

theorem advances_release (w : World κ) (held : StoreId → Bool) (n : NodeId) :
    w.Advances (w.release held n).2 := by
  unfold release
  split
  · exact Advances.refl w
  · refine Advances.of_stores ?_ rfl
    simp only [stores_releaseNodes]
    exact Stores.changes_endGuards _ w.stores

theorem advances_sweep (w : World κ) (held : NodeId → Bool) : w.Advances (w.sweep held) :=
  Advances.of_stores (Stores.changes_endGuards _ w.stores) rfl

/-- **Whatever is bound in a world**, from `setText` to `compile`, no value is written, and numbers of
nodes are only used up. -/
theorem settlewise_advances :
    Settlewise (fun _ w _ w' => w.Advances w') (Advances (κ := κ)) where
  toBindwise := Wiring.bindwise_advances
  same := .refl
  settle _ h := ⟨h.stores, h.next⟩
  showField w _ _ := .refl w
  showText w _ _ := .refl w

theorem advances_refresh (w : World κ) (observer : Observer κ) (value : Value) :
    w.Advances (w.refresh observer value) :=
  settlewise_advances.refresh w observer value

end World

/-! ## What is told of attempts -/

namespace World

open Stores (attempts)

variable {κ : Type}

/-- A guard tells of a success if the store lives and the attempt is one (`attempts`). -/
theorem fst_giveUp (alive : StoreId → Bool) (gs : List Guard) (stores : Stores κ) :
    (giveUp alive gs stores).1 = (attempts gs stores).map fun x => alive x.1.store && x.2 := by
  induction gs generalizing stores with
  | nil => rfl
  | cons g gs ih =>
    simp only [giveUp, attempts, List.map_cons, ih]
    rfl

theorem count_giveUp_le (alive : StoreId → Bool) (gs : List Guard) (stores : Stores κ) :
    (giveUp alive gs stores).1.count true ≤ (attempts gs stores).countP (·.2) := by
  rw [fst_giveUp, List.count, List.countP_map]
  exact List.countP_mono_left fun x _ hx => by
    simp only [Function.comp_apply, beq_true, Bool.and_eq_true] at hx
    exact hx.2

theorem count_giveUp_eq {alive : StoreId → Bool} {gs : List Guard} {stores : Stores κ}
    (halive : ∀ g ∈ gs, alive g.store = true) :
    (giveUp alive gs stores).1.count true = (attempts gs stores).countP (·.2) := by
  rw [fst_giveUp, List.count, List.countP_map]
  refine List.countP_congr fun x hx => ?_
  have hmem : x.1 ∈ gs := Stores.map_fst_attempts gs stores ▸ List.mem_map_of_mem hx
  simp [halive x.1 hmem]

/-- A release (`releaseNodes`) counts no attempt that was no success. -/
theorem fst_releaseNodes_le (alive : StoreId → Bool) (ns : List (Node κ)) (stores : Stores κ) :
    (releaseNodes alive ns stores).1 ≤ (attempts (ns.flatMap (·.guards)) stores).countP (·.2) := by
  induction ns generalizing stores with
  | nil => exact Nat.le_refl _
  | cons n ns ih =>
    rw [List.flatMap_cons, Stores.attempts_append, List.countP_append]
    simp only [releaseNodes, stores_giveUp]
    exact Nat.add_le_add (count_giveUp_le _ n.guards stores) (ih _)

/-- Where the stores live, a release (`releaseNodes`) counts all successes. -/
theorem fst_releaseNodes_eq (alive : StoreId → Bool) (ns : List (Node κ)) (stores : Stores κ)
    (halive : ∀ g ∈ ns.flatMap (·.guards), alive g.store = true) :
    (releaseNodes alive ns stores).1 = (attempts (ns.flatMap (·.guards)) stores).countP (·.2) := by
  induction ns generalizing stores with
  | nil => rfl
  | cons n ns ih =>
    rw [List.flatMap_cons] at halive
    rw [List.flatMap_cons, Stores.attempts_append, List.countP_append]
    simp only [releaseNodes, stores_giveUp]
    rw [ih _ fun g hg => halive g (List.mem_append_right _ hg), count_giveUp_eq]
    intro g hg
    rw [halive g (List.mem_append_left _ hg), Bool.true_or]

end World

/-! ## Visits -/

namespace Visit

variable {κ : Type}

/-- A visit writes no value, whatever the client's visitor does (`Visit.change`). -/
theorem preserves_advances (w : World κ) : Preserves w.Advances where
  detach _ h := h.trans (World.Advances.refl _)
  add _ m h := h.trans ⟨Stores.Changes.refl _, View.le_ofMarkup _ m⟩

end Visit

end ViewBinding
