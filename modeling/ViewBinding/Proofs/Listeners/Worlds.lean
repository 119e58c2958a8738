import ViewBinding.Proofs.Guards.Sessions
import ViewBinding.Proofs.Listeners.Wiring
import ViewBinding.Proofs.World.Untouched

/-!
# The tables of listeners in a world

Whatever is done to a world, each of its nodes is one that there was before, and its table only changed
as tables do, or it is new and began with an empty one (`World.Continues`).

* `Continues.updateNode`, `.build`, `.release`, `.sweep` — single changes.
* `settlewise_continues` — what binds, or shows what is bound.
* `Visit.preserves_continues` — a visit, which goes on with the children that it finds.
-/

namespace ViewBinding

open Json (Value)

variable {κ : Type}

/-- Whether the nodes of a world are those of an earlier one at a later time (`Node.Becomes`), or new. -/
structure World.Continues (w w' : World κ) : Prop where
  next : w.next ≤ w'.next
  nodes : ∀ y ∈ Forest.nodes w'.forest, ComesFrom w.next (Forest.nodes w.forest) y

namespace World

namespace Continues

variable {w w₁ w₂ : World κ} {n : NodeId} {t view : View κ}

/-- No node is there that was not there as it is. -/
theorem of_subset (hnext : w.next ≤ w₁.next)
    (hsub : Forest.nodes w₁.forest ⊆ Forest.nodes w.forest) : w.Continues w₁ :=
  ⟨hnext, fun _ hy => .of_mem (hsub hy)⟩

theorem refl (w : World κ) : w.Continues w := of_subset (Nat.le_refl _) (List.Subset.refl _)

theorem trans (h₁ : w.Continues w₁) (h₂ : w₁.Continues w₂) : w.Continues w₂ :=
  ⟨Nat.le_trans h₁.next h₂.next, fun y hy => (h₂.nodes y hy).trans h₁.next h₁.nodes⟩

/-- Something else than a node changed. -/
theorem of_forest (hforest : w₁.forest = w.forest) (hnext : w₁.next = w.next) : w.Continues w₁ :=
  of_subset (Nat.le_of_eq hnext.symm) (by rw [hforest]; exact List.Subset.refl _)

/-- A view was worked on, and stands in its place (`World.settle`). -/
theorem settle (hd : w.forest.Distinct) (ht : w.forest.find? n = some t) {wiring : Wiring κ}
    (h : ViewBinding.Continues [t] w.wiring [view] wiring) : w.Continues (w.settle n view wiring) := by
  have hfound : Forest.nodes [t] ⊆ Forest.nodes w.forest := fun x hx => by
    refine (Forest.perm_of_find? hd ht).symm.subset (List.mem_append_left _ ?_)
    simpa [Forest.nodes] using hx
  have hrest : Forest.nodes (w.forest.erase n) ⊆ Forest.nodes w.forest := fun x hx =>
    (Forest.perm_of_find? hd ht).symm.subset (List.mem_append_right _ hx)
  have hworked : ∀ y ∈ wiring.nodes [view], ComesFrom w.next (Forest.nodes w.forest) y := fun y hy =>
    (h.nodes y hy).mono (by simpa [Wiring.nodes, World.wiring, Forest.nodes] using hfound)
  refine ⟨h.next, fun y hy => ?_⟩
  rw [World.settle, Forest.nodes_append, List.mem_append] at hy
  rcases hy with hy | hy
  · rcases List.mem_append.1 ((Forest.nodes_expand (fun _ => [view]) hd ht).subset hy) with hy | hy
    · exact hworked y (List.mem_append_left _ hy)
    · exact .of_mem (hrest hy)
  · exact hworked y (List.mem_append_right _ hy)

theorem build (w : World κ) (m : Markup) : w.Continues (w.build m) := by
  have hnew := w.wiring.continues_ofMarkup m
  refine ⟨hnew.next, fun y hy => ?_⟩
  rw [World.build, Forest.nodes_append, List.mem_append] at hy
  rcases hy with hy | hy
  · exact .of_mem hy
  · exact (hnew.nodes y (List.mem_append_left _ hy)).mono
      (by simp [Wiring.nodes, World.wiring, Forest.nodes])

/-- A node was changed in a way that its table allows (`Node.Becomes`). -/
theorem updateNode (hd : w.forest.Distinct) (n : NodeId) {f : Node κ → Node κ}
    (hf : ∀ m : Node κ, m.Becomes (f m)) : w.Continues (w.updateNode n f) := by
  rcases hfound : w.forest.find? n with _ | t
  · refine of_forest ?_ rfl
    rw [World.updateNode, Forest.update, Forest.expand_of_not_mem (Forest.not_mem_of_find? hfound)]
  · have hroot := settle hd hfound (ViewBinding.Continues.mapRoot t f hf w.wiring)
    refine ⟨hroot.next, fun y hy => hroot.nodes y ?_⟩
    have hsame := (Forest.nodes_expand (fun s => [s.mapRoot f]) hd hfound).subset hy
    rw [World.settle, Forest.nodes_append]
    have hback := (Forest.nodes_expand (fun _ => [t.mapRoot f]) hd hfound).symm
    exact List.mem_append_left _ (hback.subset hsame)

/-- A view was released: its nodes hear nothing any more (`release_subtree`). -/
theorem release (hd : w.forest.Distinct) (held : StoreId → Bool) (n : NodeId) :
    w.Continues (w.release held n).2 := by
  unfold World.release
  split
  · exact refl w
  · next t ht =>
    refine ⟨Nat.le_refl _, fun y hy => ?_⟩
    have hparts := Forest.perm_of_find? hd ht
    have hreleased := Forest.nodes_expand (fun s => [View.released s]) hd ht
    rcases List.mem_append.1 (hreleased.subset hy) with hy | hy
    · rw [Forest.nodes, Forest.nodes, List.append_nil, View.released, Tree.nodes_map] at hy
      obtain ⟨x, hx, rfl⟩ := List.mem_map.1 hy
      exact Or.inl ⟨x, hparts.symm.subset (List.mem_append_left _ hx), rfl, .release x.2⟩
    · exact .of_mem (hparts.symm.subset (List.mem_append_right _ hy))

theorem sweep (w : World κ) (held : NodeId → Bool) : w.Continues (w.sweep held) :=
  of_subset (Nat.le_refl _) fun y hy => nodes_sweepRow held w.forest y hy

/-- Nodes were moved; their tables stay (`append_child`, `insert_before`, `remove_child`). -/
theorem of_perm {forest : Forest (Node κ)} (hperm : forest.nodes.Perm w.forest.nodes) :
    w.Continues { w with forest := forest } :=
  of_subset (Nat.le_refl _) hperm.subset

end Continues

/-- **Whatever is bound in a world**, from `setText` to `compile`, its tables are left to themselves, but
for the listeners that are added. -/
theorem settlewise_continues :
    Settlewise (ViewBinding.Continues (κ := κ)) fun w w' => w.forest.Distinct → w.Continues w' where
  toBindwise := Wiring.bindwise_continues
  same w _ := .refl w
  settle ht h hd := .settle hd ht h
  showField _ n value hd := .updateNode hd n fun m => .setValue m value
  showText _ n text hd := .updateNode hd n fun m => .setPayload m text

end World

/-! ## Visits -/

namespace Visit

/-- A visit keeps the accounts too, which each of its changes needs. -/
theorem preserves_continues (w : World κ) (kept : List Guard) :
    Preserves fun w' : World κ => w.Continues w' ∧ w'.Accounted kept where
  detach id := fun ⟨hcontinues, haccounted⟩ =>
    ⟨hcontinues.trans (.of_perm (Forest.nodes_detach haccounted.distinct id)),
      (preserves_accounted kept).detach id haccounted⟩
  add {w'} parent m := fun ⟨hcontinues, haccounted⟩ => by
    have hperm := Forest.nodes_append_child (haccounted.build m).distinct parent w'.next
    exact ⟨hcontinues.trans ((World.Continues.build w' m).trans (.of_perm hperm)),
      (preserves_accounted kept).add parent m haccounted⟩

end Visit

end ViewBinding
