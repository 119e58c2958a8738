import ViewBinding.World
import ViewBinding.Proofs.Tree.Lookup

/-!
# What a sweep leaves

A sweep goes over the roots of a forest one after the other (`World.sweepRow_append`).  What it leaves
are roots that are held (`World.held_of_mem_sweep`); if all are, nothing changes
(`World.sweepRow_of_held`), and if no node holds a guard, no subscription ends
(`World.sweepRow_of_clear`).
-/

namespace ViewBinding

namespace World

variable {κ : Type} {held : NodeId → Bool}

mutual

theorem held_of_mem_sweepTree (held : NodeId → Bool) : ∀ t : View κ,
    ∀ u ∈ (sweepTree held t).1, held u.id = true
  | .node id n row, u, hu => by
    rw [sweepTree] at hu
    split at hu
    · next hheld => exact List.mem_singleton.1 hu ▸ hheld
    · exact held_of_mem_sweepRow held row u hu

theorem held_of_mem_sweepRow (held : NodeId → Bool) : ∀ ts : Forest (Node κ),
    ∀ u ∈ (sweepRow held ts).1, held u.id = true
  | [], u, hu => by simp [sweepRow] at hu
  | t :: ts, u, hu => by
    rw [sweepRow, List.mem_append] at hu
    exact hu.elim (held_of_mem_sweepTree held t u) (held_of_mem_sweepRow held ts u)

end

/-- Every root that is left after a sweep is held. -/
theorem held_of_mem_sweep (w : World κ) (held : NodeId → Bool) {t : View κ}
    (ht : t ∈ (w.sweep held).forest) : held t.id = true :=
  held_of_mem_sweepRow held w.forest t ht

theorem sweepRow_append (held : NodeId → Bool) (a b : Forest (Node κ)) : sweepRow held (a ++ b) =
    ((sweepRow held a).1 ++ (sweepRow held b).1, (sweepRow held a).2 ++ (sweepRow held b).2) := by
  induction a with
  | nil => simp [sweepRow]
  | cons t ts ih => simp [sweepRow, ih]

/-- Roots that are held stay. -/
theorem sweepRow_of_held {ts : Forest (Node κ)} (h : ∀ u ∈ ts, held u.id = true) :
    sweepRow held ts = (ts, []) := by
  induction ts with
  | nil => rw [sweepRow]
  | cons t ts ih =>
    obtain ⟨id, n, row⟩ := t
    have hroot : held id = true := h (.node id n row) List.mem_cons_self
    rw [sweepRow, ih fun u hu => h u (List.mem_cons_of_mem _ hu), sweepTree, if_pos hroot]
    rfl

mutual

theorem sweepTree_of_clear (held : NodeId → Bool) : ∀ (t : View κ),
    (∀ x ∈ t.nodes, x.2.guards = []) → (sweepTree held t).2 = [] ∧
      ∀ x ∈ Forest.nodes (sweepTree held t).1, x ∈ t.nodes
  | .node id n row, h => by
    rw [sweepTree]
    split
    · exact ⟨rfl, fun x hx => by simpa [Forest.nodes] using hx⟩
    · have hn : n.guards = [] := h (id, n) (by simp [Tree.nodes])
      obtain ⟨hguards, hnodes⟩ := sweepRow_of_clear held row
        fun x hx => h x (by simp [Tree.nodes, hx])
      refine ⟨by simp [hn, hguards], fun x hx => ?_⟩
      rw [Tree.nodes]
      exact List.mem_cons_of_mem _ (hnodes x hx)

/-- Trees that hold no guards die without ending a subscription. -/
theorem sweepRow_of_clear (held : NodeId → Bool) : ∀ (ts : Forest (Node κ)),
    (∀ x ∈ Forest.nodes ts, x.2.guards = []) → (sweepRow held ts).2 = [] ∧
      ∀ x ∈ Forest.nodes (sweepRow held ts).1, x ∈ Forest.nodes ts
  | [], _ => by
    rw [sweepRow]
    exact ⟨rfl, fun x hx => hx⟩
  | t :: ts, h => by
    obtain ⟨hguards, hnodes⟩ := sweepTree_of_clear held t fun x hx => h x (by simp [Forest.nodes, hx])
    obtain ⟨hguards', hnodes'⟩ := sweepRow_of_clear held ts
      fun x hx => h x (by simp [Forest.nodes, hx])
    rw [sweepRow]
    refine ⟨by simp [hguards, hguards'], fun x hx => ?_⟩
    rw [Forest.nodes_append, List.mem_append] at hx
    rw [Forest.nodes, List.mem_append]
    exact hx.imp (hnodes x) (hnodes' x)

end

end World

end ViewBinding
