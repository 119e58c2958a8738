import ViewBinding.Proofs.Tree.Lookup
import ViewBinding.View.Basic

/-!
# New views

The view of a piece of markup has the next numbers, one after the other (`ids_ofMarkup`), and its nodes
have nothing but their content (`plain_ofMarkup`), so nothing binds them (`unbound_ofMarkup`).  A text
that is written is one new node at most (`eq_of_mem_textRow`).
-/

namespace ViewBinding

namespace View

variable {κ : Type}

mutual

/-- The nodes of a new view (`ofMarkup`) are numbered one after the other. -/
theorem ids_ofMarkup (next : NodeId) : ∀ m : Markup, ∃ count,
    (ofMarkup next m : View κ × NodeId).1.ids = List.range' next count ∧
      (ofMarkup next m : View κ × NodeId).2 = next + count
  | .text payload => ⟨1, by simp [ofMarkup], by simp [ofMarkup]⟩
  | .element tag attributes children => by
    obtain ⟨count, hids, hafter⟩ := ids_ofRow (next + 1) children
    refine ⟨count + 1, ?_, ?_⟩
    · rw [ofMarkup, Tree.ids_node, hids, List.range'_succ]
    · rw [ofMarkup, hafter]
      exact Nat.add_right_comm next 1 count

theorem ids_ofRow (next : NodeId) : ∀ ms : List Markup, ∃ count,
    Forest.ids (ofRow next ms : Forest (Node κ) × NodeId).1 = List.range' next count ∧
      (ofRow next ms : Forest (Node κ) × NodeId).2 = next + count
  | [] => ⟨0, by simp [ofRow], by simp [ofRow]⟩
  | m :: ms => by
    obtain ⟨count, hids, hmiddle⟩ := ids_ofMarkup next m
    obtain ⟨more, hmore, hafter⟩ := ids_ofRow (ofMarkup next m : View κ × NodeId).2 ms
    refine ⟨count + more, ?_, ?_⟩
    · rw [ofRow, Forest.ids_cons, hids, hmore, hmiddle, List.range'_append_1]
    · rw [ofRow, hafter, hmiddle]
      exact Nat.add_assoc next count more

end

theorem le_ofMarkup (next : NodeId) (m : Markup) : next ≤ (ofMarkup next m : View κ × NodeId).2 := by
  obtain ⟨count, -, hafter⟩ := ids_ofMarkup (κ := κ) next m
  exact hafter ▸ Nat.le_add_right next count

theorem le_of_mem_ofMarkup (next : NodeId) (m : Markup) :
    ∀ x ∈ (ofMarkup next m : View κ × NodeId).1.nodes, next ≤ x.1 := by
  intro x hx
  obtain ⟨count, hids, -⟩ := ids_ofMarkup (κ := κ) next m
  have hin : x.1 ∈ List.range' next count := hids ▸ List.mem_map_of_mem hx
  exact (List.mem_range'_1.1 hin).1

mutual

/-- The nodes of a new view have nothing but their content. -/
theorem plain_ofMarkup (next : NodeId) : ∀ m : Markup,
    ∀ x ∈ (ofMarkup next m : View κ × NodeId).1.nodes, ∃ content, x.2 = { content }
  | .text payload, x, hx => by
    obtain rfl : x = (next, Node.ofText payload) := by
      simpa [ofMarkup, Tree.nodes, Forest.nodes] using hx
    exact ⟨_, rfl⟩
  | .element tag attributes children, x, hx => by
    rw [ofMarkup, Tree.nodes, List.mem_cons] at hx
    rcases hx with rfl | hx
    · exact ⟨_, rfl⟩
    · exact plain_ofRow (next + 1) children x hx

theorem plain_ofRow (next : NodeId) : ∀ ms : List Markup,
    ∀ x ∈ Forest.nodes (ofRow next ms : Forest (Node κ) × NodeId).1, ∃ content, x.2 = { content }
  | [], x, hx => by simp [ofRow, Forest.nodes] at hx
  | m :: ms, x, hx => by
    rw [ofRow, Forest.nodes, List.mem_append] at hx
    exact hx.elim (plain_ofMarkup next m x) (plain_ofRow _ ms x)

end

/-- Nothing binds a new view, neither a listener nor a guard (`ofMarkup`). -/
theorem unbound_ofMarkup (next : NodeId) (m : Markup) :
    ∀ x ∈ (ofMarkup next m : View κ × NodeId).1.nodes, x.2.listeners = [] ∧ x.2.guards = [] := by
  intro x hx
  obtain ⟨content, hx⟩ := plain_ofMarkup next m x hx
  rw [hx]
  exact ⟨rfl, rfl⟩

/-- The node of a new text. -/
theorem eq_of_mem_textRow {fresh : NodeId} {text : String} {x : NodeId × Node κ}
    (hx : x ∈ Forest.nodes (textRow fresh text)) : x = (fresh, Node.ofText text) := by
  unfold textRow at hx
  split at hx
  · exact absurd hx (by simp [Forest.nodes])
  · simpa [Forest.nodes, Tree.nodes] using hx

end View

end ViewBinding
