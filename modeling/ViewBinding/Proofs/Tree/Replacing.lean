import ViewBinding.Proofs.Tree.Rearranging

/-!
# Changes one after the other

What two changes of a forest come to, and where the numbers of a changed forest come from.

* `Forest.update_update` — the row below one node, changed twice.
* `Forest.update_below` — a new node is put below another one, and then the row below it changes.
* `Forest.mem_ids_update` — a number is old, or one that the change brought in.
-/

namespace ViewBinding

variable {α : Type}

theorem Forest.expand_append (n : Nat) (f : Tree α → Forest α) (ts us : Forest α) :
    Forest.expand n f (ts ++ us) = Forest.expand n f ts ++ Forest.expand n f us := by
  induction ts with
  | nil => simp [Forest.expand]
  | cons t ts ih => rw [List.cons_append, Forest.expand, Forest.expand, ih, List.append_assoc]

/-- A change that changes nothing leaves the forest as it is, by `expand_self`. -/
theorem Forest.update_self (n : Nat) {f : Tree α → Tree α} (hf : ∀ t, f t = t) (ts : Forest α) :
    ts.update n f = ts := by
  have hsame : (fun t => [f t]) = fun t => [t] := funext fun t => congrArg (fun s => [s]) (hf t)
  rw [Forest.update, hsame, Forest.expand_self]

mutual

theorem Tree.expand_expand (n : Nat) (f g : Tree α → Tree α) (hf : ∀ t, (f t).id = t.id) :
    ∀ t : Tree α, Forest.expand n (fun s => [g s]) (Tree.expand n (fun s => [f s]) t) =
      Tree.expand n (fun s => [g (f s)]) t
  | .node m a ts => by
    rw [Tree.expand, Tree.expand]
    by_cases heq : m = n
    · rw [if_pos heq, if_pos heq]
      have hroot : (f (.node m a ts)).id = n := (hf _).trans heq
      rw [← hroot, Forest.expand_singleton]
    · rw [if_neg heq, if_neg heq, Forest.expand, Forest.expand, Tree.expand, if_neg heq,
        Forest.expand_expand n f g hf ts, List.append_nil]

/-- A subtree that is changed twice is changed by both, one after the other. -/
theorem Forest.expand_expand (n : Nat) (f g : Tree α → Tree α) (hf : ∀ t, (f t).id = t.id) :
    ∀ ts : Forest α, Forest.expand n (fun s => [g s]) (Forest.expand n (fun s => [f s]) ts) =
      Forest.expand n (fun s => [g (f s)]) ts
  | [] => by simp [Forest.expand]
  | t :: ts => by
    rw [Forest.expand, Forest.expand_append, Tree.expand_expand n f g hf t,
      Forest.expand_expand n f g hf ts, Forest.expand]

end

theorem Forest.update_update (n : Nat) (f g : Forest α → Forest α) (ts : Forest α) :
    (ts.update n (Tree.mapChildren f)).update n (Tree.mapChildren g) =
      ts.update n (Tree.mapChildren (g ∘ f)) := by
  refine (Forest.expand_expand n _ _ (fun t => ?_) ts).trans ?_
  · cases t
    rfl
  · refine congrArg (fun h => Forest.expand n h ts) (funext fun t => ?_)
    cases t
    rfl

mutual

theorem Tree.update_below {k n : Nat} (hne : k ≠ n) (a : α) (row : Forest α)
    (f : Forest α → Forest α) : ∀ {t : Tree α}, k ∉ t.ids →
      Forest.expand k (fun s => [s.mapChildren f])
          (Tree.expand n (fun s => [s.mapChildren (· ++ [.node k a row])]) t) =
        Tree.expand n (fun s => [s.mapChildren (· ++ [.node k a (f row)])]) t
  | .node m b ts, hk => by
    rw [Tree.ids_node, List.mem_cons, not_or] at hk
    have hroot : ¬ m = k := Ne.symm hk.1
    rw [Tree.expand, Tree.expand]
    split
    · rw [Forest.expand, Forest.expand, Tree.mapChildren, Tree.expand, if_neg hroot,
        Forest.expand_append, Forest.expand_of_not_mem hk.2]
      simp [Forest.expand, Tree.expand, Tree.mapChildren]
    · rw [Forest.expand, Forest.expand, Tree.expand, if_neg hroot,
        Forest.update_below_expand hne a row f hk.2]
      rfl

theorem Forest.update_below_expand {k n : Nat} (hne : k ≠ n) (a : α) (row : Forest α)
    (f : Forest α → Forest α) : ∀ {ts : Forest α}, k ∉ Forest.ids ts →
      Forest.expand k (fun s => [s.mapChildren f])
          (Forest.expand n (fun s => [s.mapChildren (· ++ [.node k a row])]) ts) =
        Forest.expand n (fun s => [s.mapChildren (· ++ [.node k a (f row)])]) ts
  | [], _ => by simp [Forest.expand]
  | t :: ts, hk => by
    rw [Forest.ids_cons, List.mem_append, not_or] at hk
    rw [Forest.expand, Forest.expand_append, Tree.update_below hne a row f hk.1,
      Forest.update_below_expand hne a row f hk.2, Forest.expand]

end

/-- A new node is put below another one, and then the row below the new node changes. -/
theorem Forest.update_below {k n : Nat} (hne : k ≠ n) (a : α) (row : Forest α)
    (f : Forest α → Forest α) {ts : Forest α} (hk : k ∉ ts.ids) :
    (ts.update n (Tree.mapChildren (· ++ [.node k a row]))).update k (Tree.mapChildren f) =
      ts.update n (Tree.mapChildren (· ++ [.node k a (f row)])) :=
  Forest.update_below_expand hne a row f hk

mutual

theorem Tree.mem_ids_expand {n i : Nat} {f : Tree α → Forest α} {p : Nat → Prop}
    (hf : ∀ t, i ∈ (f t).ids → i ∈ t.ids ∨ p i) : ∀ {t : Tree α},
      i ∈ Forest.ids (Tree.expand n f t) → i ∈ t.ids ∨ p i
  | .node m a ts, hi => by
    rw [Tree.expand] at hi
    split at hi
    · exact hf _ hi
    · rw [Forest.ids_cons, Forest.ids_nil, List.append_nil, Tree.ids_node, List.mem_cons] at hi
      rw [Tree.ids_node, List.mem_cons, or_assoc]
      exact hi.imp_right (Forest.mem_ids_expand hf)

/-- A number after `expand` is an old one, or one that the change brought in. -/
theorem Forest.mem_ids_expand {n i : Nat} {f : Tree α → Forest α} {p : Nat → Prop}
    (hf : ∀ t, i ∈ (f t).ids → i ∈ t.ids ∨ p i) : ∀ {ts : Forest α},
      i ∈ (Forest.expand n f ts).ids → i ∈ ts.ids ∨ p i
  | [], hi => by simp [Forest.expand] at hi
  | t :: ts, hi => by
    have happend : (Tree.expand n f t ++ Forest.expand n f ts).ids =
        Forest.ids (Tree.expand n f t) ++ (Forest.expand n f ts).ids := by
      simp [Forest.ids, Forest.nodes_append]
    rw [Forest.expand, happend, List.mem_append] at hi
    rw [Forest.ids_cons, List.mem_append]
    rcases hi with hi | hi
    · exact (Tree.mem_ids_expand hf hi).imp_left Or.inl
    · exact (Forest.mem_ids_expand hf hi).imp_left Or.inr

end

theorem Forest.mem_ids_update {n i : Nat} {f : Forest α → Forest α} {p : Nat → Prop}
    (hf : ∀ ts : Forest α, i ∈ (f ts).ids → i ∈ ts.ids ∨ p i) {ts : Forest α}
    (hi : i ∈ (ts.update n (Tree.mapChildren f)).ids) : i ∈ ts.ids ∨ p i := by
  refine Forest.mem_ids_expand (fun t ht => ?_) hi
  obtain ⟨m, a, us⟩ := t
  rw [Tree.mapChildren, Forest.ids_cons, Forest.ids_nil, List.append_nil, Tree.ids_node,
    List.mem_cons] at ht
  rw [Tree.ids_node, List.mem_cons, or_assoc]
  exact ht.imp_right (hf us)

end ViewBinding
