import ViewBinding.Tree.Basic
import Mathlib.Tactic.Common

/-!
# Looking up after a change

What `find?` finds in a forest, and what it finds after `expand` put something else there.

* `find?_expand_self` — where a subtree with a number was, its replacement of the same number is
  found.
* `expand_of_not_mem` — nothing changes in a forest that does not have the number.

Each statement comes as a pair, on a tree and on a forest, proved by recursion on the tree.
-/

namespace ViewBinding

variable {α : Type}

/-! ## Numbers -/

@[simp] theorem Tree.ids_node (n : Nat) (a : α) (ts : List (Tree α)) :
    (Tree.node n a ts).ids = n :: Forest.ids ts := by
  simp [Tree.ids, Forest.ids, Tree.nodes]

@[simp] theorem Forest.ids_nil : Forest.ids ([] : Forest α) = [] := by
  simp [Forest.ids, Forest.nodes]

@[simp] theorem Forest.ids_cons (t : Tree α) (ts : Forest α) :
    Forest.ids (t :: ts) = t.ids ++ Forest.ids ts := by
  simp [Forest.ids, Tree.ids, Forest.nodes]

theorem Forest.mem_ids {ts : Forest α} {i : Nat} :
    i ∈ Forest.ids ts ↔ ∃ x ∈ Forest.nodes ts, x.1 = i := by
  rw [Forest.ids, List.mem_map]

theorem Forest.nodes_append (ts us : Forest α) :
    Forest.nodes (ts ++ us) = Forest.nodes ts ++ Forest.nodes us := by
  induction ts with
  | nil => simp [Forest.nodes]
  | cons t ts ih => simp [Forest.nodes, ih]

mutual

theorem Tree.nodes_map {β : Type} (f : α → β) :
    ∀ t : Tree α, (Tree.map f t).nodes = t.nodes.map fun x => (x.1, f x.2)
  | .node n a ts => by simp [Tree.map, Tree.nodes, Forest.nodes_map f ts]

theorem Forest.nodes_map {β : Type} (f : α → β) :
    ∀ ts : Forest α, Forest.nodes (Forest.map f ts) =
      (Forest.nodes ts).map fun x => (x.1, f x.2)
  | [] => by simp [Forest.map, Forest.nodes]
  | t :: ts => by simp [Forest.map, Forest.nodes, Tree.nodes_map f t, Forest.nodes_map f ts]

end

/-! ## What is found -/

mutual

theorem Tree.find?_id {n : Nat} : ∀ {t s : Tree α}, Tree.find? n t = some s → s.id = n
  | .node m a ts, s, h => by
    rw [Tree.find?] at h
    split at h
    · next heq => exact Option.some.inj h ▸ heq
    · exact Forest.find?_id h

theorem Forest.find?_id {n : Nat} : ∀ {ts : Forest α} {s : Tree α},
    Forest.find? n ts = some s → s.id = n
  | [], s, h => by simp [Forest.find?] at h
  | t :: ts, s, h => by
    rw [Forest.find?] at h
    split at h
    · next hfound => exact Option.some.inj h ▸ Tree.find?_id hfound
    · exact Forest.find?_id h

end

mutual

theorem Tree.mem_nodes_of_find? {n : Nat} : ∀ {t s : Tree α}, Tree.find? n t = some s →
    (s.id, s.val) ∈ t.nodes
  | .node m a ts, s, h => by
    rw [Tree.find?] at h
    rw [Tree.nodes]
    split at h
    · exact Option.some.inj h ▸ List.mem_cons_self
    · exact List.mem_cons_of_mem _ (Forest.mem_nodes_of_find? h)

/-- What is found is one of the nodes. -/
theorem Forest.mem_nodes_of_find? {n : Nat} : ∀ {ts : Forest α} {s : Tree α},
    Forest.find? n ts = some s → (s.id, s.val) ∈ Forest.nodes ts
  | [], s, h => by simp [Forest.find?] at h
  | t :: ts, s, h => by
    rw [Forest.find?] at h
    rw [Forest.nodes, List.mem_append]
    split at h
    · next hfound => exact Or.inl (Option.some.inj h ▸ Tree.mem_nodes_of_find? hfound)
    · exact Or.inr (Forest.mem_nodes_of_find? h)

end

theorem Forest.find?_append (n : Nat) (ts us : Forest α) :
    Forest.find? n (ts ++ us) = (Forest.find? n ts).or (Forest.find? n us) := by
  induction ts with
  | nil => simp [Forest.find?]
  | cons t ts ih =>
    rw [List.cons_append, Forest.find?, Forest.find?]
    cases Tree.find? n t with
    | none => exact ih
    | some s => rfl

theorem Forest.find?_singleton (n : Nat) (t : Tree α) : Forest.find? n [t] = Tree.find? n t := by
  rw [Forest.find?]
  cases Tree.find? n t <;> rfl

/-- Any other number than that of the root is looked for below it (`Forest.find?`). -/
theorem Tree.find?_of_ne {n m : Nat} (h : n ≠ m) (a : α) (ts : Forest α) :
    Tree.find? n (.node m a ts) = Forest.find? n ts := by
  rw [Tree.find?, if_neg (Ne.symm h)]

theorem Forest.expand_singleton (t : Tree α) (f : Tree α → Forest α) :
    Forest.expand t.id f [t] = f t := by
  obtain ⟨n, a, ts⟩ := t
  simp [Forest.expand, Tree.expand, Tree.id]

theorem Tree.find?_self (t : Tree α) : Tree.find? t.id t = some t := by
  obtain ⟨n, a, ts⟩ := t
  simp [Tree.find?, Tree.id]

mutual

/-- A number that is not there is not found. -/
theorem Tree.find?_eq_none {n : Nat} : ∀ {t : Tree α}, n ∉ t.ids → Tree.find? n t = none
  | .node m a ts, h => by
    rw [Tree.ids_node, List.mem_cons, not_or] at h
    rw [Tree.find?_of_ne h.1]
    exact Forest.find?_eq_none h.2

theorem Forest.find?_eq_none {n : Nat} : ∀ {ts : Forest α}, n ∉ Forest.ids ts →
    Forest.find? n ts = none
  | [], _ => by rw [Forest.find?]
  | t :: ts, h => by
    rw [Forest.ids_cons, List.mem_append, not_or] at h
    rw [Forest.find?, Tree.find?_eq_none h.1]
    exact Forest.find?_eq_none h.2

end

/-! ## What is found after a change -/

mutual

theorem Tree.find?_expand_self {n : Nat} {v : Tree α} (hv : v.id = n) :
    ∀ {t s : Tree α}, Tree.find? n t = some s →
      Forest.find? n (Tree.expand n (fun _ => [v]) t) = some v
  | .node m a ts, s, h => by
    have hself : Tree.find? n v = some v := hv ▸ v.find?_self
    by_cases heq : m = n
    · rw [Tree.expand, if_pos heq, Forest.find?, hself]
    · rw [Tree.find?, if_neg heq] at h
      rw [Tree.expand, if_neg heq, Forest.find?, Tree.find?, if_neg heq,
        Forest.find?_expand_self hv h]

/-- Where a subtree was, its replacement of the same number is found (`expand`). -/
theorem Forest.find?_expand_self {n : Nat} {v : Tree α} (hv : v.id = n) :
    ∀ {ts : Forest α} {s : Tree α}, Forest.find? n ts = some s →
      Forest.find? n (Forest.expand n (fun _ => [v]) ts) = some v
  | [], s, h => by simp [Forest.find?] at h
  | t :: ts, s, h => by
    rw [Forest.expand, Forest.find?_append]
    cases hfound : Tree.find? n t with
    | some u => rw [Tree.find?_expand_self hv hfound, Option.some_or]
    | none =>
      -- the first tree does not have the number, and does not change
      rw [Forest.find?, hfound] at h
      rw [Tree.find?_expand_none hfound, Option.none_or, Forest.find?_expand_self hv h]

theorem Tree.find?_expand_none {n : Nat} {v : Tree α} :
    ∀ {t : Tree α}, Tree.find? n t = none →
      Forest.find? n (Tree.expand n (fun _ => [v]) t) = none
  | .node m a ts, h => by
    by_cases heq : m = n
    · simp [Tree.find?, heq] at h
    · rw [Tree.find?, if_neg heq] at h
      rw [Tree.expand, if_neg heq, Forest.find?, Tree.find?, if_neg heq,
        Forest.find?_expand_none h, Forest.find?]

theorem Forest.find?_expand_none {n : Nat} {v : Tree α} :
    ∀ {ts : Forest α}, Forest.find? n ts = none →
      Forest.find? n (Forest.expand n (fun _ => [v]) ts) = none
  | [], _ => by simp [Forest.expand, Forest.find?]
  | t :: ts, h => by
    rw [Forest.find?] at h
    split at h
    · exact absurd h (by simp)
    · next hfound =>
      rw [Forest.expand, Forest.find?_append, Tree.find?_expand_none hfound, Option.none_or,
        Forest.find?_expand_none h]

end

mutual

theorem Tree.expand_of_not_mem {n : Nat} {f : Tree α → Forest α} :
    ∀ {t : Tree α}, n ∉ t.ids → Tree.expand n f t = [t]
  | .node m a ts, h => by
    rw [Tree.ids_node, List.mem_cons, not_or] at h
    rw [Tree.expand, if_neg (Ne.symm h.1), Forest.expand_of_not_mem h.2]

/-- Nothing changes by `expand` in a forest that does not have the number. -/
theorem Forest.expand_of_not_mem {n : Nat} {f : Tree α → Forest α} :
    ∀ {ts : Forest α}, n ∉ Forest.ids ts → Forest.expand n f ts = ts
  | [], _ => by rw [Forest.expand]
  | t :: ts, h => by
    rw [Forest.ids_cons, List.mem_append, not_or] at h
    rw [Forest.expand, Tree.expand_of_not_mem h.1, Forest.expand_of_not_mem h.2,
      List.singleton_append]

end

end ViewBinding
