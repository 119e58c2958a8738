import ViewBinding.Proofs.Tree.Lookup
import Mathlib.Data.List.Nodup

/-!
# Rearranging a forest

What moves and replaces subtrees loses no node and makes none.  All of it goes through `expand`:
where every number stands for one place, the forest is, up to the order, the subtree of a number and
what is left without it (`Forest.perm_of_find?`), and so is what `expand` makes of it
(`Forest.nodes_expand`).  Moving a subtree keeps the nodes (`Forest.nodes_append_child`,
`Forest.nodes_insertBefore`, `Forest.nodes_detach`).
-/

namespace ViewBinding

open List

variable {α : Type}

/-! ## Numbers that are found -/

mutual

theorem Tree.exists_find? {n : Nat} : ∀ {t : Tree α}, n ∈ t.ids → ∃ s, Tree.find? n t = some s
  | .node m a ts, h => by
    rw [Tree.ids_node, List.mem_cons] at h
    rw [Tree.find?]
    by_cases heq : m = n
    · exact ⟨_, if_pos heq⟩
    · rw [if_neg heq]
      exact Forest.exists_find? (h.resolve_left (Ne.symm heq))

/-- A number that is there is found (`find?`). -/
theorem Forest.exists_find? {n : Nat} : ∀ {ts : Forest α}, n ∈ Forest.ids ts →
    ∃ s, Forest.find? n ts = some s
  | [], h => by simp at h
  | t :: ts, h => by
    rw [Forest.ids_cons, List.mem_append] at h
    rw [Forest.find?]
    cases hfound : Tree.find? n t with
    | some s => exact ⟨s, rfl⟩
    | none =>
      refine Forest.exists_find? (h.resolve_left fun hin => ?_)
      obtain ⟨s, hs⟩ := Tree.exists_find? hin
      exact absurd (hfound.symm.trans hs) (by simp)

end

/-- What is not found is not there. -/
theorem Tree.not_mem_of_find? {n : Nat} {t : Tree α} (h : Tree.find? n t = none) : n ∉ t.ids := by
  intro hin
  obtain ⟨s, hs⟩ := Tree.exists_find? hin
  exact absurd (h.symm.trans hs) (by simp)

theorem Forest.not_mem_of_find? {n : Nat} {ts : Forest α} (h : ts.find? n = none) : n ∉ ts.ids := by
  intro hin
  obtain ⟨s, hs⟩ := Forest.exists_find? hin
  exact absurd (h.symm.trans hs) (by simp)

theorem Forest.mem_ids_of_find? {n : Nat} {ts : Forest α} {t : Tree α}
    (h : Forest.find? n ts = some t) : n ∈ Forest.ids ts :=
  Forest.mem_ids.2 ⟨_, Forest.mem_nodes_of_find? h, Forest.find?_id h⟩

theorem Tree.mem_ids_of_find? {n : Nat} {t s : Tree α} (h : Tree.find? n t = some s) : n ∈ t.ids :=
  List.mem_map.2 ⟨_, Tree.mem_nodes_of_find? h, Tree.find?_id h⟩

theorem Forest.ids_append (ts us : Forest α) : Forest.ids (ts ++ us) = ts.ids ++ us.ids := by
  simp [Forest.ids, Forest.nodes_append]

/-- Where every number stands for one place, the value of a node is the one that `val?` finds. -/
theorem Forest.val?_of_mem {ts : Forest α} (hd : ts.Distinct) {n : Nat} {a : α}
    (h : (n, a) ∈ Forest.nodes ts) : ts.val? n = some a := by
  obtain ⟨t, ht⟩ := Forest.exists_find? (Forest.mem_ids.2 ⟨_, h, rfl⟩)
  have hmem := Forest.mem_nodes_of_find? ht
  rw [Forest.find?_id ht] at hmem
  have heq : (n, a) = (n, t.val) := List.inj_on_of_nodup_map hd h hmem rfl
  rw [Forest.val?, ht, Option.map_some, (Prod.mk.inj heq).2]

theorem Forest.mem_nodes_of_val? {ts : Forest α} {n : Nat} {a : α} (h : ts.val? n = some a) :
    (n, a) ∈ Forest.nodes ts := by
  obtain ⟨t, ht, rfl⟩ := Option.map_eq_some_iff.1 h
  have hmem := Forest.mem_nodes_of_find? ht
  rwa [Forest.find?_id ht] at hmem

/-- Every node stands below a root. -/
theorem Forest.exists_root {ts : Forest α} {x : Nat × α} (hx : x ∈ Forest.nodes ts) :
    ∃ t ∈ ts, x ∈ t.nodes := by
  induction ts with
  | nil => simp [Forest.nodes] at hx
  | cons t ts ih =>
    rw [Forest.nodes, List.mem_append] at hx
    rcases hx with hx | hx
    · exact ⟨t, List.mem_cons_self, hx⟩
    · obtain ⟨u, hu, hxu⟩ := ih hx
      exact ⟨u, List.mem_cons_of_mem t hu, hxu⟩

/-- A root is found under its number. -/
theorem Forest.find?_root {ts : Forest α} (hd : ts.Distinct) {t : Tree α} (ht : t ∈ ts) :
    ts.find? t.id = some t := by
  induction ts with
  | nil => exact absurd ht (by simp)
  | cons u us ih =>
    rw [Forest.Distinct, Forest.ids_cons, List.nodup_append] at hd
    obtain ⟨-, hus, hdisjoint⟩ := hd
    rw [Forest.find?]
    rcases List.mem_cons.1 ht with rfl | ht
    · rw [Tree.find?_self]
    · have hin := Forest.mem_ids_of_find? (ih hus ht)
      have hnot : t.id ∉ u.ids := fun hu => hdisjoint _ hu _ hin rfl
      rw [Tree.find?_eq_none hnot]
      exact ih hus ht

/-! ## Replacing a subtree -/

theorem Forest.expand_nil (n : Nat) (f : Tree α → Forest α) : Forest.expand n f [] = [] := by
  rw [Forest.expand]

theorem Forest.nodes_singleton (t : Tree α) : Forest.nodes [t] = t.nodes := by
  rw [Forest.nodes, Forest.nodes, List.append_nil]

mutual

theorem Tree.nodes_expand {n : Nat} (f : Tree α → Forest α) : ∀ {t s : Tree α}, t.ids.Nodup →
    Tree.find? n t = some s →
      Forest.nodes (Tree.expand n f t) ~
        Forest.nodes (f s) ++ Forest.nodes (Tree.expand n (fun _ => []) t)
  | .node m a ts, s, hd, h => by
    rw [Tree.ids_node, List.nodup_cons] at hd
    rw [Tree.find?] at h
    rw [Tree.expand, Tree.expand]
    by_cases heq : m = n
    · rw [if_pos heq] at h
      simp [heq, ← Option.some.inj h, Forest.nodes]
    · rw [if_neg heq] at h
      rw [if_neg heq, if_neg heq, Forest.nodes_singleton, Forest.nodes_singleton, Tree.nodes,
        Tree.nodes]
      exact ((Forest.nodes_expand f hd.2 h).cons (m, a)).trans perm_middle.symm

/-- What a forest becomes when `expand` puts something in the place of a subtree: that, and what is left
without the subtree. -/
theorem Forest.nodes_expand {n : Nat} (f : Tree α → Forest α) : ∀ {ts : Forest α} {s : Tree α},
    ts.Distinct → Forest.find? n ts = some s →
      Forest.nodes (Forest.expand n f ts) ~ Forest.nodes (f s) ++ Forest.nodes (ts.erase n)
  | [], s, _, h => by simp [Forest.find?] at h
  | t :: ts, s, hd, h => by
    rw [Forest.Distinct, Forest.ids_cons, List.nodup_append] at hd
    obtain ⟨ht, hts, hdisjoint⟩ := hd
    rw [Forest.find?] at h
    rw [Forest.erase, Forest.expand, Forest.expand, Forest.nodes_append, Forest.nodes_append]
    cases hfound : Tree.find? n t with
    | some u =>
      rw [hfound] at h
      have hnot : n ∉ Forest.ids ts := fun hin =>
        hdisjoint n (Tree.mem_ids_of_find? hfound) n hin rfl
      rw [Forest.expand_of_not_mem hnot, Forest.expand_of_not_mem hnot]
      have hhead := Tree.nodes_expand f ht (hfound.trans h)
      exact (hhead.append_right _).trans (by rw [List.append_assoc])
    | none =>
      rw [hfound] at h
      have hnot : n ∉ t.ids := Tree.not_mem_of_find? hfound
      rw [Tree.expand_of_not_mem hnot, Tree.expand_of_not_mem hnot]
      exact ((Forest.nodes_expand f hts h).append_left _).trans (perm_append_comm_assoc _ _ _)

end

mutual

theorem Tree.expand_self (n : Nat) : ∀ t : Tree α, Tree.expand n (fun s => [s]) t = [t]
  | .node m a ts => by
    rw [Tree.expand, Forest.expand_self n ts]
    split <;> rfl

theorem Forest.expand_self (n : Nat) : ∀ ts : Forest α, Forest.expand n (fun s => [s]) ts = ts
  | [] => Forest.expand_nil n _
  | t :: ts => by
    rw [Forest.expand, Tree.expand_self n t, Forest.expand_self n ts, List.singleton_append]

end

/-- A change that keeps the number of a subtree keeps the numbers of the roots. -/
theorem Forest.exists_root_of_mem_expand {n : Nat} {f : Tree α → Tree α}
    (hf : ∀ t, t.id = n → (f t).id = n) {ts : Forest α} {u : Tree α}
    (hu : u ∈ ts.expand n fun t => [f t]) : ∃ t ∈ ts, t.id = u.id := by
  induction ts with
  | nil =>
    rw [Forest.expand_nil] at hu
    exact absurd hu (by simp)
  | cons t ts ih =>
    rw [Forest.expand, List.mem_append] at hu
    rcases hu with hu | hu
    · obtain ⟨m, a, us⟩ := t
      rw [Tree.expand] at hu
      refine ⟨.node m a us, List.mem_cons_self, ?_⟩
      split at hu
      · next heq =>
        rw [List.mem_singleton.1 hu]
        exact heq.trans (hf (.node m a us) heq).symm
      · rw [List.mem_singleton.1 hu]
        rfl
    · obtain ⟨t', ht', hid⟩ := ih hu
      exact ⟨t', List.mem_cons_of_mem t ht', hid⟩

namespace Forest

variable {n : Nat} {ts : Forest α} {t : Tree α}

/-- A forest is the subtree of a number and what is left without it (`erase`). -/
theorem perm_of_find? (hd : ts.Distinct) (h : ts.find? n = some t) :
    ts.nodes ~ t.nodes ++ (ts.erase n).nodes := by
  have hall := nodes_expand (fun s => [s]) hd h
  rwa [expand_self, nodes_singleton] at hall

theorem Distinct.of_perm {us : Forest α} (hd : ts.Distinct) (h : us.nodes ~ ts.nodes) :
    us.Distinct :=
  (h.map Prod.fst).nodup_iff.2 hd

theorem ids_perm_of_find? (hd : ts.Distinct) (h : ts.find? n = some t) :
    ts.ids ~ t.ids ++ (ts.erase n).ids := by
  have hperm := (perm_of_find? hd h).map Prod.fst
  rwa [List.map_append] at hperm

theorem ids_subset_of_find? (hd : ts.Distinct) (h : ts.find? n = some t) : t.ids ⊆ ts.ids :=
  fun _ hi => (ids_perm_of_find? hd h).symm.subset (List.mem_append_left _ hi)

theorem erase_subset_of_find? (hd : ts.Distinct) (h : ts.find? n = some t) :
    (ts.erase n).ids ⊆ ts.ids :=
  fun _ hi => (ids_perm_of_find? hd h).symm.subset (List.mem_append_right _ hi)

theorem Distinct.found (hd : ts.Distinct) (h : ts.find? n = some t) : t.ids.Nodup :=
  (List.nodup_append.1 ((ids_perm_of_find? hd h).nodup_iff.1 hd)).1

theorem Distinct.erase (hd : ts.Distinct) (h : ts.find? n = some t) : (ts.erase n).Distinct :=
  (List.nodup_append.1 ((ids_perm_of_find? hd h).nodup_iff.1 hd)).2.1

/-- What is below a number no longer stands in the rest of the forest (`erase`). -/
theorem not_mem_erase (hd : ts.Distinct) (h : ts.find? n = some t) {i : Nat} (hi : i ∈ t.ids) :
    i ∉ (ts.erase n).ids :=
  fun hin => (List.nodup_append.1 ((ids_perm_of_find? hd h).nodup_iff.1 hd)).2.2 i hi i hin rfl

theorem mem_ids_erase (hd : ts.Distinct) (h : ts.find? n = some t) {i : Nat} (hi : i ∈ ts.ids)
    (hnot : i ∉ t.ids) : i ∈ (ts.erase n).ids :=
  (List.mem_append.1 ((ids_perm_of_find? hd h).subset hi)).resolve_left hnot

end Forest

/-! ## Moving a subtree -/

mutual

theorem Tree.mem_ids_of_parent? {n m : Nat} : ∀ {t : Tree α}, Tree.parent? n t = some m → n ∈ t.ids
  | .node k a ts, h => by
    rw [Tree.parent?] at h
    rw [Tree.ids_node]
    split at h
    · next hany =>
      obtain ⟨s, hs, hid⟩ := List.any_eq_true.1 hany
      have hn : s.id = n := by simpa using hid
      have hroot : n ∈ Forest.ids ts := by
        obtain ⟨before, after, rfl⟩ := List.append_of_mem hs
        obtain ⟨i, b, us⟩ := s
        have hi : i = n := hn
        simp [Forest.ids, Forest.nodes_append, Forest.nodes, Tree.nodes, hi]
      exact List.mem_cons_of_mem _ hroot
    · exact List.mem_cons_of_mem _ (Forest.mem_ids_of_parent? h)

/-- What stands below a node is there. -/
theorem Forest.mem_ids_of_parent? {n m : Nat} : ∀ {ts : Forest α}, Forest.parent? n ts = some m →
    n ∈ Forest.ids ts
  | [], h => by simp [Forest.parent?] at h
  | t :: ts, h => by
    rw [Forest.parent?] at h
    rw [Forest.ids_cons, List.mem_append]
    split at h
    · next hfound => exact Or.inl (Tree.mem_ids_of_parent? hfound)
    · exact Or.inr (Forest.mem_ids_of_parent? h)

end

namespace Forest

variable {ts : Forest α}

theorem movable?_eq_some {parent child : Nat} {t : Tree α}
    (h : ts.movable? parent child = some t) :
    parent ∈ ts.ids ∧ ts.find? child = some t ∧ parent ∉ t.ids := by
  unfold movable? at h
  split at h
  · next p c hp hc =>
    split at h
    · exact absurd h (by simp)
    · next hnot =>
      rw [← Option.some.inj h]
      exact ⟨mem_ids_of_find? hp, hc, by simpa using hnot⟩
  · exact absurd h (by simp)

/-- Adding a subtree to the row below a node (`append_child`) adds its nodes. -/
theorem nodes_update_append (hd : ts.Distinct) {parent : Nat} (hparent : parent ∈ ts.ids)
    (t : Tree α) :
    (ts.update parent (Tree.mapChildren (· ++ [t]))).nodes ~ t.nodes ++ ts.nodes := by
  obtain ⟨p, hp⟩ := exists_find? hparent
  have hbelow : (p.mapChildren (· ++ [t])).nodes ~ t.nodes ++ p.nodes := by
    obtain ⟨i, a, us⟩ := p
    rw [Tree.mapChildren, Tree.nodes, Tree.nodes, nodes_append, nodes_singleton]
    exact (perm_append_comm.cons (i, a)).trans perm_middle.symm
  have hnew := nodes_expand (fun s => [s.mapChildren (· ++ [t])]) hd hp
  rw [nodes_singleton] at hnew
  exact (hnew.trans (hbelow.append_right _)).trans
    (by rw [List.append_assoc]; exact (perm_of_find? hd hp).symm.append_left _)

theorem nodes_append_child (hd : ts.Distinct) (parent child : Nat) :
    (ts.append parent child).nodes ~ ts.nodes := by
  unfold append
  split
  · exact Perm.refl _
  · next t ht =>
    obtain ⟨hparent, hchild, hnot⟩ := movable?_eq_some ht
    exact (nodes_update_append (hd.erase hchild) (mem_ids_erase hd hchild hparent hnot) t).trans
      (perm_of_find? hd hchild).symm

theorem nodes_insertBefore (hd : ts.Distinct) (parent child reference : Nat) :
    (ts.insertBefore parent child reference).nodes ~ ts.nodes := by
  unfold insertBefore
  split
  · exact Perm.refl _
  · next t ht =>
    obtain ⟨hparent, hchild, hnot⟩ := movable?_eq_some ht
    have hrest := hd.erase hchild
    simp only
    split
    · next hbelow =>
      obtain ⟨r, hr⟩ := exists_find? (mem_ids_of_parent? hbelow)
      have hnew := nodes_expand (fun s => [t, s]) hrest hr
      refine (hnew.trans ?_).trans (perm_of_find? hd hchild).symm
      rw [nodes, nodes_singleton, List.append_assoc]
      exact (perm_of_find? hrest hr).symm.append_left _
    · exact (nodes_update_append hrest (mem_ids_erase hd hchild hparent hnot) t).trans
        (perm_of_find? hd hchild).symm

theorem nodes_detach (hd : ts.Distinct) (n : Nat) : (ts.detach n).nodes ~ ts.nodes := by
  unfold detach
  split
  · next t _ ht =>
    rw [nodes_append, nodes_singleton]
    exact perm_append_comm.trans (perm_of_find? hd ht).symm
  · exact Perm.refl _

theorem nodes_remove (hd : ts.Distinct) (parent child : Nat) :
    (ts.remove parent child).nodes ~ ts.nodes := by
  unfold remove
  split
  · exact nodes_detach hd child
  · exact Perm.refl _

end Forest

end ViewBinding
