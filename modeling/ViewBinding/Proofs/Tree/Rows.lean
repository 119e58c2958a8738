import ViewBinding.Proofs.Tree.Rearranging
import Mathlib.Logic.Relation

/-!
# Rows of a forest

The rows in which the nodes of a forest stand, and what `expand` does to them.

* `Forest.mem_row_iff` — a node stands in the row below the node that is above it.
* `Forest.mem_descendants_iff` — below a node is what leads to it upward.
* `Forest.find?_expand_of_not_mem`, `Forest.find?_expand_of_mem` — what is found outside a change,
  and inside it.
* `Forest.row_expand` — the row of a node outside a change.
-/

namespace ViewBinding

open List

variable {α : Type}

/-- The numbers of the roots of a forest, in order. -/
def Forest.rootIds (ts : Forest α) : List Nat :=
  List.map Tree.id ts

/-- The numbers of the row below the given number, in order (`children`). -/
def Forest.row (n : Nat) (ts : Forest α) : List Nat :=
  (ts.children n).rootIds

/-- The numbers of everything below the given number, in document order (`descendants`). -/
def Forest.descendants (n : Nat) (ts : Forest α) : List Nat :=
  (ts.children n).ids

/-! ## Edges -/

mutual

/-- Every node below the root of a tree, with the one right above it. -/
def Tree.edges : Tree α → List (Nat × Nat)
  | .node n _ ts => ts.map (fun t => (n, t.id)) ++ Forest.edges ts

/-- Every node below a root of a forest, with the one right above it. -/
def Forest.edges : Forest α → List (Nat × Nat)
  | [] => []
  | t :: ts => Tree.edges t ++ Forest.edges ts

end

mutual

theorem Tree.ids_perm_edges : ∀ t : Tree α, t.ids ~ t.id :: t.edges.map Prod.snd
  | .node n a ts => by
    rw [Tree.ids_node, Tree.edges, Tree.id, List.map_append, List.map_map]
    exact (Forest.ids_perm_edges ts).cons n

/-- The numbers of a forest are those of its roots and those below one (`edges`). -/
theorem Forest.ids_perm_edges : ∀ ts : Forest α,
    ts.ids ~ ts.rootIds ++ (Forest.edges ts).map Prod.snd
  | [] => by simp [Forest.edges, Forest.rootIds]
  | t :: ts => by
    rw [Forest.ids_cons, Forest.edges, Forest.rootIds, List.map_cons, List.map_append,
      List.cons_append]
    refine ((Tree.ids_perm_edges t).append (Forest.ids_perm_edges ts)).trans ?_
    rw [List.cons_append]
    exact (perm_append_comm_assoc _ _ _).cons _

end

mutual

theorem Tree.mem_ids_of_edge {p c : Nat} : ∀ {t : Tree α}, (p, c) ∈ t.edges → p ∈ t.ids
  | .node n a ts, h => by
    rw [Tree.edges, List.mem_append] at h
    rw [Tree.ids_node, List.mem_cons]
    refine h.imp (fun h => ?_) Forest.mem_ids_of_edge
    obtain ⟨t, -, ht⟩ := List.mem_map.1 h
    exact (Prod.mk.inj ht).1.symm

theorem Forest.mem_ids_of_edge {p c : Nat} : ∀ {ts : Forest α}, (p, c) ∈ Forest.edges ts →
    p ∈ ts.ids
  | [], h => by simp [Forest.edges] at h
  | t :: ts, h => by
    rw [Forest.edges, List.mem_append] at h
    rw [Forest.ids_cons, List.mem_append]
    exact h.imp Tree.mem_ids_of_edge Forest.mem_ids_of_edge

end

mutual

theorem Tree.edge_of_parent? {p c : Nat} : ∀ {t : Tree α}, t.parent? c = some p → (p, c) ∈ t.edges
  | .node n a ts, h => by
    rw [Tree.parent?] at h
    rw [Tree.edges, List.mem_append]
    split at h
    · next hany =>
      obtain ⟨t, ht, hid⟩ := List.any_eq_true.1 hany
      refine Or.inl (List.mem_map.2 ⟨t, ht, ?_⟩)
      rw [Option.some.inj h, of_decide_eq_true hid]
    · exact Or.inr (Forest.edge_of_parent? h)

theorem Forest.edge_of_parent? {p c : Nat} : ∀ {ts : Forest α}, ts.parent? c = some p →
    (p, c) ∈ Forest.edges ts
  | [], h => by simp [Forest.parent?] at h
  | t :: ts, h => by
    rw [Forest.parent?] at h
    rw [Forest.edges, List.mem_append]
    split at h
    · next q hq => exact Or.inl (Tree.edge_of_parent? (hq.trans h))
    · exact Or.inr (Forest.edge_of_parent? h)

end

mutual

theorem Tree.exists_parent? {p c : Nat} : ∀ {t : Tree α}, (p, c) ∈ t.edges →
    ∃ q, t.parent? c = some q
  | .node n a ts, h => by
    rw [Tree.edges, List.mem_append] at h
    rw [Tree.parent?]
    split
    · exact ⟨n, rfl⟩
    · next hany =>
      refine Forest.exists_parent? (h.resolve_left fun h => hany ?_)
      obtain ⟨t, ht, hid⟩ := List.mem_map.1 h
      exact List.any_eq_true.2 ⟨t, ht, decide_eq_true (Prod.mk.inj hid).2⟩

theorem Forest.exists_parent? {p c : Nat} : ∀ {ts : Forest α}, (p, c) ∈ Forest.edges ts →
    ∃ q, ts.parent? c = some q
  | [], h => by simp [Forest.edges] at h
  | t :: ts, h => by
    rw [Forest.edges, List.mem_append] at h
    rw [Forest.parent?]
    split
    · next q _ => exact ⟨q, rfl⟩
    · next hnone =>
      refine Forest.exists_parent? (h.resolve_left fun h => ?_)
      obtain ⟨q, hq⟩ := Tree.exists_parent? h
      exact absurd (hnone.symm.trans hq) (by simp)

end

mutual

theorem Tree.edge_of_find? {p c : Nat} : ∀ {t s : Tree α}, Tree.find? p t = some s →
    c ∈ s.children.rootIds → (p, c) ∈ t.edges
  | .node n a ts, s, h, hc => by
    rw [Tree.find?] at h
    rw [Tree.edges, List.mem_append]
    split at h
    · next heq =>
      rw [← Option.some.inj h] at hc
      obtain ⟨t, ht, rfl⟩ := List.mem_map.1 hc
      exact Or.inl (List.mem_map.2 ⟨t, ht, by rw [heq]⟩)
    · exact Or.inr (Forest.edge_of_find? h hc)

theorem Forest.edge_of_find? {p c : Nat} : ∀ {ts : Forest α} {s : Tree α}, ts.find? p = some s →
    c ∈ s.children.rootIds → (p, c) ∈ Forest.edges ts
  | [], s, h, _ => by simp [Forest.find?] at h
  | t :: ts, s, h, hc => by
    rw [Forest.find?] at h
    rw [Forest.edges, List.mem_append]
    split at h
    · next u hu => exact Or.inl (Tree.edge_of_find? (hu.trans h) hc)
    · exact Or.inr (Forest.edge_of_find? h hc)

end

mutual

theorem Tree.find?_of_edge {p c : Nat} : ∀ {t : Tree α}, t.ids.Nodup → (p, c) ∈ t.edges →
    ∃ s, Tree.find? p t = some s ∧ c ∈ s.children.rootIds
  | .node n a ts, hd, h => by
    rw [Tree.ids_node, List.nodup_cons] at hd
    rw [Tree.edges, List.mem_append] at h
    rw [Tree.find?]
    rcases h with h | h
    · obtain ⟨t, ht, hid⟩ := List.mem_map.1 h
      obtain ⟨rfl, rfl⟩ := Prod.mk.inj hid
      exact ⟨.node n a ts, if_pos rfl, List.mem_map_of_mem ht⟩
    · have hne : n ≠ p := fun heq => hd.1 (heq ▸ Forest.mem_ids_of_edge h)
      rw [if_neg hne]
      exact Forest.find?_of_edge hd.2 h

theorem Forest.find?_of_edge {p c : Nat} : ∀ {ts : Forest α}, ts.Distinct →
    (p, c) ∈ Forest.edges ts → ∃ s, ts.find? p = some s ∧ c ∈ s.children.rootIds
  | [], _, h => by simp [Forest.edges] at h
  | t :: ts, hd, h => by
    rw [Forest.Distinct, Forest.ids_cons, List.nodup_append] at hd
    obtain ⟨ht, hts, hdisjoint⟩ := hd
    rw [Forest.edges, List.mem_append] at h
    rw [Forest.find?]
    rcases h with h | h
    · obtain ⟨s, hs, hc⟩ := Tree.find?_of_edge ht h
      exact ⟨s, by rw [hs], hc⟩
    · have hnot : p ∉ t.ids := fun hin => hdisjoint p hin p (Forest.mem_ids_of_edge h) rfl
      rw [Tree.find?_eq_none hnot]
      exact Forest.find?_of_edge hts h

end

namespace Forest

variable {ts : Forest α}

theorem row_of_find? {n : Nat} {t : Tree α} (h : ts.find? n = some t) :
    ts.row n = t.children.rootIds := by
  simp [row, children, h]

theorem row_of_none {n : Nat} (h : ts.find? n = none) : ts.row n = [] := by
  simp [row, children, h, rootIds]

theorem mem_row_iff_edge (hd : ts.Distinct) {p c : Nat} :
    c ∈ ts.row p ↔ (p, c) ∈ Forest.edges ts := by
  constructor
  · intro h
    cases hfound : ts.find? p with
    | none => simp [row_of_none hfound] at h
    | some t => exact edge_of_find? hfound (row_of_find? hfound ▸ h)
  · intro h
    obtain ⟨s, hs, hc⟩ := find?_of_edge hd h
    exact row_of_find? hs ▸ hc

/-- Only one node is right above another one in a forest that is `Distinct`. -/
theorem edge_unique (hd : ts.Distinct) {p q c : Nat} (hp : (p, c) ∈ Forest.edges ts)
    (hq : (q, c) ∈ Forest.edges ts) : p = q := by
  have hnodup : ((Forest.edges ts).map Prod.snd).Nodup :=
    (List.nodup_append.1 ((ids_perm_edges ts).nodup_iff.1 hd)).2.1
  exact (Prod.mk.inj (List.inj_on_of_nodup_map hnodup hp hq rfl)).1

/-- **A node stands in the row below the node that is above it, and in no other**: `children` and `parent`
say the same. -/
theorem mem_row_iff (hd : ts.Distinct) {p c : Nat} : c ∈ ts.row p ↔ ts.parent? c = some p := by
  rw [mem_row_iff_edge hd]
  constructor
  · intro h
    obtain ⟨q, hq⟩ := exists_parent? h
    rw [hq, edge_unique hd h (edge_of_parent? hq)]
  · exact edge_of_parent?

theorem rootIds_sublist : ∀ ts : Forest α, ts.rootIds <+ ts.ids
  | [] => by simp [rootIds]
  | .node n a us :: ts => by
    rw [rootIds, List.map_cons, ids_cons, Tree.ids_node, List.cons_append]
    exact ((rootIds_sublist ts).trans (sublist_append_right _ _)).cons_cons n

theorem nodup_row (hd : ts.Distinct) (n : Nat) : (ts.row n).Nodup := by
  cases hfound : ts.find? n with
  | none => simp [row_of_none hfound]
  | some t =>
    have ht := hd.found hfound
    obtain ⟨m, a, us⟩ := t
    rw [Tree.ids_node, List.nodup_cons] at ht
    exact row_of_find? hfound ▸ ht.2.sublist (rootIds_sublist us)

end Forest

/-! ## Changes -/

mutual

theorem Tree.find?_expand_of_not_mem {n i : Nat} {f : Tree α → Forest α} : ∀ {t : Tree α},
    t.ids.Nodup → (∀ s, Tree.find? n t = some s → i ∉ s.ids ∧ i ∉ (f s).ids) →
      Forest.find? i (Tree.expand n f t) =
        (Tree.find? i t).map (Tree.mapChildren (Forest.expand n f))
  | .node m a ts, hd, hout => by
    rw [Tree.ids_node, List.nodup_cons] at hd
    by_cases heq : m = n
    · obtain ⟨hself, hnew⟩ := hout (.node m a ts) (by rw [Tree.find?, if_pos heq])
      rw [Tree.expand, if_pos heq, Forest.find?_eq_none hnew, Tree.find?_eq_none hself,
        Option.map_none]
    · have hrow := Forest.find?_expand_of_not_mem (f := f) (n := n) (i := i) hd.2 fun s hs =>
        hout s (by rw [Tree.find?, if_neg heq, hs])
      rw [Tree.expand, if_neg heq, Forest.find?, Forest.find?, Tree.find?, Tree.find?, hrow]
      split
      · next h =>
        split at h
        · next hm => rw [if_pos hm, ← h]; rfl
        · next hm => rw [if_neg hm, h]
      · next h =>
        split at h
        · exact absurd h (by simp)
        · next hm => rw [if_neg hm, h]

/-- What is found outside a change is as before, but for the change below it (`expand`). -/
theorem Forest.find?_expand_of_not_mem {n i : Nat} {f : Tree α → Forest α} : ∀ {ts : Forest α},
    ts.Distinct → (∀ s, ts.find? n = some s → i ∉ s.ids ∧ i ∉ (f s).ids) →
      (ts.expand n f).find? i = (ts.find? i).map (Tree.mapChildren (Forest.expand n f))
  | [], _, _ => by rw [Forest.expand_nil, Forest.find?, Option.map_none]
  | t :: ts, hd, hout => by
    rw [Forest.Distinct, Forest.ids_cons, List.nodup_append] at hd
    obtain ⟨ht, hts, hdisjoint⟩ := hd
    have hhead := Tree.find?_expand_of_not_mem (f := f) (i := i) ht fun s hs =>
      hout s (by rw [Forest.find?, hs])
    have htail := Forest.find?_expand_of_not_mem (f := f) (i := i) hts fun s hs =>
      hout s (by
        have hnot : n ∉ t.ids := fun hin => hdisjoint n hin n (Forest.mem_ids_of_find? hs) rfl
        rw [Forest.find?, Tree.find?_eq_none hnot]
        exact hs)
    rw [Forest.expand, Forest.find?_append, hhead, htail, Forest.find?]
    cases Tree.find? i t with
    | some u => rfl
    | none => rfl

end

mutual

theorem Tree.find?_expand_of_mem {n i : Nat} {f : Tree α → Forest α} : ∀ {t s : Tree α},
    t.ids.Nodup → Tree.find? n t = some s → i ∉ (Tree.expand n (fun _ => []) t : Forest α).ids →
      Forest.find? i (Tree.expand n f t) = Forest.find? i (f s)
  | .node m a ts, s, hd, h, hi => by
    rw [Tree.ids_node, List.nodup_cons] at hd
    rw [Tree.find?] at h
    rw [Tree.expand] at hi ⊢
    by_cases heq : m = n
    · rw [if_pos heq] at h ⊢
      rw [Option.some.inj h]
    · rw [if_neg heq] at h hi ⊢
      rw [Forest.ids_cons, Forest.ids_nil, List.append_nil, Tree.ids_node, List.mem_cons,
        not_or] at hi
      rw [Forest.find?_singleton, Tree.find?_of_ne hi.1, Forest.find?_expand_of_mem hd.2 h hi.2]

/-- What is found inside a change is found in what `expand` put there. -/
theorem Forest.find?_expand_of_mem {n i : Nat} {f : Tree α → Forest α} : ∀ {ts : Forest α}
    {s : Tree α}, ts.Distinct → ts.find? n = some s → i ∉ Forest.ids (ts.erase n) →
      (ts.expand n f).find? i = Forest.find? i (f s)
  | [], s, _, h, _ => by simp [Forest.find?] at h
  | t :: ts, s, hd, h, hi => by
    rw [Forest.Distinct, Forest.ids_cons, List.nodup_append] at hd
    obtain ⟨ht, hts, hdisjoint⟩ := hd
    rw [Forest.erase, Forest.expand, Forest.ids_append, List.mem_append, not_or] at hi
    rw [Forest.find?] at h
    rw [Forest.expand, Forest.find?_append]
    cases hfound : Tree.find? n t with
    | some u =>
      rw [hfound] at h
      have hnot : n ∉ Forest.ids ts := fun hin =>
        hdisjoint n (Tree.mem_ids_of_find? hfound) n hin rfl
      rw [Forest.expand_of_not_mem hnot] at hi ⊢
      rw [Tree.find?_expand_of_mem ht (hfound.trans h) hi.1, Forest.find?_eq_none hi.2,
        Option.or_none]
    | none =>
      rw [hfound] at h
      have hnot : n ∉ t.ids := Tree.not_mem_of_find? hfound
      rw [Tree.expand_of_not_mem hnot] at hi ⊢
      rw [Forest.ids_cons, Forest.ids_nil, List.append_nil] at hi
      rw [Forest.find?_expand_of_mem hts h hi.2, Forest.find?, Tree.find?_eq_none hi.1,
        Forest.find?, Option.none_or]

end

namespace Forest

variable {ts : Forest α}

theorem rootIds_expand {n : Nat} {f : Tree α → Forest α} {new : List Nat}
    (hf : ∀ t : Tree α, t.id = n → (f t).rootIds = new) : ∀ us : Forest α,
      (us.expand n f).rootIds = us.rootIds.flatMap fun c => if c = n then new else [c]
  | [] => by rw [expand_nil]; rfl
  | .node m a vs :: us => by
    have hhead : rootIds (Tree.expand n f (.node m a vs)) = if m = n then new else [m] := by
      rw [Tree.expand]
      split
      · next heq => exact hf _ heq
      · rfl
    have happend : rootIds (Tree.expand n f (.node m a vs) ++ Forest.expand n f us) =
        rootIds (Tree.expand n f (.node m a vs)) ++ rootIds (Forest.expand n f us) :=
      List.map_append
    rw [expand, happend, hhead, rootIds_expand hf us]
    rfl

/-- The row of a node outside a change has what stands there now in the place of what did. -/
theorem row_expand (hd : ts.Distinct) {n i : Nat} {f : Tree α → Forest α} {new : List Nat}
    (hf : ∀ t : Tree α, t.id = n → (f t).rootIds = new)
    (hout : ∀ s, ts.find? n = some s → i ∉ s.ids ∧ i ∉ (f s).ids) :
    (ts.expand n f).row i = (ts.row i).flatMap fun c => if c = n then new else [c] := by
  have hfound := find?_expand_of_not_mem hd hout
  cases hi : ts.find? i with
  | none =>
    rw [hi, Option.map_none] at hfound
    rw [row_of_none hfound, row_of_none hi, List.flatMap_nil]
  | some t =>
    rw [hi, Option.map_some] at hfound
    obtain ⟨m, a, us⟩ := t
    rw [row_of_find? hfound, row_of_find? hi]
    exact rootIds_expand hf us

end Forest

/-! ## What is below a node -/

namespace Forest

variable {ts : Forest α}

/-- What is found below a node is what `Tree.find?` finds in the subtree of that node. -/
theorem find?_below (hd : ts.Distinct) {n i : Nat} {t : Tree α} (h : ts.find? n = some t)
    (hi : i ∈ t.ids) : ts.find? i = Tree.find? i t := by
  have hinside := find?_expand_of_mem (f := fun s => [s]) hd h (not_mem_erase hd h hi)
  rwa [expand_self, find?_singleton] at hinside

theorem nodup_descendants (hd : ts.Distinct) (n : Nat) : (ts.descendants n).Nodup := by
  rw [descendants, children]
  split
  · next t ht =>
    have hnodup := hd.found ht
    obtain ⟨m, a, us⟩ := t
    exact (List.nodup_cons.1 (Tree.ids_node m a us ▸ hnodup)).2
  · simp

theorem row_subset_descendants (n : Nat) : ts.row n ⊆ ts.descendants n :=
  (rootIds_sublist _).subset

theorem ids_eq_flatMap (us : Forest α) :
    us.ids = List.flatMap (fun u : Tree α => u.id :: u.children.ids) us := by
  induction us with
  | nil => simp
  | cons u us ih =>
    obtain ⟨m, a, vs⟩ := u
    rw [ids_cons, ih, List.flatMap_cons, Tree.ids_node]
    rfl

/-- A child is found under its number. -/
theorem find?_child (hd : ts.Distinct) {n : Nat} {t u : Tree α} (ht : ts.find? n = some t)
    (hu : u ∈ t.children) : ts.find? u.id = some u := by
  have hnodup := hd.found ht
  obtain ⟨m, a, us⟩ := t
  rw [Tree.ids_node, List.nodup_cons] at hnodup
  have hin : u.id ∈ Forest.ids us := (rootIds_sublist us).subset (List.mem_map_of_mem hu)
  have hne : m ≠ u.id := fun heq => hnodup.1 (heq ▸ hin)
  rw [find?_below hd ht (by rw [Tree.ids_node]; exact List.mem_cons_of_mem m hin), Tree.find?,
    if_neg hne]
  exact find?_root hnodup.2 hu

/-- Below a node are its children, each before what is below it: `descendants` is this recursion. -/
theorem descendants_eq (hd : ts.Distinct) (n : Nat) :
    ts.descendants n = (ts.row n).flatMap fun c => c :: ts.descendants c := by
  cases ht : ts.find? n with
  | none => simp [row_of_none ht, descendants, children, ht]
  | some t =>
    have hwhole : ts.descendants n = t.children.ids := by rw [descendants, children, ht]
    rw [hwhole, ids_eq_flatMap, row_of_find? ht, rootIds, List.flatMap_map]
    refine List.flatMap_congr fun u hu => ?_
    rw [descendants, children, find?_child hd ht hu]

/-- What is below a child is below its parent. -/
theorem descendants_subset (hd : ts.Distinct) {p c : Nat} (hc : c ∈ ts.row p) :
    ts.descendants c ⊆ ts.descendants p := by
  intro i hi
  rw [descendants_eq hd p, List.mem_flatMap]
  exact ⟨c, hc, List.mem_cons_of_mem c hi⟩

end Forest

mutual

theorem Tree.climbs {n : Nat} {up : Nat → Nat → Prop} : ∀ {t : Tree α},
    (∀ p c, (p, c) ∈ t.edges → up c p) → n ∈ t.ids → Relation.ReflTransGen up n t.id
  | .node m a ts, hup, hn => by
    rw [Tree.ids_node, List.mem_cons] at hn
    rcases hn with rfl | hn
    · exact Relation.ReflTransGen.refl
    · refine (Forest.climbs (fun p c h => ?_) (fun c hc => ?_) hn).to_reflTransGen
      · exact hup p c (by rw [Tree.edges, List.mem_append]; exact Or.inr h)
      · obtain ⟨t, ht, rfl⟩ := List.mem_map.1 hc
        exact hup m t.id (by
          rw [Tree.edges, List.mem_append]
          exact Or.inl (List.mem_map.2 ⟨t, ht, rfl⟩))

/-- Upward from a node of a forest leads the way to what is above its roots. -/
theorem Forest.climbs {n r : Nat} {up : Nat → Nat → Prop} : ∀ {ts : Forest α},
    (∀ p c, (p, c) ∈ Forest.edges ts → up c p) → (∀ c ∈ ts.rootIds, up c r) → n ∈ ts.ids →
      Relation.TransGen up n r
  | [], _, _, hn => by simp at hn
  | t :: ts, hup, hroots, hn => by
    rw [Forest.ids_cons, List.mem_append] at hn
    rcases hn with hn | hn
    · refine Relation.TransGen.tail' (Tree.climbs (fun p c h => ?_) hn)
        (hroots t.id List.mem_cons_self)
      exact hup p c (by rw [Forest.edges, List.mem_append]; exact Or.inl h)
    · refine Forest.climbs (fun p c h => ?_) (fun c hc => ?_) hn
      · exact hup p c (by rw [Forest.edges, List.mem_append]; exact Or.inr h)
      · exact hroots c (List.mem_cons_of_mem _ hc)

end

mutual

theorem Tree.edges_of_find? {n : Nat} : ∀ {t s : Tree α}, Tree.find? n t = some s →
    s.edges ⊆ t.edges
  | .node m a ts, s, h => by
    rw [Tree.find?] at h
    split at h
    · exact Option.some.inj h ▸ List.Subset.refl _
    · rw [Tree.edges]
      exact List.Subset.trans (Forest.edges_of_find? h) (List.subset_append_right _ _)

theorem Forest.edges_of_find? {n : Nat} : ∀ {ts : Forest α} {s : Tree α}, ts.find? n = some s →
    s.edges ⊆ Forest.edges ts
  | [], s, h => by simp [Forest.find?] at h
  | t :: ts, s, h => by
    rw [Forest.find?] at h
    rw [Forest.edges]
    split at h
    · next u hu =>
      exact List.Subset.trans (Tree.edges_of_find? (hu.trans h)) (List.subset_append_left _ _)
    · exact List.Subset.trans (Forest.edges_of_find? h) (List.subset_append_right _ _)

end

/-- **Below a node is what leads to it upward**, by one `parent?` or more. -/
theorem Forest.mem_descendants_iff {ts : Forest α} (hd : ts.Distinct) {n r : Nat} :
    n ∈ ts.descendants r ↔ Relation.TransGen (fun c p => ts.parent? c = some p) n r := by
  constructor
  · intro hn
    rw [descendants, children] at hn
    split at hn
    · next t ht =>
      have hrow := Forest.row_of_find? ht
      have hid := Forest.find?_id ht
      refine Forest.climbs (fun p c h => ?_) (fun c hc => ?_) hn
      · have hin : (p, c) ∈ Forest.edges ts := by
          refine Forest.edges_of_find? ht ?_
          obtain ⟨m, a, us⟩ := t
          rw [Tree.edges, List.mem_append]
          exact Or.inr h
        exact (Forest.mem_row_iff hd).1 ((Forest.mem_row_iff_edge hd).2 hin)
      · exact (Forest.mem_row_iff hd).1 (hrow ▸ hc)
    · simp at hn
  · intro h
    induction h with
    | single h => exact Forest.row_subset_descendants _ ((Forest.mem_row_iff hd).2 h)
    | tail _ h ih => exact Forest.descendants_subset hd ((Forest.mem_row_iff hd).2 h) ih

end ViewBinding
