import ViewBinding.Proofs.Tree.Links
import ViewBinding.Proofs.Tree.Rows

/-!
# Changes of a forest, link by link

A forest has the links of its nodes in its shape.  Each change of a forest is the change of the
stored links step by step: the same row loses the node, the same row gets it, at the same place.

* `Links.of_detach`, `Links.of_remove`, `Links.of_append`, `Links.of_insertBefore` — the links of a
  changed forest.
* `Forest.row_replaced`, `Forest.row_revalued` — where the nodes below one are replaced.
-/

namespace ViewBinding

open List

variable {α : Type} {ts : Forest α}

/-- The links that a forest has in its shape: the `parent?` and the `row` of each node. -/
def Links.of (ts : Forest α) : Links where
  parent n := ts.parent? n
  children n := ts.row n

theorem Links.consistent_of (hd : ts.Distinct) : (Links.of ts).Consistent where
  linked _ _ := Forest.mem_row_iff hd
  nodup := Forest.nodup_row hd

namespace Forest

/-! ## Rows here and there -/

theorem row_of_not_mem {n : Nat} (hn : n ∉ ts.ids) : ts.row n = [] :=
  row_of_none (find?_eq_none hn)

theorem mem_ids_of_mem_row {p c : Nat} (hc : c ∈ ts.row p) : p ∈ ts.ids := by
  by_contra hnot
  rw [row_of_not_mem hnot] at hc
  exact absurd hc (by simp)

theorem row_append_of_mem (us : Forest α) {n : Nat} (hn : n ∈ ts.ids) :
    row n (ts ++ us) = ts.row n := by
  obtain ⟨t, ht⟩ := exists_find? hn
  have hboth : find? n (ts ++ us) = some t := by rw [find?_append, ht, Option.some_or]
  rw [row_of_find? hboth, row_of_find? ht]

theorem row_append_of_not_mem (us : Forest α) {n : Nat} (hn : n ∉ ts.ids) :
    row n (ts ++ us) = us.row n := by
  have hboth : find? n (ts ++ us) = us.find? n := by
    rw [find?_append, find?_eq_none hn, Option.none_or]
  simp only [row, children, hboth]

theorem row_append_of_not_mem_right (us : Forest α) {n : Nat} (hn : n ∉ us.ids) :
    row n (ts ++ us) = ts.row n := by
  by_cases hin : n ∈ ts.ids
  · exact row_append_of_mem us hin
  · rw [row_append_of_not_mem us hin, row_of_not_mem hn, row_of_not_mem hin]

theorem row_congr {us : Forest α} {n : Nat} (h : ts.find? n = us.find? n) :
    ts.row n = us.row n := by
  simp only [row, children, h]

/-- The row of a node in a subtree is its row in the forest (`row`). -/
theorem row_below (hd : ts.Distinct) {n i : Nat} {t : Tree α} (h : ts.find? n = some t)
    (hi : i ∈ t.ids) : row i [t] = ts.row i := by
  refine row_congr ?_
  rw [find?_below hd h hi, find?_singleton]

/-- Nothing stands below itself (`descendants`). -/
theorem not_mem_descendants_self (hd : ts.Distinct) (n : Nat) : n ∉ ts.descendants n := by
  intro hn
  rw [descendants, children] at hn
  split at hn
  · next t ht =>
    have hnodup := hd.found ht
    have hid := find?_id ht
    obtain ⟨m, a, us⟩ := t
    rw [Tree.ids_node, List.nodup_cons] at hnodup
    have heq : m = n := hid
    exact hnodup.1 (heq.symm ▸ hn)
  · simp at hn

/-- The node above another one is not in its subtree. -/
theorem parent_not_mem (hd : ts.Distinct) {p c : Nat} {t : Tree α} (ht : ts.find? c = some t)
    (hc : c ∈ ts.row p) : p ∉ t.ids := by
  intro hp
  have hbelow := descendants_subset hd hc
  have hwhole : ts.descendants c = t.children.ids := by rw [descendants, children, ht]
  have hid := find?_id ht
  obtain ⟨m, a, us⟩ := t
  rw [Tree.ids_node, List.mem_cons] at hp
  have heq : m = c := hid
  rcases hp with hp | hp
  · rw [hp, heq] at hc
    exact not_mem_descendants_self hd c (row_subset_descendants c hc)
  · exact not_mem_descendants_self hd p (hbelow (hwhole ▸ hp))

/-! ## Rows after a change -/

theorem flatMap_ite_self (row : List Nat) (n : Nat) :
    (row.flatMap fun c => if c = n then [n] else [c]) = row := by
  have hone : (fun c => if c = n then [n] else [c]) = fun c => [c] := funext fun c => by
    split
    · next h => rw [h]
    · rfl
  rw [hone, List.flatMap_singleton']

/-- A change of one entry, in a row that does not have it. -/
theorem flatMap_ite_of_not_mem {n : Nat} {row new : List Nat} (hn : n ∉ row) :
    (row.flatMap fun c => if c = n then new else [c]) = row := by
  have hone : ∀ c ∈ row, (if c = n then new else [c]) = [c] := by
    intro c hc
    refine if_neg ?_
    rintro rfl
    exact hn hc
  rw [List.flatMap_congr hone, List.flatMap_singleton']

/-- The rows of a forest in which a subtree became a root, as in `detach`. -/
theorem row_uproot (hd : ts.Distinct) {c : Nat} {t : Tree α} (ht : ts.find? c = some t) (i : Nat) :
    row i (ts.erase c ++ [t]) = (ts.row i).erase c := by
  by_cases hi : i ∈ t.ids
  · have hnot : c ∉ ts.row i := fun hc => parent_not_mem hd ht hc hi
    rw [row_append_of_not_mem _ (not_mem_erase hd ht hi), row_below hd ht hi,
      List.erase_of_not_mem hnot]
  · have hleft : (ts.erase c).row i = (ts.row i).flatMap fun d => if d = c then [] else [d] := by
      refine row_expand hd (fun _ _ => rfl) fun s hs => ⟨?_, by simp⟩
      rwa [← Option.some.inj (ht.symm.trans hs)]
    rw [row_append_of_not_mem_right _ (by simpa using hi), hleft,
      (nodup_row hd i).erase_eq_filter]
    induction ts.row i with
    | nil => rfl
    | cons d row ih =>
      rw [List.flatMap_cons, ih, List.filter_cons]
      by_cases hdc : d = c
      · simp [hdc]
      · simp [hdc]

/-- The rows of a forest in which a tree was put at the end of a row, as in `append`. -/
theorem row_update_append (hd : ts.Distinct) {p : Nat} (hp : p ∈ ts.ids) {t : Tree α}
    (ht : ∀ i ∈ t.ids, i ∉ ts.ids) (i : Nat) :
    (ts.update p (Tree.mapChildren (· ++ [t]))).row i =
      if i = p then ts.row i ++ [t.id] else row i (ts ++ [t]) := by
  obtain ⟨s, hs⟩ := exists_find? hp
  have hid := find?_id hs
  obtain ⟨m, a, us⟩ := s
  have heq : m = p := hid
  subst heq
  have hinside : ∀ {i}, i ∉ (ts.erase m).ids →
      find? i (ts.update m (Tree.mapChildren (· ++ [t]))) =
        find? i [.node m a (us ++ [t])] := fun hi => find?_expand_of_mem hd hs hi
  split
  · next hi =>
    subst hi
    have hfound := hinside (not_mem_erase hd hs (i := i) (by simp))
    rw [find?, Tree.find?, if_pos rfl] at hfound
    rw [row_of_find? hfound, row_of_find? hs]
    exact List.map_append
  · next hi =>
    by_cases hbelow : i ∈ Forest.ids us
    · have hin : i ∈ (Tree.node m a us).ids := by simp [hbelow]
      have hfound := hinside (not_mem_erase hd hs hin)
      rw [row_append_of_mem _ (ids_subset_of_find? hd hs hin), ← row_below hd hs hin,
        row_congr hfound]
      refine row_congr ?_
      obtain ⟨u, hu⟩ := exists_find? hbelow
      simp [find?, Tree.find?, Ne.symm hi, find?_append, hu]
    · by_cases hnew : i ∈ t.ids
      · have hnot := ht i hnew
        have hfound := hinside fun hin => hnot (erase_subset_of_find? hd hs hin)
        rw [row_append_of_not_mem _ hnot, row_congr hfound]
        refine row_congr ?_
        rw [find?_singleton, Tree.find?_of_ne hi, find?_append, find?_eq_none hbelow, Option.none_or]
      · have hout : i ∉ (Tree.node m a us).ids := by simp [hi, hbelow]
        have hrow := row_expand (f := fun s => [Tree.mapChildren (· ++ [t]) s]) hd
          (fun s hs => by obtain ⟨k, b, vs⟩ := s; exact congrArg (fun k => [k]) hs)
          fun s hs' => by
            rw [← Option.some.inj (hs.symm.trans hs')]
            exact ⟨hout, by simpa [Tree.mapChildren, Forest.ids_append] using ⟨hi, hbelow, hnew⟩⟩
        rw [flatMap_ite_self] at hrow
        rw [row_append_of_not_mem_right _ (by simpa using hnew)]
        exact hrow

/-- The rows of a forest in which a tree was put right in front of a node, as in `insertBefore`. -/
theorem row_expand_pair (hd : ts.Distinct) {p r : Nat} (hr : ts.parent? r = some p) {t : Tree α}
    (ht : ∀ i ∈ t.ids, i ∉ ts.ids) (i : Nat) :
    (ts.expand r fun s => [t, s]).row i =
      if i = p then (ts.row i).flatMap fun c => if c = r then [t.id, r] else [c]
      else row i (ts ++ [t]) := by
  obtain ⟨s, hs⟩ := exists_find? (mem_ids_of_parent? hr)
  have hrow : r ∈ ts.row p := (mem_row_iff hd).2 hr
  have hinside : ∀ {i}, i ∉ (ts.erase r).ids →
      find? i (ts.expand r fun s => [t, s]) = find? i [t, s] := fun hi =>
    find?_expand_of_mem hd hs hi
  have hpair : find? i [t, s] = (Tree.find? i t).or (Tree.find? i s) := by
    rw [← find?_singleton i t, ← find?_singleton i s, ← find?_append]
    rfl
  by_cases hnew : i ∈ t.ids
  · have hnot := ht i hnew
    have hne : i ≠ p := fun heq => hnot (heq ▸ mem_ids_of_mem_row hrow)
    have hfound := hinside fun hin => hnot (erase_subset_of_find? hd hs hin)
    rw [if_neg hne, row_append_of_not_mem _ hnot]
    refine row_congr (hfound.trans ?_)
    obtain ⟨u, hu⟩ := Tree.exists_find? hnew
    rw [hpair, find?, hu, Option.some_or]
  by_cases hbelow : i ∈ s.ids
  · have hne : i ≠ p := fun heq => parent_not_mem hd hs hrow (heq ▸ hbelow)
    have hfound := hinside (not_mem_erase hd hs hbelow)
    rw [if_neg hne, row_append_of_mem _ (ids_subset_of_find? hd hs hbelow)]
    refine row_congr (hfound.trans ?_)
    rw [hpair, Tree.find?_eq_none hnew, Option.none_or, find?_below hd hs hbelow]
  · have houter : (ts.expand r fun s => [t, s]).row i =
        (ts.row i).flatMap fun c => if c = r then [t.id, r] else [c] := by
      refine row_expand hd (fun s hs => by rw [← hs]; rfl) fun u hu => ?_
      rw [← Option.some.inj (hs.symm.trans hu)]
      exact ⟨hbelow, by simp [hnew, hbelow]⟩
    split
    · exact houter
    · next hne =>
      have hnot : r ∉ ts.row i := fun hin =>
        hne (Option.some.inj (((mem_row_iff hd).1 hin).symm.trans hr))
      rw [houter, flatMap_ite_of_not_mem hnot, row_append_of_not_mem_right _ (by simpa using hnew)]

/-- The rows of a forest in which new nodes stand in the place of the row below a node, and the former row
as roots, as in `World.setText`. -/
theorem row_replaced (hd : ts.Distinct) {n : Nat} {a b : α} {us new : Forest α}
    (hs : ts.find? n = some (.node n a us)) (hleaf : ∀ i ∈ new.ids, i ∉ ts.ids ∧ new.row i = [])
    (i : Nat) :
    row i ((ts.expand n fun _ => [.node n b new]) ++ us) =
      if i = n then new.rootIds else ts.row i := by
  have hinside : ∀ {i}, i ∉ (ts.erase n).ids →
      find? i (ts.expand n fun _ => [.node n b new]) = find? i [.node n b new] := fun hi =>
    find?_expand_of_mem hd hs hi
  have hfresh : ∀ {i}, i ∈ new.ids → i ∉ (ts.erase n).ids := fun hi hin =>
    (hleaf _ hi).1 (erase_subset_of_find? hd hs hin)
  have hnodup := hd.found hs
  rw [Tree.ids_node, List.nodup_cons] at hnodup
  have hfound : find? n (ts.expand n fun _ => [.node n b new]) = some (.node n b new) :=
    find?_expand_self (v := .node n b new) rfl hs
  split
  · next hi =>
    rw [hi, row_append_of_mem _ (mem_ids_of_find? hfound), row_of_find? hfound]
    rfl
  next hi =>
  by_cases hbelow : i ∈ Forest.ids us
  · -- in the former row
    have hin : i ∈ (Tree.node n a us).ids := by simp [hbelow]
    have hnew : i ∉ new.ids := fun hin' => (hleaf i hin').1 (ids_subset_of_find? hd hs hin)
    have hgone : find? i (ts.expand n fun _ => [.node n b new]) = none := by
      rw [hinside (not_mem_erase hd hs hin)]
      exact find?_eq_none (by simp [hi, hnew])
    refine row_congr ?_
    rw [find?_append, hgone, Option.none_or, find?_below hd hs hin, Tree.find?_of_ne hi]
  · rw [row_append_of_not_mem_right _ hbelow]
    by_cases hnew : i ∈ new.ids
    · have hin := hinside (hfresh hnew)
      rw [row_of_not_mem (hleaf i hnew).1, ← (hleaf i hnew).2]
      refine row_congr (hin.trans ?_)
      rw [find?_singleton, Tree.find?_of_ne hi]
    · have hrow := row_expand (f := fun _ => [.node n b new]) (i := i) hd (fun _ _ => rfl)
        fun s hs' => by
          rw [← Option.some.inj (hs.symm.trans hs')]
          exact ⟨by simp [hi, hbelow], by simp [hi, hnew]⟩
      exact hrow.trans (flatMap_ite_self _ n)

/-- The rows of a forest in which the value of a node changed (`updateNode`). -/
theorem row_revalued (hd : ts.Distinct) {n : Nat} {a b : α} {us : Forest α}
    (hs : ts.find? n = some (.node n a us)) (i : Nat) :
    (ts.expand n fun _ => [.node n b us]).row i = ts.row i := by
  by_cases hin : i ∈ (Tree.node n a us).ids
  · have hfound := find?_expand_of_mem (f := fun _ => [.node n b us]) hd hs
      (not_mem_erase hd hs hin)
    rw [← row_below hd hs hin, row_congr hfound]
    simp only [row, children, find?, Tree.find?]
    by_cases hi : n = i
    · simp [hi, Tree.children]
    · simp [hi]
  · have hrow := row_expand (f := fun _ => [.node n b us]) (i := i) hd (fun _ _ => rfl)
      fun s hs' => by
        rw [← Option.some.inj (hs.symm.trans hs')]
        exact ⟨hin, by simpa using hin⟩
    exact hrow.trans (flatMap_ite_self _ n)

end Forest

/-! ## The links of a changed forest -/

namespace Links

theorem children_of (n : Nat) : (Links.of ts).children n = ts.row n := rfl

theorem of_detach (hd : ts.Distinct) (n : Nat) : Links.of (ts.detach n) = (Links.of ts).detach n := by
  refine (consistent_of (hd.of_perm (Forest.nodes_detach hd n))).ext
    ((consistent_of hd).detach n) fun q => ?_
  rw [(consistent_of hd).children_detach, children_of, children_of, Forest.detach]
  split
  · next p t _ ht => exact Forest.row_uproot hd ht q
  · next hnone =>
    -- a root is in no row
    rw [List.erase_of_not_mem]
    intro hq
    have hparent := (Forest.mem_row_iff hd).1 hq
    obtain ⟨t, ht⟩ := Forest.exists_find? (Forest.mem_ids_of_parent? hparent)
    exact hnone q t hparent ht

theorem of_remove (hd : ts.Distinct) (p c : Nat) :
    Links.of (ts.remove p c) = (Links.of ts).remove p c := by
  rw [Forest.remove, Links.remove, children_of]
  by_cases hchild : ts.parent? c = some p
  · have hisChild : ts.isChild p c = true := by simp [Forest.isChild, hchild]
    have hdetach : (Links.of ts).detach c = (Links.of ts).remove p c := by
      have hparent : (Links.of ts).parent c = some p := hchild
      rw [Links.detach, hparent]
    have hmem := (Forest.mem_row_iff hd).2 hchild
    rw [if_pos hisChild, if_pos hmem, of_detach hd, hdetach, Links.remove, children_of,
      if_pos hmem]
  · have hisChild : ¬ ts.isChild p c = true := by simpa [Forest.isChild] using hchild
    rw [if_neg hisChild, if_neg fun hmem => hchild ((Forest.mem_row_iff hd).1 hmem)]

/-- A subtree that can be put below a node (`movable?`), and what is left without it. -/
theorem row_moved (hd : ts.Distinct) {p c : Nat} {t : Tree α} (ht : ts.movable? p c = some t) :
    p ∈ (ts.erase c).ids ∧ t.id = c ∧ (∀ i ∈ t.ids, i ∉ (ts.erase c).ids) ∧
      (ts.erase c).row p = (ts.row p).erase c := by
  obtain ⟨hp, hc, hnot⟩ := Forest.movable?_eq_some ht
  have hin := Forest.mem_ids_erase hd hc hp hnot
  refine ⟨hin, Forest.find?_id hc, fun i hi => Forest.not_mem_erase hd hc hi, ?_⟩
  rw [← Forest.row_uproot hd hc, Forest.row_append_of_mem _ hin]

theorem of_append (hd : ts.Distinct) {p c : Nat} {t : Tree α} (ht : ts.movable? p c = some t) :
    Links.of (ts.append p c) = (Links.of ts).append p c := by
  refine (consistent_of (hd.of_perm (Forest.nodes_append_child hd p c))).ext
    ((consistent_of hd).append p c) fun q => ?_
  obtain ⟨hp, hid, hout, hrow⟩ := row_moved hd ht
  have hc := (Forest.movable?_eq_some ht).2.1
  have hchanged : ts.append p c = (ts.erase c).update p (Tree.mapChildren (· ++ [t])) := by
    rw [Forest.append, ht]
  rw [(consistent_of hd).children_append, children_of, children_of, hchanged,
    Forest.row_update_append (hd.erase hc) hp hout, Forest.row_uproot hd hc]
  split
  · next hq => rw [hq, hrow, hid]
  · rfl

theorem putBefore_eq_flatMap (c r : Nat) : ∀ {row : List Nat}, row.Nodup → r ∈ row →
    putBefore c r row = row.flatMap fun d => if d = r then [c, r] else [d]
  | [], _, hr => by simp at hr
  | d :: row, hd, hr => by
    rw [List.nodup_cons] at hd
    rw [List.flatMap_cons, putBefore, List.idxOf?_cons]
    by_cases heq : d = r
    · subst heq
      have hsame : (row.flatMap fun e => if e = d then [c, d] else [e]) = row :=
        Forest.flatMap_ite_of_not_mem hd.1
      simp [hsame]
    · have hin := (List.mem_cons.1 hr).resolve_left (Ne.symm heq)
      have htail := putBefore_eq_flatMap c r hd.2 hin
      rw [putBefore] at htail
      rw [if_neg heq, ← htail]
      simp only [beq_iff_eq, heq, if_false]
      cases hfound : row.idxOf? r with
      | some i => simp
      | none => simp [List.idxOf?_eq_none_iff.1 hfound] at hin

theorem putBefore_of_not_mem (c r : Nat) {row : List Nat} (hr : r ∉ row) :
    putBefore c r row = row ++ [c] := by
  rw [putBefore, List.idxOf?_eq_none_iff.2 hr]

theorem of_insertBefore (hd : ts.Distinct) {p c : Nat} {t : Tree α}
    (ht : ts.movable? p c = some t) (r : Nat) :
    Links.of (ts.insertBefore p c r) = (Links.of ts).insertBefore p c r := by
  refine (consistent_of (hd.of_perm (Forest.nodes_insertBefore hd p c r))).ext
    ((consistent_of hd).insertBefore p c r) fun q => ?_
  obtain ⟨hp, hid, hout, hrow⟩ := row_moved hd ht
  have hc := (Forest.movable?_eq_some ht).2.1
  have hrest := hd.erase hc
  rw [(consistent_of hd).children_insertBefore, children_of, children_of, Forest.insertBefore, ht]
  dsimp only
  by_cases hbelow : (ts.erase c).parent? r = some p
  · have hin := (Forest.mem_row_iff hrest).2 hbelow
    rw [if_pos hbelow, Forest.row_expand_pair hrest hbelow hout, Forest.row_uproot hd hc]
    split
    · next hq => rw [hq, hid, ← putBefore_eq_flatMap c r (Forest.nodup_row hrest p) hin, hrow]
    · rfl
  · have hnot := fun hin => hbelow ((Forest.mem_row_iff hrest).1 hin)
    rw [if_neg hbelow, Forest.row_update_append hrest hp hout, Forest.row_uproot hd hc]
    split
    · next hq => rw [hq, hid, ← hrow, putBefore_of_not_mem c r hnot]
    · rfl

end Links

end ViewBinding
