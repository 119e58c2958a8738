import ViewBinding.Proofs.Compile.Freezing
import ViewBinding.Proofs.Tree.Relinking
import ViewBinding.Proofs.Tree.Replacing

/-!
# Markup in the place of a node

A node that is replaced by markup leaves its row, and a new view takes its place there.  What was
below the node goes with it, and nothing binds it any more.

* `Forest.row_spliced`, `Forest.find?_spliced` — the rows and the subtrees of a forest in which one
  subtree made room for another and became a root.
* `Forest.remove_insertBefore` — this is what two edits come to, between which both stand in the row.
* `World.Spliced` — what a world comes to, by these edits and in every part of it.
* `World.markupReplace_splices` — the strategy does that to a node that has a parent, and nothing to
  a root.
-/

namespace ViewBinding

open Json (Value)
open List

/-! ## One subtree for another -/

namespace Forest

variable {α : Type} {ts : Forest α} {n i : Nat} {t v r : Tree α}

/-- A root of a forest stands below no node. -/
theorem parent?_of_root (hd : ts.Distinct) {u : Tree α} (hu : u ∈ ts) : ts.parent? u.id = none := by
  cases hparent : ts.parent? u.id with
  | none => rfl
  | some p =>
    have hbelow : u.id ∈ (Forest.edges ts).map Prod.snd :=
      List.mem_map.2 ⟨(p, u.id), edge_of_parent? hparent, rfl⟩
    have hroot : u.id ∈ ts.rootIds := List.mem_map_of_mem hu
    have hdisjoint := (List.nodup_append.1 ((ids_perm_edges ts).nodup_iff.1 hd)).2.2
    exact absurd rfl (hdisjoint _ hroot _ hbelow)

section

variable (hd : ts.Distinct) (ht : ts.find? n = some t)

include hd ht

theorem ids_spliced (v r : Tree α) :
    Forest.ids (ts.expand n (fun _ => [v]) ++ [r]) ~ v.ids ++ (ts.erase n).ids ++ r.ids := by
  have hnodes := (nodes_expand (fun _ => [v]) hd ht).map Prod.fst
  rw [nodes_singleton, List.map_append] at hnodes
  rw [ids_append, ids_cons, ids_nil, List.append_nil]
  exact hnodes.append_right _

/-- Numbers still stand for one place if the new subtree brings new ones in and the old one keeps
its own. -/
theorem distinct_spliced (hv : v.ids.Nodup) (hnew : ∀ i ∈ v.ids, i ∉ ts.ids) (hr : r.ids = t.ids) :
    Forest.Distinct (ts.expand n (fun _ => [v]) ++ [r]) := by
  refine (ids_spliced hd ht v r).nodup_iff.2 ?_
  rw [hr, List.append_assoc, List.nodup_append]
  have hold : ts.ids ~ (ts.erase n).ids ++ t.ids := (ids_perm_of_find? hd ht).trans perm_append_comm
  exact ⟨hv, hold.nodup_iff.1 hd, fun i hi j hj heq => hnew i hi (hold.symm.subset (heq ▸ hj))⟩

/-- What is found in the new subtree. -/
theorem find?_spliced_new (hnew : ∀ i ∈ v.ids, i ∉ ts.ids) (hi : i ∈ v.ids) (r : Tree α) :
    Forest.find? i (ts.expand n (fun _ => [v]) ++ [r]) = Tree.find? i v := by
  have hrest : i ∉ (ts.erase n).ids := fun hin => hnew i hi (erase_subset_of_find? hd ht hin)
  obtain ⟨u, hu⟩ := Tree.exists_find? hi
  rw [find?_append, find?_expand_of_mem hd ht hrest, find?_singleton, hu, Option.some_or]

/-- What is found in the subtree that became a root. -/
theorem find?_spliced_old (hnew : ∀ i ∈ v.ids, i ∉ ts.ids) (hi : i ∈ t.ids) (r : Tree α) :
    Forest.find? i (ts.expand n (fun _ => [v]) ++ [r]) = Tree.find? i r := by
  have hnone : i ∉ v.ids := fun hin => hnew i hin (ids_subset_of_find? hd ht hi)
  rw [find?_append, find?_expand_of_mem hd ht (not_mem_erase hd ht hi), find?_singleton,
    Tree.find?_eq_none hnone, Option.none_or, find?_singleton]

/-- What is found elsewhere is as before, but for the new subtree below it. -/
theorem find?_spliced (hr : r.ids = t.ids) (hi : i ∉ t.ids) (hv : i ∉ v.ids) :
    Forest.find? i (ts.expand n (fun _ => [v]) ++ [r]) =
      (ts.find? i).map (Tree.mapChildren (Forest.expand n fun _ => [v])) := by
  have hout : ∀ s, ts.find? n = some s → i ∉ s.ids ∧ i ∉ Forest.ids [v] := by
    intro s hs
    rw [← Option.some.inj (ht.symm.trans hs)]
    exact ⟨hi, by simpa using hv⟩
  rw [find?_append, find?_expand_of_not_mem hd hout, find?_singleton, Tree.find?_eq_none (hr ▸ hi),
    Option.or_none]

/-- In the rows elsewhere the new subtree stands in the place of the old one. -/
theorem row_spliced (hr : r.ids = t.ids) (hi : i ∉ t.ids) (hv : i ∉ v.ids) :
    Forest.row i (ts.expand n (fun _ => [v]) ++ [r]) =
      (ts.row i).flatMap fun c => if c = n then [v.id] else [c] := by
  have hlast : i ∉ Forest.ids [r] := by simpa [hr] using hi
  rw [row_append_of_not_mem_right [r] hlast]
  refine row_expand hd (fun _ _ => rfl) fun s hs => ?_
  rw [← Option.some.inj (ht.symm.trans hs)]
  exact ⟨hi, by simpa using hv⟩

end

/-- A change of one entry, in a row that has it once. -/
theorem flatMap_ite_of_nodup {xs ys : List Nat} (hnodup : (xs ++ n :: ys).Nodup) (m : Nat) :
    ((xs ++ n :: ys).flatMap fun c => if c = n then [m] else [c]) = xs ++ m :: ys := by
  obtain ⟨-, hright, hdisjoint⟩ := List.nodup_append.1 hnodup
  have hxs : n ∉ xs := fun hn => hdisjoint n hn n List.mem_cons_self rfl
  rw [List.flatMap_append, List.flatMap_cons, flatMap_ite_of_not_mem hxs,
    flatMap_ite_of_not_mem (List.nodup_cons.1 hright).1, if_pos rfl, List.singleton_append]

end Forest

mutual

theorem Tree.expand_congr {α : Type} {n : Nat} {f g : Tree α → Forest α} : ∀ {t : Tree α},
    t.ids.Nodup → (∀ s, Tree.find? n t = some s → f s = g s) → Tree.expand n f t = Tree.expand n g t
  | .node m a ts, hd, h => by
    rw [Tree.ids_node, List.nodup_cons] at hd
    rw [Tree.expand, Tree.expand]
    split
    · next heq => exact h _ (by rw [Tree.find?, if_pos heq])
    · next hne =>
      rw [Forest.expand_congr hd.2 fun s hs => h s (by rw [Tree.find?, if_neg hne, hs])]

/-- Only what becomes of the subtree that is found matters to a change. -/
theorem Forest.expand_congr {α : Type} {n : Nat} {f g : Tree α → Forest α} : ∀ {ts : Forest α},
    ts.Distinct → (∀ s, ts.find? n = some s → f s = g s) → ts.expand n f = ts.expand n g
  | [], _, _ => by rw [Forest.expand, Forest.expand]
  | t :: ts, hd, h => by
    rw [Forest.Distinct, Forest.ids_cons, List.nodup_append] at hd
    obtain ⟨ht, hts, hdisjoint⟩ := hd
    have hhead := Tree.expand_congr (f := f) (g := g) ht fun s hs =>
      h s (by rw [Forest.find?, hs])
    have htail := Forest.expand_congr (f := f) (g := g) hts fun s hs => by
      have hnot : n ∉ t.ids := fun hin => hdisjoint n hin n (Forest.mem_ids_of_find? hs) rfl
      exact h s (by rw [Forest.find?, Tree.find?_eq_none hnot, hs])
    rw [Forest.expand, Forest.expand, hhead, htail]

end

mutual

theorem Tree.expand_comp {α : Type} (n : Nat) (f g : Tree α → Forest α) : ∀ t : Tree α,
    Forest.expand n g (Tree.expand n f t) = Tree.expand n (fun s => Forest.expand n g (f s)) t
  | .node m a ts => by
    rw [Tree.expand, Tree.expand]
    split
    · rfl
    · next hne =>
      rw [Forest.expand, Tree.expand, if_neg hne, Forest.expand_comp n f g ts, Forest.expand_nil,
        List.append_nil]

/-- A change of the subtree that another change put there. -/
theorem Forest.expand_comp {α : Type} (n : Nat) (f g : Tree α → Forest α) : ∀ ts : Forest α,
    Forest.expand n g (ts.expand n f) = ts.expand n fun s => Forest.expand n g (f s)
  | [] => by rw [Forest.expand, Forest.expand, Forest.expand]
  | t :: ts => by
    rw [Forest.expand, Forest.expand_append, Tree.expand_comp n f g t, Forest.expand_comp n f g ts,
      Forest.expand]

end

/-- **A splice is two edits**, `insert_before` and then `remove_child`. A new root is put right in front of
a node, so that for a moment both stand in the row, and then the node is taken out. -/
theorem Forest.remove_insertBefore {α : Type} {ts : Forest α} {n p : Nat} {t v : Tree α}
    (hd : ts.Distinct) (ht : ts.find? n = some t) (hp : ts.parent? n = some p)
    (hnew : ∀ i ∈ v.ids, i ∉ ts.ids) (hv : v.ids.Nodup) :
    Forest.remove p n (Forest.insertBefore p v.id n (ts ++ [v])) =
      ts.expand n (fun _ => [v]) ++ [t] := by
  have hself : v.id ∈ v.ids := Tree.mem_ids_of_find? v.find?_self
  have hrow : n ∈ ts.row p := (mem_row_iff hd).2 hp
  have hparent : p ∈ ts.ids := mem_ids_of_mem_row hrow
  have hn : n ∉ v.ids := fun hin => hnew n hin (mem_ids_of_find? ht)
  -- the first edit
  have hmovable : movable? p v.id (ts ++ [v]) = some v := by
    obtain ⟨u, hu⟩ := exists_find? hparent
    have hfound : Forest.find? v.id (ts ++ [v]) = some v := by
      rw [find?_append, find?_eq_none (hnew _ hself), Option.none_or, find?_singleton,
        Tree.find?_self]
    have hout : p ∉ v.ids := fun hin => hnew p hin hparent
    rw [movable?, find?_append, hu, Option.some_or, hfound]
    simp [hout]
  have herase : Forest.erase v.id (ts ++ [v]) = ts := by
    rw [erase, expand_append, expand_of_not_mem (hnew _ hself), expand_singleton, List.append_nil]
  have hinsert : insertBefore p v.id n (ts ++ [v]) = ts.expand n fun s => [v, s] := by
    simp only [insertBefore, hmovable, herase, hp, if_true]
  -- the moment in between
  have hboth : Forest.nodes (ts.expand n fun s => [v, s]) ~ v.nodes ++ ts.nodes := by
    have hnodes := nodes_expand (fun s => [v, s]) hd ht
    rw [nodes, nodes_singleton, List.append_assoc] at hnodes
    exact hnodes.trans ((perm_of_find? hd ht).symm.append_left _)
  have hdistinct : Forest.Distinct (ts.expand n fun s => [v, s]) := by
    have hids := hboth.map Prod.fst
    rw [List.map_append] at hids
    refine hids.nodup_iff.2 (List.nodup_append.2 ⟨hv, hd, fun i hi j hj heq => ?_⟩)
    exact hnew i hi (heq ▸ hj)
  have hchild : Forest.parent? n (ts.expand n fun s => [v, s]) = some p := by
    refine (mem_row_iff hdistinct).1 ?_
    rw [row_expand_pair hd hp hnew, if_pos rfl]
    exact List.mem_flatMap.2 ⟨n, hrow, by simp⟩
  have hfound : Forest.find? n (ts.expand n fun s => [v, s]) = some t := by
    have hid : t.id = n := find?_id ht
    have hfind : Tree.find? n t = some t := hid ▸ t.find?_self
    rw [find?_expand_of_mem hd ht (not_mem_erase hd ht (Tree.mem_ids_of_find? hfind)), find?,
      Tree.find?_eq_none hn, find?_singleton, hfind]
  -- the second edit
  have hleft : Forest.erase n (ts.expand n fun s => [v, s]) = ts.expand n fun _ => [v] := by
    rw [erase, expand_comp]
    refine expand_congr hd fun s hs => ?_
    have hroot : Forest.expand n (fun _ => []) [s] = [] := by
      rw [← find?_id hs, expand_singleton]
    rw [expand, Tree.expand_of_not_mem hn, hroot, List.append_nil]
  rw [hinsert, remove, isChild, hchild, if_pos (by simp), detach, hchild, hfound, hleft]

/-- All of what such a splice took out can be changed after that, as a third edit. -/
theorem Forest.update_remove_insertBefore {α : Type} {ts : Forest α} {n p : Nat} {t v : Tree α}
    (hd : ts.Distinct) (ht : ts.find? n = some t) (hp : ts.parent? n = some p)
    (hnew : ∀ i ∈ v.ids, i ∉ ts.ids) (hv : v.ids.Nodup) (f : Tree α → Tree α) :
    Forest.update n f (Forest.remove p n (Forest.insertBefore p v.id n (ts ++ [v]))) =
      ts.expand n (fun _ => [v]) ++ [f t] := by
  have hid : t.id = n := find?_id ht
  have hout : n ∉ Forest.ids (ts.expand n fun _ => [v]) := by
    have hdistinct := distinct_spliced hd ht hv hnew (rfl : t.ids = t.ids)
    rw [Distinct, ids_append, List.nodup_append] at hdistinct
    have hroot : n ∈ Forest.ids [t] := by
      rw [ids_cons, ids_nil, List.append_nil]
      exact hid ▸ Tree.mem_ids_of_find? t.find?_self
    exact fun hin => hdistinct.2.2 n hin n hroot rfl
  have hroot : Forest.expand n (fun s => [f s]) [t] = [f t] := by
    rw [← hid, expand_singleton]
  rw [remove_insertBefore hd ht hp hnew hv, update, expand_append, expand_of_not_mem hout, hroot]

variable {κ : Type}

/-! ## What is injected -/

mutual

theorem View.toMarkup_ofMarkup (next : NodeId) : ∀ m : Markup,
    View.toMarkup (View.ofMarkup next m : View κ × NodeId).1 = m
  | .text payload => by simp [View.ofMarkup, View.toMarkup, Node.ofText]
  | .element tag attributes children => by
    rw [View.ofMarkup, View.toMarkup, View.toRow_ofRow (next + 1) children]

/-- A new view says what it was made from. -/
theorem View.toRow_ofRow (next : NodeId) : ∀ ms : List Markup,
    View.toRow (View.ofRow next ms : Forest (Node κ) × NodeId).1 = ms
  | [] => by rw [View.ofRow, View.toRow]
  | m :: ms => by
    rw [View.ofRow, View.toRow, View.toMarkup_ofMarkup next m, View.toRow_ofRow _ ms]

end

theorem View.id_ofMarkup (next : NodeId) (m : Markup) :
    (View.ofMarkup next m : View κ × NodeId).1.id = next := by
  cases m <;> rfl

/-- Whether a piece of markup is what a directive injects (`create_markup_node`), and these are the
findings: the wrapper over all that its value shows, or the single node, or the text itself if it is no
single node. -/
def Strategy.Injects (cx : Setting κ) (binding : Binding) (m : Markup)
    (diagnostics : List Diagnostic) : Prop :=
  let shown := Value.display binding.value
  match cx.options.markupWrapper with
  | some wrapper =>
    m = .element wrapper.tag (wrapper.cls.toList.map (Attribute.mk "class"))
      (Html.parseFragment shown) ∧ diagnostics = []
  | none =>
    Html.parseFragment shown = [m] ∧ diagnostics = [] ∨
      (Html.parseFragment shown).length ≠ 1 ∧ m = .text shown ∧
        diagnostics = [.markupFallback binding.name binding.key]

/-- Without a wrapper, what is no single node is injected as text. -/
theorem Injected.ofText_none (markup : String) :
    (∃ node, Html.parseFragment markup = [node] ∧ ofText markup none = ⟨node, false⟩) ∨
      (Html.parseFragment markup).length ≠ 1 ∧ ofText markup none = ⟨.text markup, true⟩ := by
  simp only [ofText]
  split
  · next node hnode => exact Or.inl ⟨node, hnode, rfl⟩
  · next hnot =>
    refine Or.inr ⟨fun hone => ?_, rfl⟩
    obtain ⟨node, hnode⟩ := List.length_eq_one_iff.1 hone
    exact hnot node hnode

theorem Strategy.injects_ofText (cx : Setting κ) (binding : Binding) :
    Injects cx binding
      (Injected.ofText (Value.display binding.value) cx.options.markupWrapper).markup
      (if (Injected.ofText (Value.display binding.value) cx.options.markupWrapper).fallback then
        [.markupFallback binding.name binding.key] else []) := by
  rw [Injects]
  cases cx.options.markupWrapper with
  | some wrapper =>
    obtain ⟨tag, cls⟩ := wrapper
    cases cls <;> exact ⟨rfl, rfl⟩
  | none =>
    rcases Injected.ofText_none (Value.display binding.value) with ⟨node, hone, hnode⟩ | ⟨hnot, htext⟩
    · rw [hnode]
      exact Or.inl ⟨hone, rfl⟩
    · rw [htext]
      exact Or.inr ⟨hnot, rfl, rfl⟩

/-! ## What a world comes to -/

namespace World

/-- What a world comes to when the view of a piece of markup, numbered from `next` on, stands in the
place of a subtree `t` that was in the row `xs ++ [t] ++ ys` below `p`. -/
structure Spliced (w : World κ) (t : View κ) (p : NodeId) (xs ys : List NodeId) (m : Markup)
    (after : World κ) : Prop where
  /-- It takes three edits: the new view is put in front of the subtree (`insert_before`), the subtree is
  taken out (`remove_child`), and all of it is released (`release_subtree`). -/
  edits : after.forest = Forest.update t.id View.released (Forest.remove p t.id
    (Forest.insertBefore p w.next t.id (w.forest ++ [(View.ofMarkup w.next m).1])))
  /-- The new view stands where the subtree stood. -/
  row : after.forest.row p = xs ++ w.next :: ys
  /-- It says what it was made from; all its nodes are new, and nothing binds them. -/
  placed : ∃ view : View κ, after.forest.find? w.next = some view ∧ view.toMarkup = m ∧
    ∀ x ∈ view.nodes, x.1 ∉ w.forest.ids ∧ x.2.Unbound
  /-- The subtree stands below no node. -/
  root : after.forest.parent? t.id = none
  /-- It is all there but for what bound it. -/
  released : after.forest.find? t.id = some t.released
  /-- Nothing binds a node of it. -/
  unbound : ∀ i ∈ t.ids, ∃ n, after.forest.val? i = some n ∧ n.Unbound
  /-- Of the observers, just those are gone that its guards stood for. -/
  ended : ∀ (id : StoreId) (st : Store κ), w.stores[id]? = some st →
    ∃ st' : Store κ, after.stores[id]? = some st' ∧ st'.data = st.data ∧
      ∀ key, st'.observersOf key = remaining t.guards id key (st.observersOf key)
  /-- All other nodes are what they were, and so is each other row. -/
  others : ∀ i ∈ w.forest.ids, i ∉ t.ids →
    after.forest.val? i = w.forest.val? i ∧ (i ≠ p → after.forest.row i = w.forest.row i)

variable {w : World κ} {n p : NodeId} {t : View κ} {xs ys : List NodeId}

theorem spliced_settle (hd : w.forest.Distinct) (hold : ∀ i ∈ w.forest.ids, i < w.next)
    (ht : w.forest.find? n = some t) (hrow : w.forest.row p = xs ++ n :: ys) (m : Markup) {wiring : Wiring κ}
    (hstores : wiring.stores = w.stores.endGuards t.guards) (hremoved : wiring.removed = [t.released]) :
    w.Spliced t p xs ys m (w.settle n (View.ofMarkup w.next m).1 wiring) := by
  have hid := Forest.find?_id ht
  obtain ⟨view, hview⟩ : ∃ view : View κ, view = (View.ofMarkup w.next m).1 := ⟨_, rfl⟩
  have hviewId : view.id = w.next := by rw [hview, View.id_ofMarkup]
  have hviewNodup : view.ids.Nodup := by
    obtain ⟨count, hids, -⟩ := View.ids_ofMarkup (κ := κ) w.next m
    rw [hview, hids]
    exact List.nodup_range'
  have hnew : ∀ i ∈ view.ids, i ∉ w.forest.ids := by
    intro i hi hin
    obtain ⟨x, hx, rfl⟩ := List.mem_map.1 hi
    exact absurd (hold x.1 hin) (Nat.not_lt.2 (View.le_of_mem_ofMarkup w.next m x (hview ▸ hx)))
  have hreleased : (View.released t).ids = t.ids := View.ids_released t
  have hforest : (w.settle n (View.ofMarkup w.next m).1 wiring).forest =
      w.forest.expand n (fun _ => [view]) ++ [t.released] := by
    rw [settle, hremoved, hview]
  have hafter := Forest.distinct_spliced hd ht hviewNodup hnew hreleased
  have hfound : ∀ i ∈ t.ids, Forest.find? i (w.forest.expand n (fun _ => [view]) ++ [t.released]) =
      Tree.find? i t.released := fun i hi => Forest.find?_spliced_old hd ht hnew hi t.released
  have hself : t.id ∈ t.ids := Tree.mem_ids_of_find? t.find?_self
  have hlower : ∀ {i}, i ∈ w.forest.ids → i ∉ view.ids := fun hin hi => hnew _ hi hin
  have hmem : n ∈ w.forest.row p := by simp [hrow]
  constructor
  case edits =>
    have hparent : w.forest.parent? n = some p := (Forest.mem_row_iff hd).1 hmem
    rw [hforest, hid, ← hview, ← hviewId,
      Forest.update_remove_insertBefore hd ht hparent hnew hviewNodup View.released]
  case row =>
    have hnodup := hrow ▸ Forest.nodup_row hd p
    have hp : p ∉ t.ids := Forest.parent_not_mem hd ht hmem
    rw [hforest, Forest.row_spliced hd ht hreleased hp (hlower (Forest.mem_ids_of_mem_row hmem)), hrow,
      Forest.flatMap_ite_of_nodup hnodup, hviewId]
  case placed =>
    refine ⟨view, ?_, by rw [hview, View.toMarkup_ofMarkup], fun x hx => ⟨?_, ?_⟩⟩
    · have hin : w.next ∈ view.ids := hviewId ▸ Tree.mem_ids_of_find? view.find?_self
      rw [hforest, Forest.find?_spliced_new hd ht hnew hin, ← hviewId, Tree.find?_self]
    · exact hnew x.1 (List.mem_map_of_mem hx)
    · exact View.unbound_ofMarkup w.next m x (hview ▸ hx)
  case root =>
    rw [hforest, ← View.id_released t]
    exact Forest.parent?_of_root hafter (List.mem_append_right _ List.mem_cons_self)
  case released =>
    rw [hforest, hfound t.id hself, ← View.id_released t, Tree.find?_self]
  case unbound =>
    intro i hi
    obtain ⟨u, hu⟩ := Tree.exists_find? (hreleased ▸ hi)
    refine ⟨u.val, ?_, View.unbound_released t _ (Tree.mem_nodes_of_find? hu)⟩
    rw [hforest, Forest.val?, hfound i hi, hu, Option.map_some]
  case ended =>
    intro id st hst
    obtain ⟨st', hst', -, hobservers⟩ := observersOf_endGuards t.guards hst
    obtain ⟨same, hsame, -, hdata⟩ := (Stores.rewired_endGuards t.guards w.stores).kept id st hst
    obtain rfl : st' = same := Option.some.inj (hst'.symm.trans hsame)
    exact ⟨st', by rw [settle, hstores]; exact hst', hdata, hobservers⟩
  case others =>
    intro i hi hnot
    have hfresh := hlower hi
    refine ⟨?_, fun hne => ?_⟩
    · rw [hforest, Forest.val?, Forest.find?_spliced hd ht hreleased hnot hfresh, Forest.val?,
        Option.map_map]
      congr 1
      funext u
      cases u
      rfl
    · have hout : n ∉ w.forest.row i := fun hin =>
        hne (Forest.edge_unique hd ((Forest.mem_row_iff_edge hd).1 hin)
          ((Forest.mem_row_iff_edge hd).1 hmem))
      rw [hforest, Forest.row_spliced hd ht hreleased hnot hfresh, Forest.flatMap_ite_of_not_mem hout]

/-- **Markup replacement is an exact splice.**  Where numbers name nodes, a node that has a parent
makes room for the view of what its value injects: it is detached with everything below it and nothing
binds that any more, its row is the same but for the new view, and nothing else changes.  A root is
left alone. -/
theorem markupReplace_splices (hd : w.forest.Distinct) (hold : ∀ i ∈ w.forest.ids, i < w.next)
    (ht : w.forest.find? n = some t) (cx : Setting κ) (binding : Binding) :
    ∃ outcome diagnostics after,
      w.applyAt n (Strategy.markupReplace.apply cx binding) = (outcome, diagnostics, after) ∧
      (∀ p xs ys, w.forest.row p = xs ++ n :: ys → outcome = .detached ∧
        ∃ m, Strategy.Injects cx binding m diagnostics ∧ w.Spliced t p xs ys m after) ∧
      (w.forest.parent? n = none → outcome = .skipped ∧ diagnostics = [] ∧ after = w) := by
  cases hparent : w.forest.parent? n with
  | none =>
    have hsettle : w.settle n t w.wiring = w := by
      have hforest : w.forest.expand n (fun _ => [t]) = w.forest :=
        (Forest.expand_congr hd fun s hs => by rw [Option.some.inj (ht.symm.trans hs)]).trans
          (Forest.expand_self n _)
      rw [settle, hforest]
      simp [wiring]
    refine ⟨.skipped, [], w, ?_, fun p xs ys hrow => ?_, fun _ => ⟨rfl, rfl, rfl⟩⟩
    · simp only [applyAt, ht, hparent, Strategy.apply, Strategy.applyMarkupReplace, Option.isSome_none,
        Bool.not_false, if_true, hsettle]
      rfl
    · have hmem : n ∈ w.forest.row p := by simp [hrow]
      exact absurd (hparent.symm.trans ((Forest.mem_row_iff hd).1 hmem)) (by simp)
  | some parent =>
    have hinjects := Strategy.injects_ofText cx binding
    obtain ⟨injected, hinjected⟩ : ∃ injected, injected =
        Injected.ofText (Value.display binding.value) cx.options.markupWrapper := ⟨_, rfl⟩
    rw [← hinjected] at hinjects
    obtain ⟨wiring, happly, hstores, hremoved, hdiagnostics⟩ : ∃ wiring : Wiring κ,
        w.applyAt n (Strategy.markupReplace.apply cx binding) = (.detached, wiring.diagnostics,
            w.settle n (View.ofMarkup w.next injected.markup).1 wiring) ∧
          wiring.stores = w.stores.endGuards t.guards ∧ wiring.removed = [t.released] ∧
          wiring.diagnostics =
            if injected.fallback then [.markupFallback binding.name binding.key] else [] := by
      simp only [applyAt, ht, hparent, Strategy.apply, Strategy.applyMarkupReplace, Option.isSome_some,
        Bool.not_true, Bool.false_eq_true, if_false, ← hinjected]
      cases injected.fallback <;> exact ⟨_, rfl, rfl, rfl, rfl⟩
    refine ⟨_, _, _, happly, fun p xs ys hrow => ⟨rfl, injected.markup, ?_, ?_⟩,
      fun hnone => absurd hnone (by simp)⟩
    · rw [hdiagnostics]
      exact hinjects
    · exact spliced_settle hd hold ht hrow injected.markup hstores hremoved

end World

namespace Session

/-- What the first part of `twoParts` is replaced with: markup that is a single node. -/
def injection : Binding := ⟨some (.string "<em>Cyd</em>"), "bio", none, "v-html"⟩

/-- The first part is replaced: the new element stands in front of the other two, the part is a root,
and of the three observers of the key the one outside the part is left. -/
theorem injected_element_replaces_part :
    let w := ((start (.ofMembers [("name", .string "Ada")]) [("rename", rename)]).runs twoParts).world
    let cx : Setting Client := ⟨0, [], { markupWrapper := none }⟩
    ∃ after, w.applyAt 1 (Strategy.markupReplace.apply cx injection) = (.detached, [], after) ∧
      w.forest.row 0 = [1, 5, 6] ∧ after.forest.row 0 = [9, 5, 6] ∧ after.forest.parent? 1 = none ∧
      (w.stores[0]?.map (·.subscriberCount "name")) = some 3 ∧
      (after.stores[0]?.map (·.subscriberCount "name")) = some 1 := by
  intro w cx
  have haccounted : w.Accounted _ :=
    (Moves.accounted (moves_runs (start (.ofMembers [("name", .string "Ada")]) [("rename", rename)])
      twoParts)).world
  have hnext : w.next = 9 := by decide +kernel
  have hrow : w.forest.row 0 = [] ++ 1 :: [5, 6] := by decide +kernel
  have hcounts : ((w.forest.find? 1).bind fun t => w.stores[0]?.map fun st =>
      (t.id, st.subscriberCount "name",
        (remaining (View.guards t) 0 "name" (st.observersOf "name")).length)) = some (1, 3, 1) := by
    decide +kernel
  obtain ⟨t, ht, hcounts⟩ := Option.bind_eq_some_iff.1 hcounts
  obtain ⟨st, hst, hcounts⟩ := Option.map_eq_some_iff.1 hcounts
  obtain ⟨hid, hbefore, hleft⟩ : t.id = 1 ∧ st.subscriberCount "name" = 3 ∧
      (remaining (View.guards t) 0 "name" (st.observersOf "name")).length = 1 := by
    simpa using hcounts
  obtain ⟨outcome, diagnostics, after, happly, hparent, -⟩ := World.markupReplace_splices
    haccounted.distinct (fun i hi => haccounted.lt_next hi) ht cx injection
  obtain ⟨rfl, m, hinjects, hspliced⟩ := hparent 0 [] [5, 6] hrow
  have hfragment : (Html.parseFragment "<em>Cyd</em>").length = 1 := by decide +kernel
  have hnone : diagnostics = [] := by
    rcases hinjects with ⟨-, hnone⟩ | ⟨hnot, -⟩
    · exact hnone
    · exact absurd hfragment hnot
  obtain ⟨st', hst', -, hobservers⟩ := hspliced.ended 0 st hst
  refine ⟨after, hnone ▸ happly, hrow, ?_, hid ▸ hspliced.root, by rw [hst, Option.map_some, hbefore],
    ?_⟩
  · rw [hspliced.row, hnext]
    rfl
  · rw [hst', Option.map_some, Store.subscriberCount, hobservers, hleft]

end Session

end ViewBinding
