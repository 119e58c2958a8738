import ViewBinding.Proofs.Compile.Tying
import ViewBinding.Proofs.Guards.Worlds
import ViewBinding.Proofs.Tree.Rows
import ViewBinding.Proofs.World.Sweeping

/-!
# What a change leaves alone

An observer that shows a new value, and nodes that die, change a world in one place each.  A view in
which nothing is bound stays as it is found, wherever it stands: below the place, in a row that makes
room for a new text, or apart from it.

* `World.find?_refresh_or`, `World.find?_refresh` — what is found under a number once a node shows a new
  value.
* `World.find?_sweep` — what is found under a number once nodes died.
* `World.unheard_refresh`, `World.nodes_sweepRow` — nobody hears more than before.
* `Stores.Within`, `World.within_refresh` — nobody observes more than before.
-/

namespace ViewBinding

open Json (Value)
open List

/-! ## One place of a forest -/

/-- Where something is put in the place of a subtree (`expand`) and something behind the forest, every
number is found as before, or as it is in the place, unless the place stands below it. -/
theorem Forest.find?_expand_append {α : Type} {ts out : Forest α} {n i : Nat} {t : Tree α}
    {f : Tree α → Forest α} {g : Tree α → Tree α} (hd : ts.Distinct) (ht : ts.find? n = some t)
    (hplace : Forest.find? i (f t ++ out) = (Tree.find? i t).map g)
    (habove : ∀ v, ts.find? i = some v → n ∉ v.ids) :
    Forest.find? i (ts.expand n f ++ out) = ts.find? i ∨
      Forest.find? i (ts.expand n f ++ out) = (ts.find? i).map g := by
  rw [Forest.find?_append] at hplace ⊢
  by_cases hi : i ∈ t.ids
  · refine Or.inr ?_
    rw [find?_expand_of_mem hd ht (not_mem_erase hd ht hi), hplace, find?_below hd ht hi]
  · refine Or.inl ?_
    rw [Tree.find?_eq_none hi, Option.map_none, Option.or_eq_none_iff] at hplace
    obtain ⟨hview, hout⟩ := hplace
    have houtside : ∀ s, ts.find? n = some s → i ∉ s.ids ∧ i ∉ (f s).ids := by
      intro s hs
      rw [← Option.some.inj (ht.symm.trans hs)]
      exact ⟨hi, not_mem_of_find? hview⟩
    rw [find?_expand_of_not_mem hd houtside, hout, Option.or_none]
    cases hfound : ts.find? i with
    | none => rfl
    | some v =>
      -- the place is not below what is found
      have hbelow := habove v hfound
      obtain ⟨m, a, us⟩ := v
      rw [Tree.ids_node, List.mem_cons, not_or] at hbelow
      rw [Option.map_some, Tree.mapChildren, expand_of_not_mem hbelow.2]

section

variable {α β : Type} (f : α → β)

mutual

theorem Tree.find?_map (n : Nat) : ∀ t : Tree α,
    Tree.find? n (Tree.map f t) = (Tree.find? n t).map (Tree.map f)
  | .node m a ts => by
    rw [Tree.map, Tree.find?, Tree.find?, Forest.find?_map n ts]
    split
    · rw [Option.map_some, Tree.map]
    · rfl

/-- What is found where every value was changed. -/
theorem Forest.find?_map (n : Nat) : ∀ ts : Forest α,
    Forest.find? n (Forest.map f ts) = (Forest.find? n ts).map (Tree.map f)
  | [] => by rw [Forest.map, Forest.find?, Forest.find?, Option.map_none]
  | t :: ts => by
    rw [Forest.map, Forest.find?, Forest.find?, Tree.find?_map n t, Forest.find?_map n ts]
    cases Tree.find? n t <;> rfl

end

end

variable {κ : Type}

namespace View

mutual

theorem released_of_unbound : ∀ t : View κ, (∀ x ∈ t.nodes, x.2.Unbound) → Tree.map Node.release t = t
  | .node id n row, h => by
    rw [Tree.nodes] at h
    have hn : n.release = n := by
      obtain ⟨hlisteners, hguards⟩ := h (id, n) List.mem_cons_self
      obtain ⟨content, listeners, nextListener, guards⟩ := n
      simp only at hlisteners hguards
      rw [hlisteners, hguards]
      rfl
    rw [Tree.map, hn, releasedRow_of_unbound row fun x hx => h x (List.mem_cons_of_mem _ hx)]

/-- A release does nothing where nothing is bound (`Node.Unbound`). -/
theorem releasedRow_of_unbound : ∀ ts : Forest (Node κ), (∀ x ∈ Forest.nodes ts, x.2.Unbound) →
    Forest.map Node.release ts = ts
  | [], _ => by rw [Forest.map]
  | t :: ts, h => by
    rw [Forest.nodes] at h
    rw [Forest.map, released_of_unbound t fun x hx => h x (List.mem_append_left _ hx),
      releasedRow_of_unbound ts fun x hx => h x (List.mem_append_right _ hx)]

end

end View

/-! ## A node shows a new value -/

/-- Whether some nodes hear nothing but what some other nodes hear. -/
def Unheard (nodes others : List (NodeId × Node κ)) : Prop :=
  ∀ x ∈ nodes, x.2.listeners = [] ∨ ∃ y ∈ others, y.2.listeners = x.2.listeners

theorem Unheard.refl (nodes : List (NodeId × Node κ)) : Unheard nodes nodes :=
  fun x hx => Or.inr ⟨x, hx, rfl⟩

theorem Unheard.trans {nodes others more : List (NodeId × Node κ)} (h₁ : Unheard nodes others)
    (h₂ : Unheard others more) : Unheard nodes more := by
  intro x hx
  rcases h₁ x hx with hnone | ⟨y, hy, heq⟩
  · exact Or.inl hnone
  · exact heq ▸ h₂ y hy

/-- Nobody hears more in a forest if nobody does in the place where it changes. -/
theorem Unheard.expand {ts out : Forest (Node κ)} {n : NodeId} {t : View κ}
    {f : View κ → Forest (Node κ)} (hd : ts.Distinct) (ht : ts.find? n = some t)
    (h : Unheard (Forest.nodes (f t ++ out)) t.nodes) :
    Unheard (Forest.nodes (ts.expand n f ++ out)) ts.nodes := by
  have hparts := Forest.perm_of_find? hd ht
  intro x hx
  rw [Forest.nodes_append, List.mem_append, (Forest.nodes_expand f hd ht).mem_iff,
    List.mem_append] at hx
  by_cases hrest : x ∈ Forest.nodes (ts.erase n)
  · exact Or.inr ⟨x, hparts.symm.subset (List.mem_append_right _ hrest), rfl⟩
  · have hplace : x ∈ Forest.nodes (f t ++ out) := by
      rw [Forest.nodes_append, List.mem_append]
      exact hx.imp_left fun hin => hin.resolve_right hrest
    refine (h x hplace).imp_right fun ⟨y, hy, heq⟩ => ?_
    exact ⟨y, hparts.symm.subset (List.mem_append_left _ hy), heq⟩

/-- What may be put in the place of a view, where numbers from `next` on are new: whatever is below the
root is found in it, as it is or released, and nobody hears more. -/
structure InPlace (next : NodeId) (t : View κ) (us : Forest (Node κ)) : Prop where
  found : ∃ g : View κ → View κ, (g = (fun v => v) ∨ g = View.released) ∧
    ∀ i, i ≠ t.id → i < next → Forest.find? i us = (Tree.find? i t).map g
  heard : Unheard (Forest.nodes us) t.nodes

/-- The root is changed but for its listeners. -/
theorem InPlace.root (next id : NodeId) {n m : Node κ} (h : m.listeners = n.listeners)
    (row : Forest (Node κ)) : InPlace next (.node id n row) [.node id m row] where
  found := by
    refine ⟨fun v => v, Or.inl rfl, fun i hne _ => ?_⟩
    have hne : i ≠ id := hne
    rw [Forest.find?_singleton, Tree.find?_of_ne hne, Tree.find?_of_ne hne, Option.map_id']
  heard x hx := by
    rw [Forest.nodes_singleton, Tree.nodes, List.mem_cons] at hx
    rcases hx with rfl | hx
    · exact Or.inr ⟨(id, n), by simp [Tree.nodes], h.symm⟩
    · exact Or.inr ⟨x, by simp [Tree.nodes, hx], rfl⟩

/-- The children make room for a new text, and are released. -/
theorem InPlace.textRow (next id : NodeId) (n : Node κ) (row : Forest (Node κ)) (text : String) :
    InPlace next (.node id n row)
      (.node id n (View.textRow next text) :: Forest.map Node.release row) where
  found := by
    refine ⟨View.released, Or.inr rfl, fun i hne hold => ?_⟩
    have hne : i ≠ id := hne
    have hnew : Forest.find? i (View.textRow next text : Forest (Node κ)) = none := by
      unfold View.textRow
      split
      · rw [Forest.find?]
      · rw [Forest.find?_singleton, Tree.find?_of_ne (Nat.ne_of_lt hold), Forest.find?]
    rw [Forest.find?, Tree.find?_of_ne hne, Tree.find?_of_ne hne, hnew, Forest.find?_map]
    rfl
  heard x hx := by
    rw [Forest.nodes, Tree.nodes, List.mem_append, List.mem_cons] at hx
    rcases hx with (rfl | hnew) | hgone
    · exact Or.inr ⟨(id, n), by simp [Tree.nodes], rfl⟩
    · obtain rfl := View.eq_of_mem_textRow hnew
      exact Or.inl rfl
    · rw [Forest.nodes_map, List.mem_map] at hgone
      obtain ⟨y, -, rfl⟩ := hgone
      exact Or.inl rfl

namespace World

theorem inPlace_writeText (w : World κ) (text : String) (t : View κ) :
    InPlace w.next t
      ([(w.wiring.writeText text t).1] ++ (w.wiring.writeText text t).2.2.removed) := by
  obtain ⟨id, n, row⟩ := t
  simp only [Wiring.writeText, View.setText]
  split
  · exact InPlace.root w.next id (congrArg Prod.fst (n.listenerTable_setPayload text)) row
  · split
    · exact InPlace.root w.next id rfl row
    · rw [Wiring.discardAll_eq]
      exact InPlace.textRow w.next id n row text

/-- A node that shows a new value (`target?`) is the only place of the forest that changes. -/
theorem refresh_cases (w : World κ) (observer : Observer κ) (value : Value) :
    (w.refresh observer value).forest = w.forest ∨ ∃ n t f out, observer.target? = some n ∧
      w.forest.find? n = some t ∧ InPlace w.next t (f t ++ out) ∧
        (w.refresh observer value).forest = w.forest.expand n f ++ out := by
  have hupdate : ∀ (n : NodeId) (f : Node κ → Node κ), (∀ m, (f m).listeners = m.listeners) →
      (w.updateNode n f).forest = w.forest ∨ ∃ t, w.forest.find? n = some t ∧
        InPlace w.next t ([t.mapRoot f] ++ []) := by
    intro n f hf
    cases ht : w.forest.find? n with
    | none => exact Or.inl (Forest.expand_of_not_mem (Forest.not_mem_of_find? ht))
    | some t =>
      obtain ⟨id, m, row⟩ := t
      exact Or.inr ⟨_, rfl, InPlace.root w.next id (hf m) row⟩
  cases observer with
  | client code => exact Or.inl rfl
  | retained code => exact Or.inl rfl
  | field n =>
    refine (hupdate n _ fun m => congrArg Prod.fst (m.listenerTable_setValue _)).imp_right ?_
    rintro ⟨t, ht, hplace⟩
    exact ⟨n, t, _, [], rfl, ht, hplace, (List.append_nil _).symm⟩
  | marker n template marker =>
    refine (hupdate n _ fun m => congrArg Prod.fst (m.listenerTable_setPayload _)).imp_right ?_
    rintro ⟨t, ht, hplace⟩
    exact ⟨n, t, _, [], rfl, ht, hplace, (List.append_nil _).symm⟩
  | content n =>
    simp only [refresh]
    split
    · exact Or.inl rfl
    · next t ht =>
      exact Or.inr ⟨n, t, fun _ => [(w.wiring.writeText _ t).1], _, rfl, ht,
        w.inPlace_writeText _ t, rfl⟩

/-- **A node shows a new value** (`refresh`). A view that the node does not belong to is found as it was,
or released. -/
theorem find?_refresh_or {w : World κ} (hd : w.forest.Distinct) (observer : Observer κ) (value : Value)
    {i : NodeId} (hold : i < w.next)
    (haway : ∀ v, w.forest.find? i = some v → ∀ n, observer.target? = some n → n ∉ v.ids) :
    (w.refresh observer value).forest.find? i = w.forest.find? i ∨
      (w.refresh observer value).forest.find? i = (w.forest.find? i).map View.released := by
  rcases w.refresh_cases observer value with hsame | ⟨n, t, f, out, htarget, ht, hplace, hforest⟩
  · exact Or.inl (by rw [hsame])
  · rw [hforest]
    have hroot : i ≠ t.id := by
      rw [Forest.find?_id ht]
      rintro rfl
      refine haway t ht i htarget ?_
      rw [← Forest.find?_id ht]
      exact Tree.mem_ids_of_find? t.find?_self
    obtain ⟨g, hg, hfound⟩ := hplace.found
    rcases Forest.find?_expand_append hd ht (hfound i hroot hold) fun v hv => haway v hv n htarget
      with hsame | hmapped
    · exact Or.inl hsame
    · rcases hg with rfl | rfl
      · exact Or.inl (hmapped.trans (by rw [Option.map_id']))
      · exact Or.inr hmapped

/-- What is found under a number is the same as before, if it is not bound and the node that shows a new
value is not there. -/
theorem find?_refresh {w : World κ} (hd : w.forest.Distinct) (observer : Observer κ) (value : Value)
    {i : NodeId} (hold : i < w.next)
    (hclear : ∀ v, w.forest.find? i = some v →
      (∀ x ∈ Tree.nodes v, x.2.Unbound) ∧ ∀ n, observer.target? = some n → n ∉ v.ids) :
    (w.refresh observer value).forest.find? i = w.forest.find? i := by
  rcases find?_refresh_or hd observer value hold fun v hv => (hclear v hv).2 with hsame | hreleased
  · exact hsame
  · rw [hreleased]
    cases hfound : w.forest.find? i with
    | none => rfl
    | some v =>
      exact congrArg some (View.released_of_unbound v (hclear v hfound).1)

/-- Nobody hears more once a node shows a new value. -/
theorem unheard_refresh {w : World κ} (hd : w.forest.Distinct) (observer : Observer κ)
    (value : Value) : Unheard (Forest.nodes (w.refresh observer value).forest) w.forest.nodes := by
  rcases w.refresh_cases observer value with hsame | ⟨n, t, f, out, -, ht, hplace, hforest⟩
  · rw [hsame]
    exact Unheard.refl _
  · rw [hforest]
    exact hplace.heard.expand hd ht

/-! ## A new root -/

/-- A new root has a number that was not given out. -/
theorem find?_build {w : World κ} (m : Markup) {i : NodeId} (hold : i < w.next) :
    (w.build m).forest.find? i = w.forest.find? i := by
  have hnone : Forest.find? i [(View.ofMarkup w.next m : View κ × NodeId).1] = none := by
    refine Forest.find?_eq_none fun hin => ?_
    obtain ⟨x, hx, rfl⟩ := Forest.mem_ids.1 hin
    rw [Forest.nodes_singleton] at hx
    exact absurd hold (Nat.not_lt.2 (View.le_of_mem_ofMarkup w.next m x hx))
  rw [build, Forest.find?_append, hnone, Option.or_none]

theorem unheard_build (w : World κ) (m : Markup) :
    Unheard (Forest.nodes (w.build m).forest) w.forest.nodes := by
  intro x hx
  rw [build, Forest.nodes_append, Forest.nodes_singleton, List.mem_append] at hx
  rcases hx with hx | hx
  · exact Or.inr ⟨x, hx, rfl⟩
  · exact Or.inl (View.unbound_ofMarkup w.next m x hx).1

/-! ## Nodes die -/

mutual

theorem nodes_sweepTree (held : NodeId → Bool) : ∀ t : View κ,
    ∀ x ∈ Forest.nodes (sweepTree held t).1, x ∈ t.nodes
  | .node id n row, x, hx => by
    rw [sweepTree] at hx
    split at hx
    · simpa [Forest.nodes] using hx
    · rw [Tree.nodes]
      exact List.mem_cons_of_mem _ (nodes_sweepRow held row x hx)

/-- What a sweep leaves was there. -/
theorem nodes_sweepRow (held : NodeId → Bool) : ∀ ts : Forest (Node κ),
    ∀ x ∈ Forest.nodes (sweepRow held ts).1, x ∈ Forest.nodes ts
  | [], x, hx => by
    rw [sweepRow] at hx
    exact hx
  | t :: ts, x, hx => by
    rw [sweepRow, Forest.nodes_append, List.mem_append] at hx
    rw [Forest.nodes, List.mem_append]
    exact hx.imp (nodes_sweepTree held t x) (nodes_sweepRow held ts x)

end

mutual

theorem find?_sweepTree (held : NodeId → Bool) {i : NodeId} : ∀ t : View κ, t.ids.Nodup →
    Forest.find? i (sweepTree held t).1 = Tree.find? i t ∨
      Forest.find? i (sweepTree held t).1 = none ∧ held i = false
  | .node id n row, hd => by
    rw [Tree.ids_node, List.nodup_cons] at hd
    rw [sweepTree]
    split
    · exact Or.inl (Forest.find?_singleton i _)
    · next hdead =>
      by_cases hi : id = i
      · -- the root dies, and what is left does not have its number
        subst hi
        refine Or.inr ⟨Forest.find?_eq_none fun hin => hd.1 ?_, by simpa using hdead⟩
        obtain ⟨x, hx, hid⟩ := Forest.mem_ids.1 hin
        exact Forest.mem_ids.2 ⟨x, nodes_sweepRow held row x hx, hid⟩
      · rw [Tree.find?, if_neg hi]
        exact find?_sweepRow held row hd.2

/-- What a sweep leaves under a number is what was there, or the node died, and nobody `held` it. -/
theorem find?_sweepRow (held : NodeId → Bool) {i : NodeId} : ∀ ts : Forest (Node κ), ts.Distinct →
    Forest.find? i (sweepRow held ts).1 = ts.find? i ∨
      Forest.find? i (sweepRow held ts).1 = none ∧ held i = false
  | [], _ => by
    rw [sweepRow]
    exact Or.inl rfl
  | t :: ts, hd => by
    rw [Forest.Distinct, Forest.ids_cons, List.nodup_append] at hd
    obtain ⟨ht, hts, hdisjoint⟩ := hd
    have hrest := find?_sweepRow held (i := i) ts hts
    have hapart : i ∈ t.ids → Forest.find? i (sweepRow held ts).1 = none := fun hi => by
      refine Forest.find?_eq_none fun hin => ?_
      obtain ⟨x, hx, hid⟩ := Forest.mem_ids.1 hin
      exact hdisjoint i hi i (Forest.mem_ids.2 ⟨x, nodes_sweepRow held ts x hx, hid⟩) rfl
    rw [sweepRow, Forest.find?_append, Forest.find?]
    rcases find?_sweepTree held (i := i) t ht with hsame | ⟨hnone, hheld⟩
    · rw [hsame]
      cases Tree.find? i t with
      | some v => exact Or.inl (Option.some_or ..)
      | none => exact hrest
    · rw [hnone, Option.none_or]
      by_cases hi : i ∈ t.ids
      · exact Or.inr ⟨hapart hi, hheld⟩
      · rw [Tree.find?_eq_none hi]
        exact hrest

end

theorem find?_sweep {w : World κ} (hd : w.forest.Distinct) (held : NodeId → Bool) (i : NodeId) :
    (w.sweep held).forest.find? i = w.forest.find? i ∨
      (w.sweep held).forest.find? i = none ∧ held i = false :=
  find?_sweepRow held w.forest hd

end World

/-! ## Who observes -/

/-- Whether all observers in some stores are of a kind. -/
def Stores.All (p : Observer κ → Prop) (stores : Stores κ) : Prop :=
  ∀ st ∈ stores, ∀ key, ∀ entry ∈ st.observersOf key, p entry.2

/-- Whether the observers in some stores are among those of the same keys in other ones. -/
def Stores.Within (later stores : Stores κ) : Prop :=
  ∀ (id : StoreId) (st' : Store κ), later[id]? = some st' → ∃ st : Store κ, stores[id]? = some st ∧
    ∀ key, st'.observersOf key ⊆ st.observersOf key

theorem Stores.All.within {p : Observer κ → Prop} {stores later : Stores κ} (h : stores.All p)
    (hwithin : later.Within stores) : later.All p := by
  intro st' hst' key entry hentry
  obtain ⟨id, hid⟩ := List.mem_iff_getElem?.1 hst'
  obtain ⟨st, hst, hsubset⟩ := hwithin id st' hid
  exact h st (List.mem_of_getElem? hst) key entry (hsubset key hentry)

namespace Stores.Within

variable {stores later last : Stores κ}

theorem refl (stores : Stores κ) : stores.Within stores :=
  fun _ st hst => ⟨st, hst, fun _ => List.Subset.refl _⟩

theorem trans (h₁ : last.Within later) (h₂ : later.Within stores) : last.Within stores := by
  intro id st' hst'
  obtain ⟨st₁, hst₁, hsubset₁⟩ := h₁ id st' hst'
  obtain ⟨st, hst, hsubset⟩ := h₂ id st₁ hst₁
  exact ⟨st, hst, fun key => List.Subset.trans (hsubset₁ key) (hsubset key)⟩

end Stores.Within

theorem Stores.within_update (stores : Stores κ) (id : StoreId) {f : Store κ → Store κ}
    (hf : ∀ st key, (f st).observersOf key ⊆ st.observersOf key) :
    (stores.update id f).Within stores := by
  intro other st' hst'
  rw [getElem?_update, Option.map_eq_some_iff] at hst'
  obtain ⟨st, hst, rfl⟩ := hst'
  refine ⟨st, hst, fun key => ?_⟩
  split
  · exact hf st key
  · exact List.Subset.refl _

theorem Stores.within_endGuards (guards : List Guard) (stores : Stores κ) :
    (stores.endGuards guards).Within stores := by
  induction guards generalizing stores with
  | nil => exact Within.refl stores
  | cons g gs ih =>
    exact (ih (stores.endGuard g)).trans (stores.within_update g.store fun st key =>
      (st.observersOf_unsubscribe_sublist g.subscription key).subset)

theorem Wiring.within_writeText (w : Wiring κ) (text : String) (t : View κ) :
    (w.writeText text t).2.2.stores.Within w.stores := by
  simp only [writeText, discardAll_eq]
  exact Stores.within_endGuards _ _

theorem World.within_refresh (w : World κ) (observer : Observer κ) (value : Value) :
    (w.refresh observer value).stores.Within w.stores := by
  cases observer with
  | content n =>
    simp only [World.refresh]
    split
    · exact Stores.Within.refl _
    · exact w.wiring.within_writeText _ _
  | _ => exact Stores.Within.refl _

/-- A new observer is of the kind, and so are all observers there were. -/
theorem Wiring.all_watch {w : Wiring κ} {p : Observer κ → Prop} (h : w.stores.All p)
    (store : StoreId) (key : String) {observer : Observer κ} (ho : p observer) (t : View κ) :
    (w.watch store key observer t).2.stores.All p := by
  unfold watch
  split
  · exact h
  · intro st' hst' k entry hentry
    obtain ⟨id, hid⟩ := List.mem_iff_getElem?.1 hst'
    rw [Stores.getElem?_update, Option.map_eq_some_iff] at hid
    obtain ⟨st, hst, rfl⟩ := hid
    have hold := h st (List.mem_of_getElem? hst) k entry
    split at hentry
    · rw [Store.observersOf_subscribe, List.mem_append] at hentry
      rcases hentry with hentry | hentry
      · exact hold hentry
      · split at hentry
        · exact List.mem_singleton.1 hentry ▸ ho
        · exact absurd hentry List.not_mem_nil
    · exact hold hentry

end ViewBinding
