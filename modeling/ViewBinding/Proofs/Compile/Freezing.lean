import ViewBinding.Proofs.Compile.Undoing
import ViewBinding.Proofs.Session.DataOnly
import ViewBinding.Proofs.World.Untouched
import Mathlib.Data.List.Permutation

/-!
# A released view is frozen

Once a view is released, nothing in it hears an event, and no observer that the view had is left, but
for those the guards of which somebody took away before.  If there are none, whatever is set later, and
wherever an event is fired, every node of the view stays as the release left it.

* `Frozen` — the view as it is, and that nobody shows a value in it.
* `frozen_release` — a release comes to that; `view?_detach` is what it finds behind a detaching.
* `steadfast_frozen` — no value, no event and no name changes it.
* `Frozen.fire` — nobody hears an event there.
* `released_view_is_frozen` — all of this together; `kept_guard_still_shows` is what a guard that was
  taken away does.
-/

namespace ViewBinding

open Json (Value)
open List

namespace View

variable {κ : Type} {t v : View κ} {i : NodeId}

theorem id_released (t : View κ) : (released t).id = t.id := by
  cases t
  rfl

theorem ids_released (t : View κ) : (released t).ids = t.ids := by
  simp [released, Tree.ids, Tree.nodes_map]

theorem unbound_released (t : View κ) : ∀ x ∈ (released t).nodes, x.2.Unbound := by
  intro x hx
  rw [released, Tree.nodes_map, List.mem_map] at hx
  obtain ⟨y, -, rfl⟩ := hx
  exact ⟨rfl, rfl⟩

/-- What `find?` finds in a view has its nodes there. -/
theorem nodes_subset_of_find? (hd : t.ids.Nodup) (h : Tree.find? i t = some v) : v.nodes ⊆ t.nodes := by
  have hrow : Forest.Distinct [t] := by simpa [Forest.Distinct] using hd
  have hfound : Forest.find? i [t] = some v := (Forest.find?_singleton i t).trans h
  have hparts := Forest.perm_of_find? hrow hfound
  rw [Forest.nodes_singleton] at hparts
  exact fun x hx => hparts.symm.subset (List.mem_append_left _ hx)

end View

namespace Session

/-! ## Names -/

/-- A node that has a name is held, so `sweep` leaves it. -/
theorem holdsNode_of_mem {s : Session} {entry : String × NodeId} (h : entry ∈ s.nodes) :
    s.holdsNode entry.2 = true := by
  rw [holdsNode, Bool.or_eq_true]
  exact Or.inl (List.any_eq_true.2 ⟨entry, h, by simp⟩)

/-- Nodes that die in a `sweep` take no view along that has a name. -/
theorem find?_sweep_of_mem {s : Session} (hd : s.world.forest.Distinct) {entry : String × NodeId}
    (h : entry ∈ s.nodes) : s.sweep.world.forest.find? entry.2 = s.world.forest.find? entry.2 := by
  refine (World.find?_sweep hd s.holdsNode entry.2).resolve_right fun ⟨_, hheld⟩ => ?_
  exact absurd ((holdsNode_of_mem h).symm.trans hheld) (by simp)

/-! ## Frozen views -/

/-- Whether an observer is `Observer.DataOnly` and shows nothing in a view. -/
def Apart (t : View Client) (o : Observer Client) : Prop :=
  o.DataOnly ∧ ∀ n, o.target? = some n → n ∉ t.ids

/-- A session in which a view is frozen: nothing binds it, each node of it that is still there stands as it
does in the view, and those that have a name are there; no observer shows a value in it, and only data-only
code is left (`DataOnly`). -/
structure Frozen (t : View Client) (s : Session) : Prop where
  accounted : s.Accounted
  distinct : t.ids.Nodup
  unbound : ∀ x ∈ t.nodes, x.2.Unbound
  old : ∀ i ∈ t.ids, i < s.world.next
  same : ∀ i ∈ t.ids, ∀ v, s.world.forest.find? i = some v → Tree.find? i t = some v
  there : ∀ entry ∈ s.nodes, entry.2 ∈ t.ids → entry.2 ∈ s.world.forest.ids
  observers : s.world.stores.All (Apart t)
  listeners : ∀ x ∈ Forest.nodes s.world.forest, ∀ r ∈ x.2.listeners, r.listener.DataOnly

namespace Frozen

variable {t : View Client} {s s' : Session}

theorem of_eq (h : Frozen t s) (haccounted : s'.Accounted) (hworld : s'.world = s.world)
    (hnodes : s'.nodes = s.nodes) : Frozen t s' := by
  obtain ⟨-, hdistinct, hunbound, hold, hsame, hthere, hobservers, hlisteners⟩ := h
  refine ⟨haccounted, hdistinct, hunbound, ?_, ?_, ?_, ?_, ?_⟩
  all_goals rw [hworld]
  · exact hold
  · exact hsame
  · rw [hnodes]
    exact hthere
  · exact hobservers
  · exact hlisteners

/-- What is found of a `Frozen` view is bound by nothing, and all of it belongs to the view. -/
theorem clear (h : Frozen t s) {i : NodeId} (hi : i ∈ t.ids) {v : View Client}
    (hv : s.world.forest.find? i = some v) : (∀ x ∈ v.nodes, x.2.Unbound) ∧ v.ids ⊆ t.ids := by
  have hsub := View.nodes_subset_of_find? h.distinct (h.same i hi v hv)
  exact ⟨fun x hx => h.unbound x (hsub hx), List.map_subset _ hsub⟩

/-- The forest changed, and so did the stores, but the view is found as before, or nobody holds it. -/
theorem of_found (h : Frozen t s) (haccounted : s'.Accounted) (hnodes : s'.nodes = s.nodes)
    (hnext : s.world.next ≤ s'.world.next)
    (hfound : ∀ i ∈ t.ids, s'.world.forest.find? i = s.world.forest.find? i ∨
      s'.world.forest.find? i = none ∧ ∀ entry ∈ s.nodes, entry.2 ≠ i)
    (hobservers : s'.world.stores.All (Apart t))
    (hlisteners : Unheard (Forest.nodes s'.world.forest) (Forest.nodes s.world.forest)) :
    Frozen t s' where
  accounted := haccounted
  distinct := h.distinct
  unbound := h.unbound
  old i hi := Nat.lt_of_lt_of_le (h.old i hi) hnext
  same i hi v hv := by
    rcases hfound i hi with heq | ⟨hnone, -⟩
    · exact h.same i hi v (heq.symm.trans hv)
    · exact absurd (hnone.symm.trans hv) (by simp)
  there entry hentry hi := by
    rw [hnodes] at hentry
    obtain ⟨v, hv⟩ := Forest.exists_find? (h.there entry hentry hi)
    rcases hfound entry.2 hi with heq | ⟨-, hnobody⟩
    · exact Forest.mem_ids_of_find? (heq.trans hv)
    · exact absurd rfl (hnobody entry hentry)
  observers := hobservers
  listeners x hx r hr := by
    rcases hlisteners x hx with hnone | ⟨y, hy, heq⟩
    · rw [hnone] at hr
      exact absurd hr List.not_mem_nil
    · exact h.listeners y hy r (heq ▸ hr)

/-! ## One change -/

theorem write (h : Frozen t s) (store : StoreId) (key : String) (value : Value) :
    Frozen t (s.changeStores (·.update store (·.write key value))) :=
  h.of_found
    (h.accounted.changeStores (Stores.last_update _ store fun st => st.becomes_write key value)
      fun howned => howned.write store key value)
    rfl (Nat.le_refl _) (fun _ _ => Or.inl rfl)
    (h.observers.within (Stores.within_update _ store fun _ _ => List.Subset.refl _))
    (Unheard.refl _)

theorem refresh (h : Frozen t s) {o : Observer Client} (ho : Apart t o) (value : Value) :
    Frozen t { s with world := s.world.refresh o value } := by
  have hd := h.accounted.world.distinct
  refine h.of_found (h.accounted.step (.refresh s o value)) rfl (s.world.advances_refresh o value).next
    (fun i hi => Or.inl ?_) (h.observers.within (s.world.within_refresh o value))
    (World.unheard_refresh hd o value)
  refine World.find?_refresh hd o value (h.old i hi) fun v hv => ?_
  obtain ⟨hunbound, hids⟩ := h.clear hi hv
  exact ⟨hunbound, fun n hn hin => ho.2 n hn (hids hin)⟩

theorem sweep (h : Frozen t s) : Frozen t s.sweep := by
  have hd := h.accounted.world.distinct
  refine h.of_found (h.accounted.step (.sweep s)) rfl (Nat.le_refl _) (fun i _ => ?_)
    (h.observers.within (Stores.within_endGuards _ _)) fun x hx =>
      Or.inr ⟨x, World.nodes_sweepRow _ _ x hx, rfl⟩
  refine (World.find?_sweep hd s.holdsNode i).imp_right fun ⟨hnone, hheld⟩ => ⟨hnone, ?_⟩
  rintro entry hentry rfl
  exact absurd ((holdsNode_of_mem hentry).symm.trans hheld) (by simp)

/-- A name is given to a node that is there, or to one that is not of the view. -/
theorem assign? (h : Frozen t s) (name : String) {n : Option NodeId}
    (hn : ∀ i, n = some i → i ∈ t.ids → i ∈ s.world.forest.ids) :
    Frozen t (s.assign? name n).2 := by
  cases n with
  | none => exact h
  | some n =>
    have haccounted := h.accounted.assign? name (some n)
    refine ⟨haccounted, h.distinct, h.unbound, h.old, h.same, fun entry hentry hi => ?_, h.observers,
      h.listeners⟩
    have hmem := (h.accounted.nodes.perm_insert name n).subset hentry
    rcases List.mem_cons.1 hmem with rfl | hmem
    · exact hn n rfl hi
    · exact h.there entry (Table.mem_erase.1 hmem).1 hi

theorem build (h : Frozen t s) (m : Markup) : Frozen t { s with world := s.world.build m } :=
  h.of_found (h.accounted.withWorld (h.accounted.world.build m)) rfl (View.le_ofMarkup _ m)
    (fun i hi => Or.inl (World.find?_build m (h.old i hi))) h.observers (s.world.unheard_build m)

theorem changeAt (h : Frozen t s) {name : String} {f : View Client → Reply × Session}
    (hf : ∀ u, s.view? name = some u → Frozen t (f u).2) : Frozen t (s.changeAt name f).2 :=
  changeAt_rule h hf

/-- Names are given and taken away by a `Handle`. -/
theorem handle (h : Frozen t s) (x : Handle) : Frozen t (s.handle x).2 := by
  have hd := h.accounted.world.distinct
  have hbelow : ∀ {name u}, s.view? name = some u → u.ids ⊆ s.world.forest.ids := fun hu =>
    Forest.ids_subset_of_find? hd (view?_eq_some hu).2
  have hbuild : ∀ name m, Frozen t (s.build name m).2 := by
    intro name m
    refine (h.build m).assign? name fun i hi hin => ?_
    obtain rfl := Option.some.inj hi
    exact absurd (h.old _ hin) (Nat.lt_irrefl _)
  cases x with
  | build name m => exact hbuild name m
  | parse name markup =>
    simp only [Session.handle]
    split
    · exact hbuild name _
    · exact h
  | child name node index =>
    refine h.changeAt fun u hu => h.assign? name fun i hi _ => hbelow hu ?_
    obtain ⟨c, hc, rfl⟩ := Option.map_eq_some_iff.1 hi
    obtain ⟨id, n, row⟩ := u
    rw [Tree.ids_node]
    exact List.mem_cons_of_mem _ ((Forest.rootIds_sublist row).subset
      (List.mem_map_of_mem (List.mem_of_getElem? hc)))
  | find name node tag nth =>
    refine h.changeAt fun u hu => h.assign? name fun i hi _ => hbelow hu ?_
    obtain ⟨x, hx, rfl⟩ := Option.map_eq_some_iff.1 hi
    have hin := (List.mem_filter.1 (List.mem_of_getElem? hx)).1
    obtain ⟨id, n, row⟩ := u
    rw [Tree.ids_node]
    exact List.mem_cons_of_mem _ (Forest.mem_ids.2 ⟨x, hin, rfl⟩)
  | parent name node =>
    refine h.changeAt fun u hu => h.assign? name fun i hi _ => ?_
    exact Forest.mem_ids_of_edge (Forest.edge_of_parent? hi)
  | drop name =>
    refine ⟨h.accounted.handle (.drop name), h.distinct, h.unbound, h.old, h.same,
      fun entry hentry hi => ?_, h.observers, h.listeners⟩
    exact h.there entry (Table.mem_erase.1 hentry).1 hi

/-! ## What is seen of the view -/

/-- Whoever has a name for a node of the view finds it. -/
theorem exists_view (h : Frozen t s) {name : String} {i : NodeId}
    (hname : s.nodes.get? name = some i) (hi : i ∈ t.ids) :
    ∃ v, s.view? name = some v ∧ s.world.forest.find? i = some v := by
  have hentry : (name, i) ∈ s.nodes :=
    Table.mem_of_get? hname
  obtain ⟨v, hv⟩ := Forest.exists_find? (h.there (name, i) hentry hi)
  exact ⟨v, by rw [view?, hname, Option.bind_some, hv], hv⟩

/-- Nobody hears an event that is fired in the view (`dispatch_event`), and nothing else comes of it. -/
theorem fire (h : Frozen t s) {name : String} {i : NodeId} (hname : s.nodes.get? name = some i)
    (hi : i ∈ t.ids) (call : Caller) (event : String) :
    ∃ s', s.fire call name event = some (.count 0, s') ∧ s'.world = s.world ∧
      s'.history = .fired s.deliveries i event :: s.history := by
  obtain ⟨v, hview, hv⟩ := h.exists_view hname hi
  have hid : v.id = i := Forest.find?_id hv
  have hroot : (v.id, v.val) ∈ v.nodes := Tree.mem_nodes_of_find? v.find?_self
  have hsilent : v.val.listening event = [] := by
    rw [Node.listening, ((h.clear hi hv).1 _ hroot).1, List.filter_nil]
  refine ⟨{ s.begin (fun number => .fired number i event) with
    busyNodes := s.busyNodes, busyStores := s.busyStores }, ?_, rfl, rfl⟩
  simp only [Session.fire, hview, hsilent, hid]
  rfl

end Frozen

/-- **No value, no event and no name** changes a view that is `Frozen`. -/
theorem steadfast_frozen (t : View Client) : Steadfast (Apart t) (Frozen t) where
  observers h := h.observers
  dataOnly ho := ho.1
  listeners h := h.listeners
  busy _ _ h := h.of_eq (h.accounted.of_eq rfl rfl rfl) rfl rfl
  happen _ _ h := h.of_eq (h.accounted.of_eq rfl rfl rfl) rfl rfl
  write store key value h := h.write store key value
  refresh value ho h := h.refresh ho value
  sweep h := h.sweep
  handle x h := h.handle x

/-! ## Releasing -/

/-- Whether no list that `take_subscriptions` filled keeps the guard of an observer that shows its value at
one of some nodes. -/
def KeepsNone (s : Session) (ids : List NodeId) : Prop :=
  ∀ (id : StoreId) (st : Store Client), s.world.stores[id]? = some st → ∀ key,
    ∀ entry ∈ st.observersOf key, ⟨id, entry.1, key⟩ ∈ s.keptGuards →
      ∀ n ∈ ids, entry.2.target? ≠ some n

/-- What a release makes of a view (`View.released`) is found where the view stood. -/
theorem find?_release {w : World Client} (hd : w.forest.Distinct) {held : StoreId → Bool} {n i : NodeId}
    {t : View Client} (ht : w.forest.find? n = some t) (hi : i ∈ t.ids) :
    (w.release held n).2.forest.find? i = Tree.find? i (View.released t) := by
  have hforest : (w.release held n).2.forest = w.forest.update n View.released := by
    simp only [World.release, ht]
  rw [hforest, Forest.update, Forest.find?_expand_of_mem hd ht (Forest.not_mem_erase hd ht hi),
    Forest.find?_singleton]

/-- Where no node of a view has a guard and no list keeps one (`KeepsNone`), no observer shows a value in
it. -/
theorem apart_of_free {s : Session} (h : s.Accounted) (hdataOnly : s.DataOnly) {t : View Client}
    (hnone : ∀ i ∈ t.ids, ∀ v, s.world.forest.find? i = some v → v.val.guards = [])
    (hfree : s.KeepsNone t.ids) : s.world.stores.All (Apart t) := by
  intro st hst key entry hentry
  refine ⟨hdataOnly.observers st hst key entry hentry, fun n hn hin => ?_⟩
  obtain ⟨id, hid⟩ := List.mem_iff_getElem?.1 hst
  -- whoever shows a value at a node has a guard there, or in a list
  rcases h.world.home hid hentry hn with hkept | ⟨gs, hgs, hg⟩
  · exact hfree id st hid key entry hentry hkept n hin hn
  · obtain ⟨x, hx, heq⟩ := List.mem_map.1 hgs
    obtain ⟨rfl, rfl⟩ := Prod.mk.inj heq
    obtain ⟨v, hv, hval⟩ := Option.map_eq_some_iff.1 (Forest.val?_of_mem h.world.distinct hx)
    rw [← hval, hnone _ hin v hv] at hg
    exact absurd hg List.not_mem_nil

/-- **A release freezes the view**, if no list keeps a guard of it (`KeepsNone`) and only data-only code is
left. -/
theorem frozen_release {s s₁ : Session} (h : s.Accounted) {name : String} {t : View Client}
    (ht : s.view? name = some t) {call : Caller} {scope : Option StoreId} {reply : Reply}
    (hact : act call scope (.command (.ending (.release name))) s = some (reply, s₁))
    (hdataOnly : s₁.DataOnly) (hfree : s₁.KeepsNone t.ids) : Frozen (View.released t) s₁ := by
  have hfound := (view?_eq_some ht).2
  have hids := View.ids_released t
  -- the session between the release and the sweep behind it
  let after := (s.finish scope (.release name)).2
  have hworld : after.world = (s.world.release s.holdsStore t.id).2 := by
    simp only [after, finish, Session.changeAt, ht]
  have haccounted : after.Accounted := h.finish scope (.release name)
  have hd := haccounted.world.distinct
  have hplaced : ∀ i ∈ (View.released t).ids,
      after.world.forest.find? i = Tree.find? i (View.released t) := by
    rw [hworld, hids]
    exact fun i hi => find?_release h.world.distinct hfound hi
  have hbefore : (View.released t).ids ⊆ after.world.forest.ids := fun i hi => by
    obtain ⟨v, hv⟩ := Tree.exists_find? hi
    exact Forest.mem_ids_of_find? ((hplaced i hi).trans hv)
  obtain rfl : after.sweep = s₁ :=
    congrArg Prod.snd (Option.some.inj ((act_command rfl).symm.trans hact))
  have hsame : ∀ i ∈ (View.released t).ids, ∀ v, after.sweep.world.forest.find? i = some v →
      Tree.find? i (View.released t) = some v := by
    intro i hi v hv
    rcases World.find?_sweep hd after.holdsNode i with heq | ⟨hnone, -⟩
    · exact (hplaced i hi).symm.trans (heq.symm.trans hv)
    · exact absurd (hnone.symm.trans hv) (by simp)
  have haccounted₁ : after.sweep.Accounted := haccounted.step (.sweep _)
  have hnone : ∀ i ∈ (View.released t).ids, ∀ v, after.sweep.world.forest.find? i = some v →
      v.val.guards = [] := fun i hi v hv =>
    (View.unbound_released t _ (Tree.mem_nodes_of_find? (hsame i hi v hv))).2
  exact
    { accounted := haccounted₁
      distinct := hids ▸ h.world.distinct.found hfound
      unbound := View.unbound_released t
      old := fun i hi => haccounted.world.lt_next (hbefore hi)
      same := hsame
      there := fun entry hentry hi => by
        obtain ⟨v, hv⟩ := Forest.exists_find? (hbefore hi)
        exact Forest.mem_ids_of_find? ((find?_sweep_of_mem hd hentry).trans hv)
      observers := apart_of_free haccounted₁ hdataOnly hnone (hids.symm ▸ hfree)
      listeners := hdataOnly.listeners }

/-- A node that `detach` takes out of its parent is found as it stood there. -/
theorem view?_detach {s : Session} (h : s.Accounted) {name : String} {t : View Client}
    (ht : s.view? name = some t) : (s.edit (.detach name)).2.sweep.view? name = some t := by
  have hd := h.world.distinct
  obtain ⟨hname, hfound⟩ := view?_eq_some ht
  have hedit : s.edit (.detach name) = (.nothing, s.changeForest (·.detach t.id)) := by
    simp only [Session.edit, Session.changeAt, ht]
  have hdetached : (s.world.forest.detach t.id).find? t.id = some t := by
    unfold Forest.detach
    split
    · next u _ hu =>
      obtain rfl : t = u := Option.some.inj (hfound.symm.trans hu)
      have hgone : t.id ∉ Forest.ids (s.world.forest.erase t.id) :=
        Forest.not_mem_erase hd hfound (Tree.mem_ids_of_find? t.find?_self)
      rw [Forest.find?_append, Forest.find?_eq_none hgone, Option.none_or, Forest.find?_singleton,
        t.find?_self]
    · exact hfound
  have hafter : (s.edit (.detach name)).2.Accounted := h.step (.edit s (.detach name))
  rw [hedit] at hafter ⊢
  have hentry : (name, t.id) ∈ (s.changeForest (·.detach t.id)).nodes :=
    Table.mem_of_get? hname
  have hswept := find?_sweep_of_mem hafter.world.distinct hentry
  exact (congrArg (Option.bind · _) hname).trans (hswept.trans hdetached)

/-- **A released view is frozen.**  Take any session that can be reached, and a view in it that has a
name, and release the view, as it stands or once it is taken out of its parent.  Suppose that no list
keeps a guard of an observer that shows its value at one of its nodes, and that values and events
reach only code that reads and writes stores.  Then whatever values are set to whatever stores, and
wherever events are fired afterwards, each node of the view that is still there stands as it did in
the view when that was released.  Whoever has a name for one finds it, and when an event is fired at
it, no listener hears of it, and nothing in the world changes. -/
theorem released_view_is_frozen {model : Value} {methods : List (String × Client)} {s : Session}
    (hreachable : Moves (start model methods) s) {name : String} {t : View Client}
    (ht : s.view? name = some t) {a : Action}
    (ha : a = .command (.ending (.release name)) ∨ a = .detachAndRelease name)
    {scope : Option StoreId} {reply : Reply} {s₁ : Session}
    (hact : act (invoke depth) scope a s = some (reply, s₁)) (hdataOnly : s₁.DataOnly)
    (hfree : s₁.KeepsNone t.ids) {s₂ : Session} (hlater : Onward s₁ s₂) :
    (∀ i ∈ t.ids, ∀ v, s₂.world.forest.find? i = some v → Tree.find? i (View.released t) = some v) ∧
    ∀ other i, s₂.nodes.get? other = some i → i ∈ t.ids →
      s₂.view? other = Tree.find? i (View.released t) ∧
      ∀ (call : Caller) event, ∃ s₃, s₂.fire call other event = some (.count 0, s₃) ∧
        s₃.world = s₂.world ∧ s₃.history = .fired s₂.deliveries i event :: s₂.history := by
  have haccounted : s.Accounted := hreachable.accounted
  have hfrozen : Frozen (View.released t) s₁ := by
    rcases ha with rfl | rfl
    · exact frozen_release haccounted ht hact hdataOnly hfree
    · have hdetached : (s.edit (.detach name)).2.sweep.Accounted :=
        (haccounted.step (.edit s (.detach name))).step (.sweep _)
      -- what is run next is the release, where the view is a root
      have hrelease : act (invoke depth) scope (.command (.ending (.release name)))
          (s.edit (.detach name)).2.sweep = some (reply, s₁) := hact
      exact frozen_release hdetached (view?_detach haccounted ht) hrelease hdataOnly hfree
  have hstill := (steadfast_frozen (View.released t)).onward hlater hfrozen
  have hids := View.ids_released t
  refine ⟨fun i hi => hstill.same i (hids ▸ hi), fun other i hname hi => ⟨?_, fun call event => ?_⟩⟩
  · obtain ⟨v, hview, hv⟩ := hstill.exists_view hname (hids ▸ hi)
    rw [hview, hstill.same i (hids ▸ hi) v hv]
  · exact hstill.fire hname (hids ▸ hi) call event

/-! ## A view beside one that goes on -/

/-- A session is `Session.DataOnly` if every observer in it shows its value at a node, and its listeners
are. -/
theorem dataOnly_of_targets {s : Session}
    (hobservers : s.world.stores.all (fun st => st.observers.all fun row =>
      row.2.all fun entry => entry.2.target?.isSome) = true)
    (hlisteners : ∀ x ∈ Forest.nodes s.world.forest, ∀ r ∈ x.2.listeners, r.listener.DataOnly) :
    s.DataOnly := by
  refine ⟨fun st hst key entry hentry => ?_, hlisteners⟩
  have hstore := List.all_eq_true.1 hobservers st hst
  have htarget : entry.2.target?.isSome = true := by
    unfold Store.observersOf at hentry
    cases hrow : st.observers.get? key with
    | none =>
      rw [hrow] at hentry
      exact absurd hentry List.not_mem_nil
    | some row =>
      rw [hrow] at hentry
      have hin := Table.mem_of_get? hrow
      exact List.all_eq_true.1 (List.all_eq_true.1 hstore _ hin) entry hentry
  cases hobserver : entry.2 with
  | client code => simp [hobserver, Observer.target?] at htarget
  | retained code => simp [hobserver, Observer.target?] at htarget
  | _ => trivial

/-- A method that sets a key. -/
def rename : Client := fun _ => .command (.set "name" (.string "Bea"))

/-- Two parts of a page that show the same key and have a button each; the first of them, and its
field, have names. -/
def twoParts : List Action :=
  [.command (.handle (.build "root" (.element "div" []
      [.element "section" [] [.element "p" [⟨"v-text", "name"⟩] [],
          .element "input" [⟨"v-model", "name"⟩] [], .element "b" [⟨"v-on:click", "rename"⟩] []],
        .element "p" [⟨"v-text", "name"⟩] [], .element "b" [⟨"v-on:click", "rename"⟩] []]))),
    .command (.bind (.compile "root" {} .standard)),
    .command (.handle (.find "part" "root" (some "section") 0)),
    .command (.handle (.find "field" "part" (some "input") 0)),
    .command (.handle (.find "button" "root" (some "b") 1))]

/-- The key is set, and events are fired on both sides. -/
def laterActions : List Action :=
  [.command (.set "name" (.string "Cyd")), .command (.fire "field" "input"),
    .command (.fire "button" "click")]

/-- Once the first of `twoParts` is released, all code that is left only sets a key (`rename`), and no list
keeps a guard. -/
theorem dataOnly_without_part {reply : Reply} {s₁ : Session}
    (hact : act (invoke depth) none (.detachAndRelease "part")
      ((start (.ofMembers [("name", .string "Ada")]) [("rename", rename)]).runs twoParts) =
        some (reply, s₁)) : s₁.DataOnly ∧ ∀ ids, s₁.KeepsNone ids := by
  generalize hafter : act (invoke depth) none (.detachAndRelease "part")
    ((start (.ofMembers [("name", .string "Ada")]) [("rename", rename)]).runs twoParts) = after at hact
  have hkept : (after.map (·.2.keptGuards)) = some [] := by
    subst after
    decide +kernel
  have hobservers : (after.map fun r =>
      r.2.world.stores.all fun st => st.observers.all fun row =>
        row.2.all fun entry => entry.2.target?.isSome) = some true := by
    subst after
    decide +kernel
  have hlisteners : (after.map fun r =>
      (Forest.nodes r.2.world.forest).flatMap fun x => x.2.listeners.map (·.listener)) =
        some [.method 0 rename] := by
    subst after
    cbv
  rw [hact, Option.map_some, Option.some.injEq] at hkept hobservers hlisteners
  constructor
  · refine dataOnly_of_targets hobservers fun x hx r hr => ?_
    have hin : r.listener ∈ (Forest.nodes s₁.world.forest).flatMap
        fun x => x.2.listeners.map (·.listener) :=
      List.mem_flatMap.2 ⟨x, hx, List.mem_map_of_mem hr⟩
    rw [hlisteners, List.mem_singleton] at hin
    rw [hin]
    exact fun seen => ⟨rfl, fun reply => trivial⟩
  · intro ids id st hst key entry hentry hin
    rw [hkept] at hin
    exact absurd hin List.not_mem_nil

/-- Once the first of `twoParts` is taken out and released, the rest goes on and the part does not. -/
theorem released_part_is_frozen :
    let s := (start (.ofMembers [("name", .string "Ada")]) [("rename", rename)]).runs twoParts
    let after := act (invoke depth) none (.detachAndRelease "part") s
    ∃ t reply s₁, s.view? "part" = some t ∧ after = some (reply, s₁) ∧
      (s₁.runs laterActions).outer? "root" =
        some "<div><p v-text=\"name\">Bea</p><b v-on:click=\"rename\"></b></div>" ∧
      (s₁.runs laterActions).view? "part" = some (View.released t) ∧
      ∃ s₃, (s₁.runs laterActions).fire (invoke depth) "field" "input" = some (.count 0, s₃) ∧
        s₃.world = (s₁.runs laterActions).world := by
  intro s after
  have hreachable : Moves _ s := moves_runs _ twoParts
  have hpart : ((s.view? "part").map fun t => (t.id, t.ids.contains 3)) = some (1, true) := by
    decide +kernel
  have hrest : (after.map fun r => (r.2.runs laterActions).outer? "root") = some
      (some "<div><p v-text=\"name\">Bea</p><b v-on:click=\"rename\"></b></div>") := by
    decide +kernel
  have hnames : (after.map fun r =>
      ((r.2.runs laterActions).nodes.get? "part", (r.2.runs laterActions).nodes.get? "field")) =
        some (some 1, some 3) := by
    decide +kernel
  obtain ⟨t, ht, hfields⟩ := Option.map_eq_some_iff.1 hpart
  obtain ⟨hroot, hfield⟩ := Prod.mk.inj hfields
  obtain ⟨⟨reply, s₁⟩, hact, hshown⟩ := Option.map_eq_some_iff.1 hrest
  rw [hact, Option.map_some, Option.some.injEq] at hnames
  obtain ⟨hpartNamed, hfieldNamed⟩ := Prod.mk.inj hnames
  have houtward : ∀ a ∈ laterActions, a.Asks Command.isOutward := by
    simp [laterActions, Action.command, Action.Asks, Command.isOutward, Command.isDataOnly]
  obtain ⟨hdataOnly, hfree⟩ := dataOnly_without_part hact
  obtain ⟨-, hnamed⟩ := released_view_is_frozen hreachable ht (.inr rfl) hact hdataOnly (hfree t.ids)
    (onward_runs s₁ laterActions houtward)
  have hin : 1 ∈ t.ids := hroot ▸ Tree.mem_ids_of_find? t.find?_self
  obtain ⟨hview, -⟩ := hnamed "part" 1 hpartNamed hin
  obtain ⟨-, hfire⟩ := hnamed "field" 3 hfieldNamed (List.contains_iff_mem.1 hfield)
  obtain ⟨s₃, hs₃, hworld, -⟩ := hfire (invoke depth) "input"
  have hself : Tree.find? 1 (View.released t) = some (View.released t) := by
    have hid : (View.released t).id = 1 := (View.id_released t).trans hroot
    exact hid ▸ Tree.find?_self _
  exact ⟨t, reply, s₁, ht, hact, hshown, hview.trans hself, s₃, hs₃, hworld⟩

/-! ## A guard that was taken away -/

/-- A view is bound, and the guards of its paragraph are kept as a list. -/
def keptList : List Action :=
  [.command (.handle (.build "root" (.element "div" [] [.element "p" [⟨"v-text", "name"⟩] []]))),
    .command (.bind (.compile "root" {} .standard)),
    .command (.handle (.find "text" "root" (some "p") 0)),
    .command (.ending (.take "text" "kept"))]

/-- **A view that is not frozen** once it is released: while the list is kept, the paragraph shows what
is set. -/
theorem kept_guard_still_shows :
    let s := (start (.ofMembers [("name", .string "Ada")]) []).runs keptList
    ∃ reply s₁ s₂, act (invoke depth) none (.command (.ending (.release "root"))) s = some (reply, s₁) ∧
      s₁.DataOnly ∧ act (invoke depth) none (.command (.set "name" (.string "Bea"))) s₁ = some s₂ ∧
      s₁.outer? "root" = some "<div><p v-text=\"name\">Ada</p></div>" ∧
      s₂.2.outer? "root" = some "<div><p v-text=\"name\">Bea</p></div>" := by
  intro s
  have hshown : ((act (invoke depth) none (.command (.ending (.release "root"))) s).bind fun r =>
      (act (invoke depth) none (.command (.set "name" (.string "Bea"))) r.2).map fun r' =>
        (r.2.outer? "root", r'.2.outer? "root")) =
      some (some "<div><p v-text=\"name\">Ada</p></div>",
        some "<div><p v-text=\"name\">Bea</p></div>") := by
    decide +kernel
  have hobservers : ((act (invoke depth) none (.command (.ending (.release "root"))) s).map fun r =>
      r.2.world.stores.all fun st => st.observers.all fun row =>
        row.2.all fun entry => entry.2.target?.isSome) = some true := by
    decide +kernel
  have hlisteners : ((act (invoke depth) none (.command (.ending (.release "root"))) s).map fun r =>
      (Forest.nodes r.2.world.forest).all fun x => x.2.listeners.isEmpty) = some true := by
    decide +kernel
  obtain ⟨⟨reply, s₁⟩, hact, hlater⟩ := Option.bind_eq_some_iff.1 hshown
  obtain ⟨s₂, hset, houter⟩ := Option.map_eq_some_iff.1 hlater
  obtain ⟨hbefore, hafter⟩ := Prod.mk.inj houter
  rw [hact, Option.map_some, Option.some.injEq] at hobservers hlisteners
  refine ⟨reply, s₁, s₂, hact, dataOnly_of_targets hobservers fun x hx r hr => ?_, hset, hbefore, hafter⟩
  rw [List.isEmpty_iff.1 (List.all_eq_true.1 hlisteners x hx)] at hr
  exact absurd hr List.not_mem_nil

end Session

end ViewBinding
