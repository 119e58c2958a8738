import ViewBinding.Proofs.Compile.Rendering
import ViewBinding.Proofs.Guards.Worlds
import ViewBinding.Proofs.Session.Invariants
import ViewBinding.Proofs.Table.Ordered

/-!
# No subscription is leaked, and none is owned twice

Every action keeps the accounts of a session (`Session.Accounted.run`): whatever is built, moved,
bound, released, dropped or told, each subscription that a client does not hold itself has one guard,
in the forest or in a kept list.  Between two actions the forest is what names refer to, so the guard
is held by a node below a named one, or by a list (`guard_unique`).
-/

namespace ViewBinding

open Json (Value)
open List

namespace Session

/-! ## The accounts of a session -/

/-- The guards in the kept lists, which `take_subscriptions` took from nodes. -/
def keptGuards (s : Session) : List Guard := s.guards.flatMap Prod.snd

/-- All guards there are: those that nodes hold (`View.ledger`), and those in the kept lists. -/
def allGuards (s : Session) : List Guard := (View.ledger s.world.forest).guards ++ s.keptGuards

/-- A session in good order: its forest and its kept lists account for all subscriptions that clients do
not hold themselves (`World.Accounted`), and names of nodes and lists stand for one thing each. -/
structure Accounted (s : Session) : Prop where
  world : s.world.Accounted s.keptGuards
  nodes : s.nodes.Ordered
  guards : s.guards.Ordered

theorem accounted_start (model : Value) (methods : List (String × Client)) :
    (start model methods).Accounted where
  world :=
    { distinct := by simp [start]
      below := fun x hx => absurd hx (by simp [start])
      owned :=
        { unique := by simp [start, keptGuards]
          issued := fun g hg => absurd hg (by simp [start, keptGuards])
          held := fun id st hst key entry hentry => by
            rw [List.mem_singleton.1 (List.mem_of_getElem? hst)] at hentry
            cases model <;> exact absurd hentry (by simp [Store.ofValue, Store.observersOf]) }
      aimed := fun x hx => absurd hx (by simp [start]) }
  nodes := Table.ordered_nil
  guards := Table.ordered_nil

namespace Accounted

variable {s : Session}

/-- Only the world and the names of nodes and lists matter. -/
theorem of_eq {s' : Session} (h : s.Accounted) (hworld : s'.world = s.world)
    (hnodes : s'.nodes = s.nodes) (hguards : s'.guards = s.guards) : s'.Accounted := by
  refine ⟨?_, hnodes ▸ h.nodes, hguards ▸ h.guards⟩
  rw [keptGuards, hworld, hguards]
  exact h.world

theorem withWorld (h : s.Accounted) {w : World Client} (hw : w.Accounted s.keptGuards) :
    ({ s with world := w } : Session).Accounted :=
  ⟨hw, h.nodes, h.guards⟩

theorem changeStores (h : s.Accounted) {f : Stores Client → Stores Client}
    (hlast : s.world.stores.Last (f s.world.stores))
    (hf : ∀ {gs}, s.world.stores.Owned gs → (f s.world.stores).Owned gs) :
    (s.changeStores f).Accounted :=
  h.withWorld (h.world.of_stores hlast (hf h.world.owned))

theorem changeForest (h : s.Accounted) {f : Forest (Node Client) → Forest (Node Client)}
    (hf : (f s.world.forest).nodes ~ s.world.forest.nodes) : (s.changeForest f).Accounted :=
  h.withWorld (h.world.of_perm hf)

theorem changeNode (h : s.Accounted) (n : NodeId) {f : Node Client → Node Client}
    (hf : ∀ m, (f m).guards = m.guards) : (s.changeNode n f).Accounted :=
  h.withWorld (h.world.updateNode n hf)

theorem changeAt (h : s.Accounted) {name : String} {f : View Client → Reply × Session}
    (hf : ∀ t, s.view? name = some t → (f t).2.Accounted) : (s.changeAt name f).2.Accounted :=
  changeAt_rule h hf

theorem assign? (h : s.Accounted) (name : String) (n : Option NodeId) :
    (s.assign? name n).2.Accounted := by
  cases n with
  | none => exact h
  | some n => exact ⟨h.world, h.nodes.insert name n, h.guards⟩

/-! ## The kept lists -/

theorem keptGuards_perm (h : s.Accounted) (name : String) :
    s.keptGuards ~ s.guardsOf name ++ (s.guards.erase name).flatMap Prod.snd := by
  unfold keptGuards guardsOf
  cases hget : s.guards.get? name with
  | none => rw [Table.erase_of_get?_none hget]; exact Perm.refl _
  | some list => exact (h.guards.perm_of_get? hget).flatMap_right _

/-- A list of guards was ended and forgotten (`Ending.dropGuards`). -/
theorem dropGuards (h : s.Accounted) (name : String) :
    ({ s.changeStores (·.endGuards (s.guardsOf name)) with
      guards := s.guards.erase name } : Session).Accounted := by
  have hsplit := h.world.of_stores (Stores.Rewired.refl _).last
    (h.world.owned.perm ((h.keptGuards_perm name).append_left _))
  exact ⟨hsplit.endGuards, h.nodes, h.guards.erase name⟩

/-- The guards of a node were taken, and kept in the place of an older list. -/
theorem take (h : s.Accounted) {n : NodeId} {t : View Client}
    (ht : s.world.forest.find? n = some t) (name : String) :
    ({ (({ s with world := s.world.updateNode n (·.clearGuards) }).changeStores
        (·.endGuards (s.guardsOf name))) with
      guards := s.guards.insert name t.val.guards } : Session).Accounted := by
  have htaken := h.world.take ht
  have hkept : t.val.guards ++ s.keptGuards ~ s.guardsOf name ++
      (s.guards.insert name t.val.guards).flatMap Prod.snd := by
    refine (((h.keptGuards_perm name).append_left _).trans (perm_append_comm_assoc _ _ _)).trans ?_
    exact (((h.guards.perm_insert name t.val.guards).flatMap_right Prod.snd).symm).append_left _
  have hsplit := htaken.of_stores (Stores.Rewired.refl _).last
    (htaken.owned.perm (hkept.append_left _))
  exact ⟨hsplit.endGuards, h.nodes, h.guards.insert name t.val.guards⟩

/-! ## One step -/

theorem handle (h : s.Accounted) (x : Handle) : (s.handle x).2.Accounted := by
  have hbuild : ∀ name m, (s.build name m).2.Accounted := fun name m =>
    (h.withWorld (h.world.build m)).assign? name _
  cases x with
  | build name m => exact hbuild name m
  | parse name markup =>
    simp only [Session.handle]
    split
    · exact hbuild name _
    · exact h
  | child name node index => exact h.changeAt fun t _ => h.assign? name _
  | find name node tag nth => exact h.changeAt fun t _ => h.assign? name _
  | parent name node => exact h.changeAt fun t _ => h.assign? name _
  | drop name => exact ⟨h.world, h.nodes.erase name, h.guards⟩

theorem edit (h : s.Accounted) (e : Edit) : (s.edit e).2.Accounted := by
  have hd := h.world.distinct
  cases e with
  | setAttribute node name value =>
    exact h.changeAt fun t _ => h.changeNode _ fun m => m.guards_setAttribute _ _
  | append node child =>
    exact h.changeAt fun t _ => h.changeAt fun c _ =>
      h.changeForest (Forest.nodes_append_child hd t.id c.id)
  | insertBefore node child reference =>
    exact h.changeAt fun t _ => h.changeAt fun c _ => h.changeAt fun r _ =>
      h.changeForest (Forest.nodes_insertBefore hd t.id c.id r.id)
  | remove node child =>
    exact h.changeAt fun t _ => h.changeAt fun c _ =>
      h.changeForest (Forest.nodes_remove hd t.id c.id)
  | detach node => exact h.changeAt fun t _ => h.changeForest (Forest.nodes_detach hd t.id)
  | setPayload node text =>
    exact h.changeAt fun t _ => h.changeNode _ fun m => m.guards_setPayload _
  | setValue node text =>
    exact h.changeAt fun t _ => h.changeNode _ fun m => m.guards_setValue _
  | setText node text => exact h.changeAt fun t _ => h.withWorld (h.world.setText t.id text)
  | unlisten node name =>
    refine h.changeAt fun t _ => ?_
    split
    · exact h
    · exact h.changeNode _ fun _ => rfl
  | clearListeners node => exact h.changeAt fun t _ => h.changeNode _ fun _ => rfl
  | visit node includingRoot v =>
    refine h.changeAt fun t _ => h.withWorld ?_
    have hkeeps := Visit.preserves_accounted (κ := Client) s.keptGuards
    cases includingRoot with
    | true => exact hkeeps.node v t h.world
    | false => exact hkeeps.rowOf v t.children h.world

theorem cancel (h : s.Accounted) (scope : Option StoreId) (sub : Subscription) :
    (s.cancel scope sub).2.Accounted :=
  h.changeStores (Stores.rewired_unsubscribe _ _ sub).last fun howned => howned.unsubscribe _ sub

theorem finish (h : s.Accounted) (scope : Option StoreId) (e : Ending) :
    (s.finish scope e).2.Accounted := by
  cases e with
  | unsubscribe name =>
    simp only [Session.finish]
    split
    · exact h
    · exact h.cancel scope _
  | cancel sub => exact h.cancel scope sub
  | take node name => exact h.changeAt fun t ht => h.take (view?_eq_some ht).2 name
  | releaseGuards name =>
    refine (h.dropGuards name).of_eq ?_ rfl rfl
    simp only [Session.finish, World.stores_giveUp]
    rfl
  | dropGuards name => exact h.dropGuards name
  | release node =>
    exact h.changeAt fun t _ => h.withWorld (h.world.release s.holdsStore t.id)

theorem bind (h : s.Accounted) (b : Bind) : (s.bind b).2.Accounted := by
  rw [bind_eq]
  exact h.withWorld (settlewise_bind World.settlewise_accounted s b _ h.world)

theorem observe (h : s.Accounted) (id : StoreId) (key : String) (code : Client) :
    (s.observe id key (.client code)).Accounted :=
  h.changeStores (Stores.rewired_subscribe _ id key _).last fun howned => howned.observe id key code

theorem step {s' : Session} (h : s.Accounted) (hstep : Step s s') : s'.Accounted := by
  cases hstep with
  | handle x => exact h.handle x
  | edit e => exact h.edit e
  | finish scope e => exact h.finish scope e
  | bind b => exact h.bind b
  | subscribe scope name key code =>
    simp only [Session.subscribe]
    split
    · exact h
    · exact (h.observe _ key code).of_eq rfl rfl rfl
  | listen node event name code =>
    exact h.changeAt fun t _ =>
      (h.changeNode t.id fun m => (rfl : (m.addListener event _).guards = m.guards)).of_eq rfl rfl rfl
  | retain scope node key code =>
    simp only [Session.retain]
    split
    · exact h.observe _ key code
    · exact h.withWorld (World.settlewise_accounted.retain s.world _ key code _ _ h.world)
  | newStore value =>
    exact (h.changeStores (f := (· ++ [Store.ofValue value]))
      (Stores.rewired_append _ value).last fun howned => howned.append value).of_eq rfl rfl rfl
  | refresh observer value =>
    exact h.withWorld (World.settlewise_accounted.refresh s.world observer value _ h.world)
  | sweep => exact h.withWorld (h.world.sweep s.holdsNode)
  | record x hx => exact h.of_eq rfl rfl rfl
  | begin x hx => exact h.of_eq rfl rfl rfl

/-! ## Runs -/

theorem move {s' : Session} (hmove : Move s s') (h : s.Accounted) : s'.Accounted := by
  cases hmove with
  | step hstep => exact h.step hstep
  | busy nodes stores => exact h.of_eq rfl rfl rfl
  | write store key value =>
    exact (h.changeStores (Stores.last_update _ store fun st => st.becomes_write key value)
      fun howned => howned.write store key value).of_eq rfl rfl rfl
  | told number store sub value => exact h.of_eq rfl rfl rfl
  | forget => exact h.of_eq rfl rfl rfl

/-- Every action keeps a session in good order. -/
theorem run (h : s.Accounted) (a : Action) : (s.run a).2.Accounted :=
  (moves_run s a).invariant move h

end Accounted

/-- All that can be reached from the start is in good order. -/
theorem Moves.accounted {model : Value} {methods : List (String × Client)} {s : Session}
    (h : Moves (start model methods) s) : s.Accounted :=
  h.invariant (fun hmove hs => hs.move hmove) (accounted_start model methods)

/-! ## Who holds a guard -/

/-- Whether a guard is held by a node that a name refers to, itself or through one above it, or by a
kept list. -/
def Holds (s : Session) (g : Guard) : Prop :=
  (∃ name t, s.view? name = some t ∧ ∃ x ∈ t.nodes, g ∈ x.2.guards) ∨ ∃ name, g ∈ s.guardsOf name

/-- Where every root has a name, all guards are held. -/
theorem Accounted.holds_iff {s : Session} (h : s.Accounted) (htended : s.Tended) {g : Guard} :
    s.Holds g ↔ g ∈ s.allGuards := by
  have hledger : g ∈ (View.ledger s.world.forest).guards ↔
      ∃ x ∈ Forest.nodes s.world.forest, g ∈ x.2.guards := by
    simp [Ledger.guards, View.ledger]
  rw [allGuards, List.mem_append, hledger]
  constructor
  · rintro (⟨name, t, ht, x, hx, hg⟩ | ⟨name, hg⟩)
    · have hin := (Forest.perm_of_find? h.world.distinct (view?_eq_some ht).2).symm.subset
        (List.mem_append_left _ hx)
      exact Or.inl ⟨x, hin, hg⟩
    · exact Or.inr ((h.keptGuards_perm name).symm.subset (List.mem_append_left _ hg))
  · rintro (⟨x, hx, hg⟩ | hg)
    · obtain ⟨t, ht, hxt⟩ := Forest.exists_root hx
      obtain ⟨name, hname⟩ := htended.named t ht
      refine Or.inl ⟨name, t, ?_, x, hxt, hg⟩
      rw [view?, h.nodes.get?_of_mem hname, Option.bind_some]
      exact Forest.find?_root h.world.distinct ht
    · obtain ⟨⟨name, list⟩, hlist, hg⟩ := List.mem_flatMap.1 hg
      refine Or.inr ⟨name, ?_⟩
      rw [guardsOf, h.guards.get?_of_mem hlist]
      exact hg

/-- **No subscription is leaked, and none is owned twice.**  After any actions, every observer that
is no client with a subscription of its own has exactly one guard, which is held by a node that a name
refers to, itself or through one above it, or by a kept list.  Once no guard that is held names a key,
and no client holds a subscription to it, the key has no observers. -/
theorem guard_unique (model : Value) (methods : List (String × Client)) (actions : List Action) :
    let s := (start model methods).runs actions
    ∀ (id : StoreId) (st : Store Client), s.world.stores[id]? = some st → ∀ key,
      (∀ entry ∈ st.observersOf key, entry.2.isClient = false →
        s.allGuards.count ⟨id, entry.1, key⟩ = 1 ∧ s.Holds ⟨id, entry.1, key⟩) ∧
      ((∀ entry ∈ st.observersOf key, entry.2.isClient = false) →
        (∀ g, s.Holds g → g.store = id → g.subscription.key ≠ key) → st.subscriberCount key = 0) := by
  intro s id st hst key
  have haccounted : s.Accounted :=
    runs_invariant (fun a h => h.run a) (accounted_start model methods) actions
  have htended : s.Tended := runs_invariant (fun a h => h.run a) (tended_start model methods) actions
  have howned : s.world.stores.Owned s.allGuards := haccounted.world.owned
  have hheld : ∀ entry ∈ st.observersOf key, entry.2.isClient = false →
      s.Holds ⟨id, entry.1, key⟩ := fun entry hentry hclient =>
    (haccounted.holds_iff htended).2 (howned.held id st hst key entry hentry hclient)
  refine ⟨fun entry hentry hclient => ⟨?_, hheld entry hentry hclient⟩, fun hclients hnone => ?_⟩
  · exact List.count_eq_one_of_mem howned.unique (howned.held id st hst key entry hentry hclient)
  · rw [Store.subscriberCount, List.length_eq_zero_iff, List.eq_nil_iff_forall_not_mem]
    exact fun entry hentry =>
      hnone _ (hheld entry hentry (hclients entry hentry)) rfl rfl

/-- A view is bound, the guards of its paragraph are kept as a list, and then the view dies. -/
def keptThenDropped : List Action :=
  [.command (.handle (.build "root" (.element "div" []
      [.element "p" [⟨"v-text", "name"⟩] [], .element "input" [⟨"v-model", "name"⟩] []]))),
    .command (.bind (.compile "root" {} .standard)),
    .command (.handle (.find "p" "root" (some "p") 0)),
    .command (.ending (.take "p" "kept")),
    .command (.handle (.drop "p")),
    .command (.handle (.drop "root"))]

/-- The observer of the paragraph is the only one left; its guard is in the list. -/
theorem kept_guard_is_unique :
    let s := (start (.ofMembers [("name", .string "Ada")]) []).runs keptThenDropped
    ∃ st observer, s.world.stores[0]? = some st ∧ st.observersOf "name" = [(0, observer)] ∧
      s.allGuards.count ⟨0, 0, "name"⟩ = 1 ∧ s.Holds ⟨0, 0, "name"⟩ := by
  intro s
  have hleft : (s.world.stores[0]?).map (fun st =>
      (st.observersOf "name").map fun entry => (entry.1, entry.2.isClient)) = some [(0, false)] := by
    decide +kernel
  obtain ⟨st, hst, hentries⟩ := Option.map_eq_some_iff.1 hleft
  obtain ⟨⟨number, observer⟩, hobservers, hentry⟩ := List.map_eq_singleton_iff.1 hentries
  obtain ⟨rfl, hclient⟩ := Prod.mk.inj hentry
  obtain ⟨hunique, -⟩ :=
    guard_unique (.ofMembers [("name", .string "Ada")]) [] keptThenDropped 0 st hst "name"
  obtain ⟨hcount, hholds⟩ := hunique (0, observer) (hobservers ▸ List.mem_cons_self) hclient
  exact ⟨st, observer, hst, hobservers, hcount, hholds⟩

end Session

end ViewBinding
