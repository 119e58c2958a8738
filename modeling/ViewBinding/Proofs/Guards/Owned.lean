import ViewBinding.Proofs.Store.Succession
import ViewBinding.Proofs.Tree.Rearranging

/-!
# Who owns a subscription

The subscription of an observer that keeps a view up to date belongs to a guard, and the guard to a
node or to a list.  `Stores.Owned` says that among some guards each such subscription has exactly one:
no guard is there twice, each was issued by its store, and no observer is without.  Ending what a
guard stands for takes both away at once (`Owned.endGuard`), so nothing is ever left to no one.

`Accounted` adds where the guards are: a node holds only guards of observers that show their value at
this node and no other (`Stores.Aims`), so `Accounted.home` finds the guard of such an observer at its
node, or in a list.  It looks at a view through its *ledger*, the numbers of the nodes with the guards
that each of them holds; the order in a ledger is no matter (`Accounted.perm`).
-/

namespace ViewBinding

open Json (Value)
open List

variable {κ : Type}

/-- Whether an observer is a client that holds its subscription itself (`Observer.client`). -/
def Observer.isClient : Observer κ → Bool
  | .client _ => true
  | _ => false

/-- The node at which an observer shows its value. -/
def Observer.target? : Observer κ → Option NodeId
  | .content n => some n
  | .field n => some n
  | .marker n _ _ => some n
  | .client _ => none
  | .retained _ => none

theorem Observer.isClient_of_target? {observer : Observer κ} {n : NodeId}
    (h : observer.target? = some n) : observer.isClient = false := by
  cases observer with
  | client code => exact absurd h (by simp [target?])
  | _ => rfl

namespace Stores

/-- Every subscription but those that clients hold (`isClient`) has one of the guards, and no other. -/
structure Owned (stores : Stores κ) (guards : List Guard) : Prop where
  unique : guards.Nodup
  issued : ∀ g ∈ guards, ∃ st : Store κ, stores[g.store]? = some st ∧ g.subscription.id < st.nextId
  held : ∀ (id : StoreId) (st : Store κ), stores[id]? = some st → ∀ key,
    ∀ entry ∈ st.observersOf key, entry.2.isClient = false → ⟨id, entry.1, key⟩ ∈ guards

variable {stores : Stores κ} {guards more : List Guard} {g : Guard}

namespace Owned

theorem perm (h : stores.Owned guards) (hperm : guards ~ more) : stores.Owned more where
  unique := hperm.nodup_iff.1 h.unique
  issued g hg := h.issued g (hperm.symm.subset hg)
  held id st hst key entry hentry hclient := hperm.subset (h.held id st hst key entry hentry hclient)

/-- What was issued stays issued when a store changes without losing count (`nextId`). -/
theorem issued_update (h : stores.Owned guards) (id : StoreId) {f : Store κ → Store κ}
    (hf : ∀ st, st.nextId ≤ (f st).nextId) : ∀ g ∈ guards, ∃ st : Store κ,
      (stores.update id f)[g.store]? = some st ∧ g.subscription.id < st.nextId := by
  intro g hg
  obtain ⟨st, hst, hlt⟩ := h.issued g hg
  refine ⟨if id = g.store then f st else st, by rw [getElem?_update, hst]; rfl, ?_⟩
  split
  · exact Nat.lt_of_lt_of_le hlt (hf st)
  · exact hlt

/-- Every observer that a store has after a change is one that it had before. -/
theorem update (h : stores.Owned guards) (id : StoreId) {f : Store κ → Store κ}
    (hnext : ∀ st, st.nextId ≤ (f st).nextId)
    (hf : ∀ st key, ∀ entry ∈ (f st).observersOf key,
      entry.2.isClient = true ∨ entry ∈ st.observersOf key) :
    (stores.update id f).Owned guards where
  unique := h.unique
  issued := h.issued_update id hnext
  held other st hst key entry hentry hclient := by
    rw [getElem?_update, Option.map_eq_some_iff] at hst
    obtain ⟨old, hold, rfl⟩ := hst
    refine h.held other old hold key entry ?_ hclient
    split at hentry
    · exact (hf old key entry hentry).resolve_left (by simp [hclient])
    · exact hentry

theorem write (h : stores.Owned guards) (id : StoreId) (key : String) (value : Value) :
    (stores.update id (·.write key value)).Owned guards :=
  h.update id (fun _ => Nat.le_refl _) fun _ _ _ hentry => Or.inr hentry

theorem unsubscribe (h : stores.Owned guards) (id : StoreId) (sub : Subscription) :
    (stores.update id (·.unsubscribe sub)).Owned guards :=
  h.update id (fun st => Nat.le_of_eq (st.nextId_unsubscribe sub).symm) fun st key _ hentry =>
    Or.inr ((st.observersOf_unsubscribe_sublist sub key).subset hentry)

/-- A client that subscribes for itself needs no guard (`subscribe`). -/
theorem observe (h : stores.Owned guards) (id : StoreId) (key : String) (code : κ) :
    (stores.update id (·.subscribe key (.client code))).Owned guards := by
  refine h.update id (fun st => Nat.le_succ _) fun st other entry hentry => ?_
  rw [Store.observersOf_subscribe, List.mem_append] at hentry
  rcases hentry with hentry | hentry
  · exact Or.inr hentry
  · split at hentry
    · exact Or.inl (List.mem_singleton.1 hentry ▸ rfl)
    · exact absurd hentry (by simp)

theorem append (h : stores.Owned guards) (v : Value) :
    (stores ++ [(Store.ofValue v : Store κ)]).Owned guards where
  unique := h.unique
  issued g hg := by
    obtain ⟨st, hst, hlt⟩ := h.issued g hg
    have hbound := (List.getElem?_eq_some_iff.1 hst).1
    exact ⟨st, by rw [List.getElem?_append_left hbound, hst], hlt⟩
  held id st hst key entry hentry hclient := by
    rcases Nat.lt_or_ge id stores.length with hlt | hge
    · rw [List.getElem?_append_left hlt] at hst
      exact h.held id st hst key entry hentry hclient
    · rw [List.getElem?_append_right hge] at hst
      have hmem := List.mem_of_getElem? hst
      rw [List.mem_singleton.1 hmem] at hentry
      cases v <;> exact absurd hentry (by simp [Store.ofValue, Store.observersOf])

/-- A subscription with a guard of its own, as `Wiring.watch` makes it. -/
theorem watch (h : stores.Owned guards) {id : StoreId} {st : Store κ} (hst : stores[id]? = some st)
    (key : String) (observer : Observer κ) :
    (stores.update id (·.subscribe key observer)).Owned (⟨id, st.nextSubscription key⟩ :: guards) where
  unique := by
    refine List.nodup_cons.2 ⟨fun hin => ?_, h.unique⟩
    obtain ⟨st', hst', hlt⟩ := h.issued _ hin
    obtain rfl : st = st' := Option.some.inj (hst.symm.trans hst')
    exact Nat.lt_irrefl _ hlt
  issued g hg := by
    rcases List.mem_cons.1 hg with rfl | hg
    · refine ⟨st.subscribe key observer, ?_, Nat.lt_succ_self _⟩
      rw [getElem?_update, hst, Option.map_some, if_pos rfl]
    · exact h.issued_update id (fun _ => Nat.le_succ _) g hg
  held other st' hst' key' entry hentry hclient := by
    rw [getElem?_update, Option.map_eq_some_iff] at hst'
    obtain ⟨old, hold, rfl⟩ := hst'
    split at hentry
    · next heq =>
      subst heq
      obtain rfl : st = old := Option.some.inj (hst.symm.trans hold)
      rw [Store.observersOf_subscribe, List.mem_append] at hentry
      rcases hentry with hentry | hentry
      · exact List.mem_cons_of_mem _ (h.held id st hst key' entry hentry hclient)
      · split at hentry
        · next hkey =>
          rw [List.mem_singleton.1 hentry, hkey]
          exact List.mem_cons_self
        · exact absurd hentry (by simp)
    · exact List.mem_cons_of_mem _ (h.held other old hold key' entry hentry hclient)

/-- Ending what a guard stands for takes the observer away with the guard (`endGuard`). -/
theorem endGuard (h : stores.Owned (g :: guards)) : (stores.endGuard g).Owned guards := by
  obtain ⟨hnot, hunique⟩ := List.nodup_cons.1 h.unique
  have hall := h.unsubscribe g.store g.subscription
  refine ⟨hunique, fun g' hg' => hall.issued g' (List.mem_cons_of_mem g hg'), ?_⟩
  intro id st hst key entry hentry hclient
  refine (List.mem_cons.1 (hall.held id st hst key entry hentry hclient)).resolve_left ?_
  rintro rfl
  -- the observer that the guard stood for is gone
  rw [Stores.endGuard, getElem?_update, Option.map_eq_some_iff] at hst
  obtain ⟨old, -, rfl⟩ := hst
  rw [if_pos rfl] at hentry
  simp [Store.observersOf_unsubscribe_self old ⟨entry.1, key⟩] at hentry

theorem endGuards (h : stores.Owned (guards ++ more)) : (stores.endGuards guards).Owned more := by
  induction guards generalizing stores with
  | nil => exact h
  | cons g gs ih => exact ih h.endGuard

/-- The number of an observer that shows its value at a node was given out. -/
theorem lt_of_target? (h : stores.Owned guards) {id : StoreId} {st : Store κ}
    (hst : stores[id]? = some st) {key : String} {entry : Nat × Observer κ}
    (hentry : entry ∈ st.observersOf key) {n : NodeId} (hn : entry.2.target? = some n) :
    entry.1 < st.nextId := by
  obtain ⟨st', hst', hlt⟩ :=
    h.issued _ (h.held id st hst key entry hentry (Observer.isClient_of_target? hn))
  rwa [Option.some.inj (hst.symm.trans hst')]

end Owned

/-- Whether the observer of a guard, if it shows its value at a node (`target?`), does so at the given one.
-/
def Aims (stores : Stores κ) (i : NodeId) (g : Guard) : Prop :=
  ∀ st : Store κ, stores[g.store]? = some st → ∀ entry ∈ st.observersOf g.subscription.key,
    entry.1 = g.subscription.id → ∀ n, entry.2.target? = some n → n = i

/-- The stores are all there still, whatever became of them. -/
def Last (stores later : Stores κ) : Prop :=
  ∀ (id : StoreId) (st : Store κ), stores[id]? = some st →
    ∃ st' : Store κ, later[id]? = some st' ∧ st.Becomes st'

variable {later : Stores κ}

theorem Rewired.last (h : stores.Rewired later) : stores.Last later := fun id st hst =>
  let ⟨st', hst', hbecomes, _⟩ := h.kept id st hst
  ⟨st', hst', hbecomes⟩

theorem last_update (stores : Stores κ) (id : StoreId) {f : Store κ → Store κ}
    (hf : ∀ st, Store.Becomes st (f st)) : stores.Last (stores.update id f) := by
  intro other st hst
  refine ⟨if id = other then f st else st, by rw [getElem?_update, hst]; rfl, ?_⟩
  split
  · exact hf st
  · exact Store.Becomes.refl st

/-- The number of a new subscription belongs to the new observer only, whose `target?` is the node of the
guard. -/
theorem Owned.aims_subscribe (h : stores.Owned guards) {id : StoreId} {st : Store κ}
    (hst : stores[id]? = some st) (key : String) {observer : Observer κ} {i : NodeId}
    (haim : ∀ n, observer.target? = some n → n = i) :
    (stores.update id (·.subscribe key observer)).Aims i ⟨id, st.nextSubscription key⟩ := by
  intro st' hst' entry hentry hid
  rw [getElem?_update, hst, Option.map_some, if_pos rfl] at hst'
  obtain rfl : st.subscribe key observer = st' := Option.some.inj hst'
  have hentry : entry ∈ st.observersOf key ++ [(st.nextId, observer)] :=
    st.observersOf_subscribe_self key observer ▸ hentry
  rcases List.mem_append.1 hentry with hold | hnew
  · exact fun n hn => absurd hid (Nat.ne_of_lt (h.lt_of_target? hst hold hn))
  · rw [List.mem_singleton.1 hnew]
    exact haim

/-- The observer of a guard that was issued stays what it is. -/
theorem Owned.aims (h : stores.Owned guards) (hlast : stores.Last later) (hg : g ∈ guards)
    {i : NodeId} (haims : stores.Aims i g) : later.Aims i g := by
  intro st' hst' entry hentry hid
  obtain ⟨st, hst, hlt⟩ := h.issued g hg
  obtain ⟨st₁, hst₁, hbecomes⟩ := hlast g.store st hst
  obtain rfl : st' = st₁ := Option.some.inj (hst'.symm.trans hst₁)
  exact haims st hst entry (hbecomes.mem_of_lt hentry (hid ▸ hlt)) hid

end Stores

/-! ## Ledgers -/

/-- Numbers of nodes, with the guards that each node holds (`subscription_count`). -/
abbrev Ledger := List (NodeId × List Guard)

/-- The guards in a ledger. -/
def Ledger.guards (l : Ledger) : List Guard := l.flatMap Prod.snd

/-- The ledger of nodes that hold nothing. -/
def Ledger.cleared (l : Ledger) : Ledger := l.map fun x => (x.1, [])

namespace Ledger

@[simp] theorem guards_nil : guards [] = [] := rfl

@[simp] theorem guards_cons (i : NodeId) (gs : List Guard) (l : Ledger) :
    guards ((i, gs) :: l) = gs ++ guards l := rfl

@[simp] theorem guards_append (a b : Ledger) : guards (a ++ b) = guards a ++ guards b :=
  List.flatMap_append

@[simp] theorem guards_cleared (l : Ledger) : l.cleared.guards = [] := by
  simp [guards, cleared, List.flatMap_eq_nil_iff]

theorem ids_cleared (l : Ledger) : l.cleared.map Prod.fst = l.map Prod.fst := by
  simp [cleared]

end Ledger

namespace View

/-- The ledger of a row of views (`Node.guards`). -/
def ledger (row : Forest (Node κ)) : Ledger :=
  (Forest.nodes row).map fun x => (x.1, x.2.guards)

@[simp] theorem ledger_nil : ledger ([] : Forest (Node κ)) = [] := by
  simp [ledger, Forest.nodes]

@[simp] theorem ledger_append (a b : Forest (Node κ)) : ledger (a ++ b) = ledger a ++ ledger b := by
  simp [ledger, Forest.nodes_append]

theorem ledger_cons (t : View κ) (ts : Forest (Node κ)) :
    ledger (t :: ts) = ledger [t] ++ ledger ts :=
  ledger_append [t] ts

@[simp] theorem ledger_node (id : NodeId) (n : Node κ) (row ts : List (View κ)) :
    ledger (.node id n row :: ts) = (id, n.guards) :: (ledger row ++ ledger ts) := by
  simp [ledger, Forest.nodes, Tree.nodes]

theorem guards_ledger (t : View κ) : (ledger [t]).guards = t.guards := by
  simp [ledger, Forest.nodes_singleton, Ledger.guards, View.guards, List.flatMap_map]

theorem ids_ledger (row : Forest (Node κ)) : (ledger row).map Prod.fst = Forest.ids row := by
  simp [ledger, Forest.ids]

theorem ledger_perm {a b : Forest (Node κ)} (h : Forest.nodes a ~ Forest.nodes b) :
    ledger a ~ ledger b :=
  h.map _

/-- What a row becomes when something is put in the place of a subtree (`expand`). -/
theorem ledger_expand {ts : Forest (Node κ)} {n : NodeId} {t : View κ} (hd : ts.Distinct)
    (h : ts.find? n = some t) (f : View κ → Forest (Node κ)) :
    ledger (ts.expand n f) ~ ledger (f t) ++ ledger (ts.erase n) := by
  have hnodes := (Forest.nodes_expand f hd h).map fun x => (x.1, x.2.guards)
  rwa [List.map_append] at hnodes

theorem ledger_of_find? {ts : Forest (Node κ)} {n : NodeId} {t : View κ} (hd : ts.Distinct)
    (h : ts.find? n = some t) : ledger ts ~ ledger [t] ++ ledger (ts.erase n) := by
  have hself := ledger_expand hd h fun s => [s]
  rwa [Forest.expand_self] at hself

theorem guards_subset_of_find? {ts : Forest (Node κ)} {n : NodeId} {t : View κ} (hd : ts.Distinct)
    (h : ts.find? n = some t) : (ledger [t]).guards ⊆ (ledger ts).guards := by
  intro g hg
  refine ((ledger_of_find? hd h).flatMap_right Prod.snd).symm.subset ?_
  rw [List.flatMap_append]
  exact List.mem_append_left _ hg

/-- A row with nothing that binds it (`Node.release`) has a ledger that is `cleared`. -/
theorem ledger_released (row : Forest (Node κ)) :
    ledger (Forest.map Node.release row) = (ledger row).cleared := by
  simp [ledger, Forest.nodes_map, Ledger.cleared, Node.release]

end View

/-! ## Accounts -/

/-- Views with the given ledger, and lists with the given guards, account for all subscriptions that
clients do not hold themselves (`Owned`); a node holds what shows its value there; and all numbers of nodes
differ and are used up. -/
structure Accounted (l : Ledger) (kept : List Guard) (stores : Stores κ) (next : NodeId) : Prop where
  distinct : (l.map Prod.fst).Nodup
  below : ∀ x ∈ l, x.1 < next
  owned : stores.Owned (l.guards ++ kept)
  aimed : ∀ x ∈ l, ∀ g ∈ x.2, stores.Aims x.1 g

namespace Accounted

variable {l l' rest : Ledger} {kept : List Guard} {stores : Stores κ} {next : NodeId}

/-- The guards of a node stay aimed at it, whatever becomes of the stores. -/
theorem aims (h : Accounted l kept stores next) {later : Stores κ} (hlast : stores.Last later)
    {x : NodeId × List Guard} (hx : x ∈ l) {g : Guard} (hg : g ∈ x.2) : later.Aims x.1 g :=
  h.owned.aims hlast (List.mem_append_left _ (List.mem_flatMap.2 ⟨x, hx, hg⟩)) (h.aimed x hx g hg)

/-- **Where the guard of an observer is** that shows its value at a node: at that node, or in a list that
`take_subscriptions` filled. -/
theorem home (h : Accounted l kept stores next) {id : StoreId} {st : Store κ}
    (hst : stores[id]? = some st) {key : String} {entry : Nat × Observer κ}
    (hentry : entry ∈ st.observersOf key) {n : NodeId} (hn : entry.2.target? = some n) :
    ⟨id, entry.1, key⟩ ∈ kept ∨ ∃ gs, (n, gs) ∈ l ∧ ⟨id, entry.1, key⟩ ∈ gs := by
  have hheld := h.owned.held id st hst key entry hentry (Observer.isClient_of_target? hn)
  rcases List.mem_append.1 hheld with hin | hin
  · obtain ⟨⟨i, gs⟩, hx, hg⟩ := List.mem_flatMap.1 hin
    obtain rfl : n = i := h.aimed _ hx _ hg st hst entry hentry rfl n hn
    exact Or.inr ⟨gs, hx, hg⟩
  · exact Or.inl hin

theorem perm (h : Accounted l kept stores next) (hperm : l ~ l') : Accounted l' kept stores next where
  distinct := (hperm.map Prod.fst).nodup_iff.1 h.distinct
  below x hx := h.below x (hperm.symm.subset hx)
  owned := h.owned.perm ((hperm.flatMap_right _).append_right _)
  aimed x hx := h.aimed x (hperm.symm.subset hx)

theorem le (h : Accounted l kept stores next) {next' : NodeId} (hle : next ≤ next') :
    Accounted l kept stores next' :=
  ⟨h.distinct, fun x hx => Nat.lt_of_lt_of_le (h.below x hx) hle, h.owned, h.aimed⟩

/-- New nodes with the next numbers. -/
theorem fresh (h : Accounted l kept stores next) (new : Ledger) (count : Nat)
    (hids : new.map Prod.fst = List.range' next count) (hclear : new.guards = []) :
    Accounted (new ++ l) kept stores (next + count) where
  distinct := by
    rw [List.map_append, hids, List.nodup_append]
    refine ⟨List.nodup_range', h.distinct, fun i hi j hj => ?_⟩
    obtain ⟨x, hx, rfl⟩ := List.mem_map.1 hj
    exact Nat.ne_of_gt (Nat.lt_of_lt_of_le (h.below x hx) (List.mem_range'_1.1 hi).1)
  below x hx := by
    rcases List.mem_append.1 hx with hx | hx
    · have hin : x.1 ∈ List.range' next count := hids ▸ List.mem_map_of_mem hx
      exact (List.mem_range'_1.1 hin).2
    · exact Nat.lt_of_lt_of_le (h.below x hx) (Nat.le_add_right _ _)
  owned := by
    rw [Ledger.guards_append, hclear, List.nil_append]
    exact h.owned
  aimed x hx g hg := by
    rcases List.mem_append.1 hx with hx | hx
    · have hin : g ∈ new.guards := List.mem_flatMap.2 ⟨x, hx, hg⟩
      rw [hclear] at hin
      exact absurd hin List.not_mem_nil
    · exact h.aimed x hx g hg

/-- A node that was given the guard of a new subscription (`Wiring.watch`), by an observer that shows its
value there if anywhere. -/
theorem watch {i : NodeId} {gs : List Guard} (h : Accounted ((i, gs) :: l) kept stores next)
    {id : StoreId} {st : Store κ} (hst : stores[id]? = some st) (key : String)
    {observer : Observer κ} (haim : ∀ n, observer.target? = some n → n = i) :
    Accounted ((i, gs ++ [⟨id, st.nextSubscription key⟩]) :: l) kept
      (stores.update id (·.subscribe key observer)) next where
  distinct := h.distinct
  below x hx := by
    rcases List.mem_cons.1 hx with rfl | hx
    · exact h.below (i, gs) List.mem_cons_self
    · exact h.below x (List.mem_cons_of_mem _ hx)
  owned := by
    refine (h.owned.watch hst key observer).perm ?_
    simp only [Ledger.guards_cons, List.append_assoc, List.singleton_append]
    exact perm_middle.symm
  aimed x hx g hg := by
    have hlast := (Stores.rewired_subscribe stores id key observer).last
    rcases List.mem_cons.1 hx with rfl | hx
    · rcases List.mem_append.1 hg with hg | hg
      · exact h.aims hlast List.mem_cons_self hg
      · rw [List.mem_singleton.1 hg]
        exact h.owned.aims_subscribe hst key haim
    · exact h.aims hlast (List.mem_cons_of_mem _ hx) hg

/-- Nodes whose guards were ended (`release_subtree`). -/
theorem clear (h : Accounted (l ++ rest) kept stores next) :
    Accounted (l.cleared ++ rest) kept (stores.endGuards l.guards) next where
  distinct := by
    rw [List.map_append, Ledger.ids_cleared, ← List.map_append]
    exact h.distinct
  below x hx := by
    rcases List.mem_append.1 hx with hx | hx
    · obtain ⟨y, hy, rfl⟩ := List.mem_map.1 hx
      exact h.below y (List.mem_append_left _ hy)
    · exact h.below x (List.mem_append_right _ hx)
  owned := by
    rw [Ledger.guards_append, Ledger.guards_cleared, List.nil_append]
    refine Stores.Owned.endGuards ?_
    rw [← List.append_assoc, ← Ledger.guards_append]
    exact h.owned
  aimed x hx g hg := by
    rcases List.mem_append.1 hx with hx | hx
    · obtain ⟨y, -, rfl⟩ := List.mem_map.1 hx
      exact absurd hg List.not_mem_nil
    · exact h.aims (Stores.rewired_endGuards _ stores).last (List.mem_append_right _ hx) hg

/-- Nodes that are no more, after their guards were ended (`sweep`). -/
theorem drop (h : Accounted (l ++ rest) kept stores next) :
    Accounted rest kept (stores.endGuards l.guards) next := by
  obtain ⟨hd, hb, ho, ha⟩ := h.clear
  rw [List.map_append, List.nodup_append] at hd
  rw [Ledger.guards_append, Ledger.guards_cleared, List.nil_append] at ho
  exact ⟨hd.2.1, fun x hx => hb x (List.mem_append_right _ hx), ho,
    fun x hx => ha x (List.mem_append_right _ hx)⟩

end Accounted

end ViewBinding
