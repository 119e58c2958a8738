import ViewBinding.Proofs.Compile.Linking
import ViewBinding.Proofs.Guards.Sessions
import ViewBinding.Proofs.Session.Sound

/-!
# Release undoes compile

Where nothing binds a view, all guards in it after a pass are those of the plan, and the store has
the plan behind what it had before.  So releasing the view takes away just what the pass added
(`Session.release_undoes_compile`), and counts it (`World.count_releaseNodes`).
-/

namespace ViewBinding

open Json (Value)
open List

variable {κ : Type}

/-! ## What a release counts -/

/-- Whether the subscription that a guard stands for is registered. -/
def Stores.Registers (stores : Stores κ) (g : Guard) : Prop :=
  ∃ st : Store κ, stores[g.store]? = some st ∧ ∃ entry ∈ st.observersOf g.subscription.key,
    entry.1 = g.subscription.id

theorem Stores.Registers.endGuards {stores : Stores κ} {g : Guard} {gs : List Guard}
    (h : stores.Registers g) (hnot : g ∉ gs) : (stores.endGuards gs).Registers g := by
  obtain ⟨st, hst, entry, hentry, hid⟩ := h
  obtain ⟨st', hst', -, hobservers⟩ := observersOf_endGuards gs hst
  refine ⟨st', hst', entry, ?_, hid⟩
  rw [hobservers, mem_remaining, hid]
  exact ⟨hentry, hnot⟩

theorem Stores.Registers.isRegistered {stores : Stores κ} {g : Guard} (h : stores.Registers g) :
    stores.isRegistered g = true := by
  obtain ⟨st, hst, entry, hentry, hid⟩ := h
  rw [Stores.isRegistered, hst, Option.any_some, Store.isRegistered]
  exact List.any_eq_true.2 ⟨entry, hentry, by simp [hid]⟩

/-- To end different subscriptions that are registered is a success each time (`attempts`). -/
theorem Stores.attempts_of_registers {gs : List Guard} {stores : Stores κ} (hunique : gs.Nodup)
    (hregisters : ∀ g ∈ gs, stores.Registers g) : ∀ x ∈ attempts gs stores, x.2 = true := by
  induction gs generalizing stores with
  | nil => simp [attempts]
  | cons g gs ih =>
    obtain ⟨hnot, hunique⟩ := List.nodup_cons.1 hunique
    have hothers : ∀ x ∈ gs, (stores.endGuard g).Registers x := by
      intro x hx
      have hne : x ∉ [g] := by
        rw [List.mem_singleton]
        rintro rfl
        exact hnot hx
      exact (hregisters x (List.mem_cons_of_mem g hx)).endGuards hne
    intro x hx
    rcases List.mem_cons.1 hx with rfl | hx
    · exact (hregisters g List.mem_cons_self).isRegistered
    · exact ih hunique hothers x hx

/-- A release by `release_subtree` counts the guards of the nodes, if they are registered and different,
and the stores live. -/
theorem World.count_releaseNodes {alive : StoreId → Bool} {ns : List (Node κ)} {stores : Stores κ}
    (hunique : (ns.flatMap (·.guards)).Nodup)
    (halive : ∀ g ∈ ns.flatMap (·.guards), alive g.store = true)
    (hregisters : ∀ g ∈ ns.flatMap (·.guards), stores.Registers g) :
    (releaseNodes alive ns stores).1 = (ns.flatMap (·.guards)).length := by
  rw [fst_releaseNodes_eq alive ns stores halive,
    List.countP_eq_length.2 (Stores.attempts_of_registers hunique hregisters),
    ← List.length_map Prod.fst, Stores.map_fst_attempts]

/-! ## What the stores come to -/

/-- A store in good order is known by its observers. -/
theorem Store.Sound.observers_eq {a b : Store κ} (ha : a.Sound) (hb : b.Sound) {key : String}
    (h : b.observersOf key = a.observersOf key) : b.observers.get? key = a.observers.get? key := by
  have hina := ha.inhabited key
  have hinb := hb.inhabited key
  unfold Store.observersOf at h
  cases hea : a.observers.get? key <;> cases heb : b.observers.get? key <;> simp_all

namespace Planned

variable {store : StoreId} {k : Nat} {plan : List (Option (Link κ))} {a b : Stores κ}

/-- Where there is no old guard, a plan is added behind what is there. -/
theorem observersOf_eq (h : Planned store k plan [] a b) {id : StoreId} {st : Store κ}
    (hst : a[id]? = some st) : ∃ st' : Store κ, b[id]? = some st' ∧ ∀ key,
      st'.observersOf key = st.observersOf key ++
        if id = store then observersFor key (numbered k plan) else [] := by
  obtain ⟨st', hst', -, hobservers⟩ := h id st hst
  exact ⟨st', hst', fun key => by rw [hobservers, remaining_nil]⟩

/-- All of a plan ends again. -/
theorem observersOf_endGuards_eq (h : Planned store k plan [] a b) (hdue : a.Due store k)
    {id : StoreId} {st : Store κ} (hst : a[id]? = some st) : ∃ st' : Store κ,
      (b.endGuards ((numbered k plan).map (Link.guard store)))[id]? = some st' ∧
        ∀ key, st'.observersOf key = st.observersOf key := by
  have hall : ∀ x ∈ numbered k plan, Link.guard store x ∈ (numbered k plan).map (Link.guard store) :=
    fun x hx => List.mem_map_of_mem hx
  have honly : ∀ g ∈ (numbered k plan).map (Link.guard store),
      g ∈ ([] : List Guard) ∨ g.store = store ∧ k ≤ g.subscription.id := by
    intro g hg
    obtain ⟨x, hx, rfl⟩ := List.mem_map.1 hg
    exact Or.inr ⟨rfl, (bounds_of_mem_numbered hx).1⟩
  obtain ⟨st', hst', hobservers⟩ := (h.undo hdue hall (by simp) honly).observersOf_eq hst
  refine ⟨st', hst', fun key => ?_⟩
  rw [hobservers, numbered_gaps]
  simp [observersFor]

end Planned

theorem nodup_guards (store : StoreId) (k : Nat) (plan : List (Option (Link κ))) :
    ((numbered k plan).map (Link.guard store)).Nodup := by
  rw [List.Nodup, List.pairwise_map]
  refine (pairwise_numbered k plan).imp fun {x y} hlt heq => ?_
  have hid : x.1 = y.1 := congrArg (fun g : Guard => g.subscription.id) heq
  omega

/-! ## What the nodes come to -/

/-- Once a view that stands in the place of another is released, nothing binds the nodes of either,
if nothing binds those that were taken out. -/
theorem unbound_of_released {ts out : Forest (Node κ)} {n : NodeId} {t view : View κ}
    (hts : ts.Distinct) (ht : ts.find? n = some t)
    (hall : Forest.Distinct (ts.expand n (fun _ => [view]) ++ out))
    (hview : Forest.find? n (ts.expand n (fun _ => [view]) ++ out) = some view)
    (hout : ∀ x ∈ Forest.nodes out, x.2.Unbound) {i : NodeId} (hi : i ∈ t.ids ++ view.ids)
    {m : Node κ}
    (hm : Forest.val? i (Forest.update n View.released (ts.expand n (fun _ => [view]) ++ out)) =
      some m) : m.Unbound := by
  have hmem := Forest.mem_nodes_of_val? hm
  have hreleased := (Forest.nodes_expand (fun u => [View.released u]) hall hview).subset hmem
  rw [List.mem_append, Forest.nodes_singleton, View.released, Tree.nodes_map] at hreleased
  rcases hreleased with hin | hin
  · obtain ⟨y, -, heq⟩ := List.mem_map.1 hin
    rw [← (Prod.mk.inj heq).2]
    exact ⟨rfl, rfl⟩
  · -- what is left beside the view stood there before, or was taken out
    have hrest : Forest.nodes (Forest.erase n (ts.expand n (fun _ => [view]) ++ out)) ~
        Forest.nodes (ts.erase n) ++ Forest.nodes out := by
      have hparts := Forest.perm_of_find? hall hview
      have hplaced := Forest.nodes_expand (fun _ => [view]) hts ht
      rw [Forest.nodes_singleton] at hplaced
      rw [Forest.nodes_append] at hparts
      have hboth := hparts.symm.trans (hplaced.append_right (Forest.nodes out))
      rw [List.append_assoc] at hboth
      exact (perm_append_left_iff _).1 hboth
    have hnot : i ∉ view.ids := fun hview' =>
      Forest.not_mem_erase hall hview hview' (Forest.mem_ids.2 ⟨_, hin, rfl⟩)
    have hit : i ∈ t.ids := (List.mem_append.1 hi).resolve_right hnot
    rcases List.mem_append.1 (hrest.subset hin) with hin | hin
    · exact absurd (Forest.mem_ids.2 ⟨_, hin, rfl⟩) (Forest.not_mem_erase hts ht hit)
    · exact hout _ hin

/-! ## Sessions -/

namespace Session

/-- What is left once a view was bound: the view in its place, and what was taken out and is held. -/
theorem Kept.sweep_settle {s : Session} (h : s.Kept) {n : NodeId} {view : View Client}
    (hid : view.id = n) {wiring : Wiring Client}
    (hclear : ∀ x ∈ Forest.nodes wiring.removed, x.2.Unbound) :
    (s.world.settle n view wiring).sweep s.holdsNode =
      { forest := s.world.forest.expand n (fun _ => [view]) ++
          (World.sweepRow s.holdsNode wiring.removed).1
        stores := wiring.stores
        next := wiring.next } := by
  have hheld : ∀ u ∈ s.world.forest.expand n (fun _ => [view]), s.holdsNode u.id = true := by
    intro u hu
    obtain ⟨r, hr, hru⟩ := Forest.exists_root_of_mem_expand (fun _ _ => hid) hu
    exact hru ▸ h r hr
  obtain ⟨hguards, -⟩ := World.sweepRow_of_clear s.holdsNode wiring.removed fun x hx => (hclear x hx).2
  simp only [World.sweep, World.settle, World.sweepRow_append, World.sweepRow_of_held hheld, hguards]
  rfl

theorem act_command {call : Caller} {scope : Option StoreId} {command : Command Client}
    {s s' : Session} {reply : Reply} (h : s.perform call scope command = some (reply, s')) :
    act call scope (.command command) s = some (reply, s'.sweep) := by
  simp [Action.command, act, h]

/-- What `release_subtree` does to a view in a session all roots of which are held. -/
theorem Kept.act_release {s : Session} (h : s.Kept) {name : String} {t : View Client}
    (ht : s.view? name = some t) (call : Caller) (scope : Option StoreId) :
    ∃ count, act call scope (.command (.ending (.release name))) s = some (.count count,
        { s with
          world :=
            { s.world with
              forest := s.world.forest.update t.id View.released
              stores := s.world.stores.endGuards (View.guards t) } }) ∧
      ((View.guards t).Nodup → (∀ g ∈ View.guards t, s.holdsStore g.store = true) →
        (∀ g ∈ View.guards t, s.world.stores.Registers g) → count = (View.guards t).length) := by
  have hguards : (t.nodes.map Prod.snd).flatMap (·.guards) = View.guards t := by
    rw [List.flatMap_map]
    rfl
  have hfound := (view?_eq_some ht).2
  obtain ⟨⟨count, world⟩, hrelease⟩ : ∃ r, s.world.release s.holdsStore t.id = r := ⟨_, rfl⟩
  have hrelease' := hrelease
  simp only [World.release, hfound, Prod.mk.injEq] at hrelease'
  obtain ⟨hcount, hworld⟩ := hrelease'
  rw [World.stores_releaseNodes, hguards] at hworld
  have hperform : s.perform call scope (.ending (.release name)) =
      some (.count count, { s with world := world }) := by
    simp only [perform, finish, changeAt, ht, hrelease]
  refine ⟨count, ?_, fun hunique halive hregisters => ?_⟩
  · have hkept : ({ s with world := world } : Session).Kept := by
      intro u hu
      rw [← hworld] at hu
      obtain ⟨r, hr, hru⟩ := Forest.exists_root_of_mem_expand
        (fun v hv => by obtain ⟨i, m, us⟩ := v; exact hv) hu
      exact hru ▸ h r hr
    rw [act_command hperform, hkept.sweep_eq, ← hworld]
  · rw [← hguards] at hunique halive hregisters ⊢
    rw [← hcount]
    refine World.count_releaseNodes hunique (fun g hg => ?_) hregisters
    rw [halive g hg, Bool.true_or]

/-- The numbered links of a plan are the subscriptions that a store has more afterwards. -/
theorem mem_subscriptions_iff {k : Nat} {plan : List (Option (Link κ))} {st st₁ : Store κ}
    (hbelow : ∀ key, ∀ entry ∈ st.observersOf key, entry.1 < k)
    (hobservers : ∀ key, st₁.observersOf key = st.observersOf key ++ observersFor key (numbered k plan))
    (sub : Subscription) : sub ∈ (numbered k plan).map Link.subscription ↔
      st₁.isRegistered sub = true ∧ st.isRegistered sub = false := by
  have hold : st.isRegistered sub = false ↔ ∀ entry ∈ st.observersOf sub.key, entry.1 ≠ sub.id := by
    simp [Store.isRegistered, List.any_eq_false]
  have hnow : st₁.isRegistered sub = true ↔ ∃ entry ∈ st₁.observersOf sub.key, entry.1 = sub.id := by
    simp [Store.isRegistered, List.any_eq_true]
  rw [hold, hnow, hobservers]
  constructor
  · intro hsub
    obtain ⟨x, hx, rfl⟩ := List.mem_map.1 hsub
    refine ⟨⟨(x.1, x.2.observer), List.mem_append_right _ ?_, rfl⟩, fun entry hentry heq => ?_⟩
    · exact mem_observersFor.2 ⟨x, hx, rfl, rfl⟩
    · have hlt := hbelow _ entry hentry
      have hge := (bounds_of_mem_numbered hx).1
      rw [heq] at hlt
      exact absurd hlt (Nat.not_lt.2 hge)
  · rintro ⟨⟨entry, hentry, hid⟩, hnot⟩
    rcases List.mem_append.1 hentry with hin | hin
    · exact absurd hid (hnot entry hin)
    · obtain ⟨x, hx, hkey, rfl⟩ := mem_observersFor.1 hin
      refine List.mem_map.2 ⟨x, hx, ?_⟩
      obtain ⟨number, key⟩ := sub
      rw [Link.subscription, hkey]
      congr 1

/-! ## A view that nothing bound -/

/-- What a pass over a view that nothing bound makes of a session, where the numbers start at `k`: the
plan is added, the view that stands in the place of the former one holds all its guards, and nothing
binds what was taken out. -/
structure Added (s : Session) (t : View Client) (k : Nat) (plan : List (Option (Link Client)))
    (s₁ : Session) (view : View Client) : Prop where
  store : s₁.store = s.store
  id : view.id = t.id
  planned : Planned s.store k plan [] s.world.stores s₁.world.stores
  rewired : s.world.stores.Rewired s₁.world.stores
  guards : View.guards view = (numbered k plan).map (Link.guard s.store)
  placed : ∃ out, s₁.world.forest = s.world.forest.expand t.id (fun _ => [view]) ++ out ∧
    ∀ x ∈ Forest.nodes out, x.2.Unbound

theorem exists_added {s : Session} (hkept : s.Kept) {name : String} {t : View Client}
    {options : Options} {registry : Registry} {k : Nat} (ht : s.view? name = some t)
    (hroot : t.val.isElement = true) (hclear : ∀ x ∈ t.nodes, x.2.Unbound)
    (hvalid : options.flaw? = none) (hbuiltin : registry.Builtin)
    (hdue : s.world.stores.Due s.store k) (call : Caller) (scope : Option StoreId) :
    ∃ report plan s₁ view, act call scope (.command (.bind (.compile name options registry))) s =
        some (.report report, s₁) ∧ s₁ = (s.bind (.compile name options registry)).2.sweep ∧
      s₁.view? name = some view ∧ Added s t k plan s₁ view := by
  obtain ⟨id, n, row⟩ := t
  obtain ⟨hname, hfound⟩ := view?_eq_some ht
  have hn : n.Unbound := hclear (id, n) (by simp [Tree.nodes])
  have hold : (View.ledger row).guards = [] := by
    simp only [Ledger.guards, View.ledger, List.flatMap_map, List.flatMap_eq_nil_iff]
    exact fun x hx => (hclear x (by rw [Tree.nodes]; exact List.mem_cons_of_mem _ hx)).2
  have htells : Tells (fun _ => true) s.store k (View.ledger row).guards :=
    ⟨by simp [hold], fun _ _ _ => rfl⟩
  obtain ⟨data, hhold⟩ := hdue.hold
  obtain ⟨report, row', more, wiring, hbind, hlinked⟩ :=
    exists_linked ht hroot hvalid hbuiltin hdue hhold htells
  have hremoved : wiring.removed = more := hlinked.removed
  have hended : (s.compiler options registry).endedRow data row = [] :=
    List.eq_nil_iff_forall_not_mem.2 fun g hg => by
      simpa [hold] using (s.compiler options registry).mem_of_mem_endedRow data hg
  have hplanned := hlinked.planned
  simp only [Tree.children, hended] at hplanned
  have hrewired := (Step.bind s (.compile name options registry)).quiet.stores.rewired
  have hid : Tree.id (.node id n row' : View Client) = id := rfl
  have hswept := hkept.sweep_settle hid (hremoved ▸ hlinked.clear)
  have hout := World.sweepRow_of_clear s.holdsNode wiring.removed
    fun x hx => (hlinked.clear x (hremoved ▸ hx)).2
  obtain ⟨s₁, hs₁⟩ : ∃ s₁ : Session, (s.bind (.compile name options registry)).2.sweep = s₁ := ⟨_, rfl⟩
  have hact : act call scope (.command (.bind (.compile name options registry))) s =
      some (.report report, s₁) := by
    rw [← hs₁, hbind]
    exact act_command (congrArg some hbind)
  rw [hbind] at hs₁ hrewired
  have hworld : s₁.world = _ := (congrArg Session.world hs₁).symm.trans hswept
  have hforest : s₁.world.forest = s.world.forest.expand id (fun _ => [.node id n row']) ++
      (World.sweepRow s.holdsNode wiring.removed).1 := by rw [hworld]
  have hstores : s₁.world.stores = wiring.stores := by rw [hworld]
  refine ⟨report, (s.compiler options registry).planRow row, s₁, .node id n row', hact, ?_, ?_, ?_⟩
  · rw [← hs₁, hbind]
  · have hname₁ : s₁.nodes.get? name = some id := by
      rw [← hs₁]
      exact hname
    rw [view?, hname₁, Option.bind_some, hforest, Forest.find?_append,
      Forest.find?_expand_self hid hfound, Option.some_or]
  · exact
      { store := by rw [← hs₁]; rfl
        id := hid
        planned := hstores ▸ hplanned
        rewired := hstores ▸ hrewired
        guards := by
          rw [← View.guards_ledger, View.ledger_node, View.ledger_nil, List.append_nil,
            Ledger.guards_cons, hn.2, List.nil_append]
          exact hlinked.guards_eq
        placed := ⟨_, hforest, fun x hx => hlinked.clear x (hremoved ▸ hout.2 x hx)⟩ }

namespace Added

variable {s s₁ : Session} {t view : View Client} {k : Nat} {plan : List (Option (Link Client))}

/-- Once the guards of the view have ended, every store is as it was. -/
theorem undone (h : Added s t k plan s₁ view) (hsound : s.Sound) (hdue : s.world.stores.Due s.store k)
    {id : StoreId} {before : Store Client} (hbefore : s.world.stores[id]? = some before) :
    ∃ after : Store Client, (s₁.world.stores.endGuards (View.guards view))[id]? = some after ∧
      after.data = before.data ∧ ∀ key, after.observers.get? key = before.observers.get? key := by
  obtain ⟨after, hafter, hsame⟩ := h.planned.observersOf_endGuards_eq hdue hbefore
  rw [← h.guards] at hafter
  have hended := h.rewired.trans (Stores.rewired_endGuards (View.guards view) s₁.world.stores)
  obtain ⟨after', hafter', -, hdata⟩ := hended.kept id before hbefore
  obtain rfl : after = after' := Option.some.inj (hafter.symm.trans hafter')
  have hgood : after.Sound := hended.sound hsound after (List.mem_of_getElem? hafter)
  exact ⟨after, hafter, hdata, fun key => (hsound.store hbefore).observers_eq hgood (hsame key)⟩

/-- Behind what the store had there is the plan. -/
theorem observersOf_eq (h : Added s t k plan s₁ view) {st : Store Client}
    (hst : s.world.stores[s.store]? = some st) :
    ∃ st₁ : Store Client, s₁.world.stores[s.store]? = some st₁ ∧ ∀ key,
      st₁.observersOf key = st.observersOf key ++ observersFor key (numbered k plan) := by
  obtain ⟨st₁, hst₁, hobservers⟩ := h.planned.observersOf_eq hst
  exact ⟨st₁, hst₁, fun key => by rw [hobservers, if_pos rfl]⟩

/-- All guards of the view are registered with the current store, and there are no two of one
subscription. -/
theorem count (h : Added s t k plan s₁ view) {st : Store Client}
    (hst : s.world.stores[s.store]? = some st) {n : Nat}
    (hn : (View.guards view).Nodup → (∀ g ∈ View.guards view, s₁.holdsStore g.store = true) →
      (∀ g ∈ View.guards view, s₁.world.stores.Registers g) → n = (View.guards view).length) :
    n = (numbered k plan).length := by
  obtain ⟨st₁, hst₁, hobservers⟩ := h.observersOf_eq hst
  rw [h.guards] at hn
  rw [hn (nodup_guards _ _ _), List.length_map]
  · intro g hg
    obtain ⟨x, -, rfl⟩ := List.mem_map.1 hg
    simp [holdsStore, h.store, Link.guard]
  · intro g hg
    obtain ⟨x, hx, rfl⟩ := List.mem_map.1 hg
    refine ⟨st₁, hst₁, (x.1, x.2.observer), ?_, rfl⟩
    rw [hobservers]
    exact List.mem_append_right _ (mem_observersFor.2 ⟨x, hx, rfl, rfl⟩)

end Added

/-- **Release undoes compile.**  Take any session that can be reached, all roots of which are held, and
in it a view that nothing binds, the root of which is an element.  Compiling the view with valid options
and builtin strategies and then releasing it succeeds, and afterwards every store has the same values
and the same observers under every key as before.  Nothing binds the nodes that were in the view before
the pass or after it.  The release counts the subscriptions that were registered after the pass and not
before it. -/
theorem release_undoes_compile {model : Value} {methods : List (String × Client)} {s : Session}
    (hreachable : Moves (start model methods) s) (hkept : s.Kept) {name : String} {t : View Client}
    {options : Options} {registry : Registry} {st : Store Client} (ht : s.view? name = some t)
    (hroot : t.val.isElement = true) (hclear : ∀ x ∈ t.nodes, x.2.Unbound)
    (hvalid : options.flaw? = none) (hbuiltin : registry.Builtin)
    (hst : s.world.stores[s.store]? = some st) (call : Caller) (scope : Option StoreId) :
    ∃ report s₁ view st₁ count s₂,
      act call scope (.command (.bind (.compile name options registry))) s =
        some (.report report, s₁) ∧
      s₁.view? name = some view ∧ s₁.world.stores[s.store]? = some st₁ ∧
      act call scope (.command (.ending (.release name))) s₁ = some (.count count, s₂) ∧
      (∀ (id : StoreId) (before : Store Client), s.world.stores[id]? = some before →
        ∃ after : Store Client, s₂.world.stores[id]? = some after ∧ after.data = before.data ∧
          ∀ key, after.observers.get? key = before.observers.get? key) ∧
      (∀ i ∈ t.ids ++ view.ids, ∀ n, s₂.world.node? i = some n → n.Unbound) ∧
      ∃ added : List Subscription, added.Nodup ∧ count = added.length ∧
        ∀ sub, sub ∈ added ↔ st₁.isRegistered sub = true ∧ st.isRegistered sub = false := by
  have haccounted := hreachable.accounted
  have hsound := hreachable.sound
  have hdue := (hsound.store hst).due hst
  obtain ⟨report, plan, s₁, view, hcompile, hs₁, hview, hadded⟩ :=
    exists_added hkept ht hroot hclear hvalid hbuiltin hdue call scope
  have haccounted₁ : s₁.Accounted := hs₁ ▸ (haccounted.step (.bind s _)).step (.sweep _)
  have hkept₁ : s₁.Kept := hs₁ ▸ kept_sweep _
  obtain ⟨st₁, hst₁, hobservers⟩ := hadded.observersOf_eq hst
  obtain ⟨count, hrelease, hcount⟩ := hkept₁.act_release hview call scope
  refine ⟨report, s₁, view, st₁, count, _, hcompile, hview, hst₁, hrelease, ?_, ?_,
    (numbered st.nextId plan).map Link.subscription, ?_, ?_, ?_⟩
  · exact fun id before hbefore => hadded.undone hsound hdue hbefore
  · intro i hi n hn
    obtain ⟨out, hforest, hout⟩ := hadded.placed
    have hdistinct := haccounted₁.world.distinct
    have hfound := (view?_eq_some hview).2
    rw [hadded.id, hforest] at hfound
    rw [hforest] at hdistinct
    simp only [World.node?, hadded.id, hforest] at hn
    exact unbound_of_released haccounted.world.distinct (view?_eq_some ht).2 hdistinct hfound hout hi hn
  · rw [List.Nodup, List.pairwise_map]
    refine (pairwise_numbered _ _).imp fun {x y} hlt heq => ?_
    exact absurd (congrArg Subscription.id heq) (Nat.ne_of_lt hlt)
  · rw [List.length_map]
    exact hadded.count hst hcount
  · exact mem_subscriptions_iff (hsound.store hst).bounded hobservers

/-- A view with a text, a field, a marker and an element that is replaced, beside a client that
observes the same key. -/
def fourBindings : List Action :=
  [.command (.subscribe "mine" "name" fun _ => .done .nothing),
    .command (.handle (.build "root" (.element "div" []
      [.element "p" [⟨"v-text", "name"⟩] [], .element "input" [⟨"v-model", "name"⟩] [],
        .element "i" [⟨"v-text", "bio"⟩, ⟨"v-html", "bio"⟩] [],
        .text "Hello \x7b\x7b name \x7d\x7d!"])))]

/-- The number that a reply tells. -/
def counted : Reply → Option Nat
  | .count n => some n
  | _ => none

/-- The subscription for the replaced element is gone before the release, so three are counted. -/
theorem release_ends_three_of_four :
    let s := (start (.ofMembers [("bio", .string "<b>hi</b>"), ("name", .string "Ada")]) []).runs
      fourBindings
    ∃ report s₁ s₂,
      act (invoke depth) none (.command (.bind (.compile "root" {} .standard))) s =
        some (.report report, s₁) ∧
      act (invoke depth) none (.command (.ending (.release "root"))) s₁ = some (.count 3, s₂) ∧
      ∀ (id : StoreId) (before : Store Client), s.world.stores[id]? = some before →
        ∃ after : Store Client, s₂.world.stores[id]? = some after ∧ after.data = before.data ∧
          ∀ key, after.observers.get? key = before.observers.get? key := by
  intro s
  have hreachable : Moves _ s := moves_runs _ fourBindings
  have htended : s.Tended := runs_invariant (fun a h => h.run a) (tended_start _ _) fourBindings
  have ht : s.view? "root" = some _ := rfl
  have hst : s.world.stores[s.store]? = some _ := rfl
  have hclear : (s.view? "root").all (fun t =>
      t.nodes.all fun x => x.2.listeners.isEmpty && x.2.guards.isEmpty) = true := by
    decide +kernel
  rw [ht, Option.all_some, List.all_eq_true] at hclear
  have hvalid : ({} : Options).flaw? = none := rfl
  obtain ⟨report, s₁, view, st₁, count, s₂, hcompile, -, -, hrelease, hundone, -⟩ :=
    release_undoes_compile hreachable htended.kept ht rfl
      (fun x hx => by simpa [Node.Unbound] using hclear x hx) hvalid Registry.builtin_standard hst
      (invoke depth) none
  have hcount : ((act (invoke depth) none (.command (.bind (.compile "root" {} .standard))) s).bind
      fun r => act (invoke depth) none (.command (.ending (.release "root"))) r.2).bind
        (fun r => counted r.1) = some 3 := by
    decide +kernel
  rw [hcompile, Option.bind_some, hrelease, Option.bind_some] at hcount
  obtain rfl : count = 3 := Option.some.inj hcount
  exact ⟨report, s₁, s₂, hcompile, hrelease, hundone⟩

end Session

end ViewBinding
