import ViewBinding.Proofs.Live.Binding
import ViewBinding.Proofs.World.Sweeping
import ViewBinding.Session.Run

/-!
# Sessions in which a view follows a store

`Live` is the invariant of a session in which a view became of a template: the forest displays it,
the current store has one observer for each slot and no other, and the root is held, so nothing of
it dies.  What the slots show is a parameter as before.

* `Live.deliver` — a delivery of the value that is there brings every slot of its key up to date.
* `Live.set` — whatever is set, the view is up to date afterwards.
* `Live.sweep` — letting go of nodes ends no subscription.
-/

namespace ViewBinding

open Json (Value)

/-- A template in a session, with what stays as it is while a view follows it: options, store, numbers and
names. -/
structure Layout where
  options : Options
  store : StoreId
  root : View Client
  /-- The first number after those of the template. -/
  first : NodeId
  names : Table NodeId
  distinct : root.ids.Nodup
  below : ∀ i ∈ root.ids, i < first
  template : View.isTemplateRow options root.children = true
  held : names.any (fun entry => entry.2 = root.id) = true

namespace Layout

/-- The slots of the template, in the order in which they were subscribed. -/
def slots (L : Layout) : List Slot := View.slotsRow L.options L.root.children

theorem slot_lt (L : Layout) {s : Slot} (hs : s ∈ L.slots) : s.node < L.first := by
  refine L.below _ ?_
  have hnode : s.node ∈ Forest.ids L.root.children := View.node_mem_idsRow hs
  revert hnode
  obtain ⟨id, n, row⟩ := L.root
  rw [Tree.ids_node]
  exact List.mem_cons_of_mem id

/-- The slots of a key. -/
def slotsOf (L : Layout) (key : String) : List Slot := L.slots.filter (·.key = key)

theorem mem_slotsOf {L : Layout} {key : String} {s : Slot} :
    s ∈ L.slotsOf key ↔ s ∈ L.slots ∧ s.key = key := by
  simp [slotsOf]

end Layout

/-! ## The invariant -/

/-- A session in which a view became of a template, and each slot shows what is `ok`. -/
structure Live (L : Layout) (st : Store Client) (ok : Slot → String → Prop) (s : Session) : Prop where
  names : s.nodes = L.names
  current : s.store = L.store
  stored : s.world.stores[L.store]? = some st
  observed : ∀ key, (st.observersOf key).map Prod.snd = (L.slotsOf key).map Slot.observer
  next : L.first ≤ s.world.next
  displays : Displays L.options L.store L.first ok L.root s.world.forest

namespace Live

variable {L : Layout} {st : Store Client} {ok ok' : Slot → String → Prop} {s s' : Session}

/-! ## What does not matter -/

/-- Only what is `ok` for the slots of the template matters. -/
theorem mono (h : Live L st ok s) (hok : ∀ sl ∈ L.slots, ∀ x, ok sl x → ok' sl x) :
    Live L st ok' s where
  names := h.names
  current := h.current
  stored := h.stored
  observed := h.observed
  next := h.next
  displays := by
    obtain ⟨us, removed, hforest, hrow, hclear⟩ := h.displays
    exact ⟨us, removed, hforest, hrow.mono hok, hclear⟩

/-- The history, and who is busy, do not matter. -/
theorem of_eq (h : Live L st ok s) (hworld : s'.world = s.world) (hnodes : s'.nodes = s.nodes)
    (hstore : s'.store = s.store) : Live L st ok s' where
  names := hnodes.trans h.names
  current := hstore.trans h.current
  stored := hworld ▸ h.stored
  observed := h.observed
  next := hworld ▸ h.next
  displays := hworld ▸ h.displays

/-! ## Letting go of nodes -/

theorem holds_root (h : Live L st ok s) : s.holdsNode L.root.id = true := by
  rw [Session.holdsNode, h.names, L.held, Bool.true_or]

/-- Letting go of nodes (`Session.sweep`) ends no subscription: the root is held, and nothing else holds a
guard. -/
theorem sweep (h : Live L st ok s) : Live L st ok s.sweep := by
  obtain ⟨us, removed, hforest, hrow, hclear⟩ := h.displays
  obtain ⟨hguards, hnodes⟩ := World.sweepRow_of_clear s.holdsNode removed fun x hx => (hclear x hx).2.1
  have hworld : s.sweep.world = { s.world with
      forest := .node L.root.id L.root.val us :: (World.sweepRow s.holdsNode removed).1 } := by
    simp only [Session.sweep, World.sweep, hforest, World.sweepRow, World.sweepTree, h.holds_root,
      if_true, hguards, List.append_nil]
    rfl
  exact
    { names := h.names
      current := h.current
      stored := by rw [hworld]; exact h.stored
      observed := h.observed
      next := by rw [hworld]; exact h.next
      displays := by
        rw [hworld]
        exact ⟨us, _, rfl, hrow, fun x hx => hclear x (hnodes x hx)⟩ }

/-! ## Telling observers -/

/-- A slot is told of the value of its key (`World.refresh`). -/
theorem refresh (h : Live L st ok s) {sl : Slot} (hsl : sl ∈ L.slots) {value : Value}
    (hr : Refreshes sl (Value.display (some value)) ok ok') :
    Live L st ok' { s with world := s.world.refresh sl.observer value } := by
  obtain ⟨hdisplays, hstores, hnext⟩ := refresh_displays L.distinct L.template (L.slot_lt hsl)
    h.next hsl h.displays hr
  exact
    { names := h.names
      current := h.current
      stored := hstores ▸ h.stored
      observed := h.observed
      next := Nat.le_trans h.next hnext
      displays := hdisplays }

theorem tell_observer (call : Caller) (sl : Slot) (value : Value) (s : Session) :
    s.tell call sl.observer value =
      some { s with world := s.world.refresh sl.observer value }.sweep := by
  unfold Slot.observer
  cases sl.part <;> rfl

/-- What a view shows while a delivery has some slots before it. -/
def pending (st : Store Client) (rest : List Slot) (sl : Slot) (shown : String) : Prop :=
  upToDate st.get? sl shown ∨ sl ∈ rest

/-- **A delivery to a view.** A value that is there is delivered to all observers of its key
(`Session.deliver`), and brings their slots up to date. -/
theorem deliver {key : String} {value : Value} (hvalue : st.get? key = some value) (call : Caller)
    (number : Nat) (rest : List Slot) (hrest : ∀ sl ∈ rest, sl ∈ L.slotsOf key)
    {observers : List (Nat × Observer Client)}
    (hobservers : observers.map Prod.snd = rest.map Slot.observer) (h : Live L st (pending st rest) s) :
    ∃ s', Session.deliver call number L.store key value observers s = some s' ∧
      Live L st (upToDate st.get?) s' := by
  induction rest generalizing observers s with
  | nil =>
    rw [List.map_nil, List.map_eq_nil_iff] at hobservers
    subst hobservers
    refine ⟨s, rfl, h.mono fun sl _ x hx => hx.resolve_right (by simp)⟩
  | cons sl rest ih =>
    obtain ⟨⟨id, observer⟩, others, rfl, hobserver, hothers⟩ := List.map_eq_cons_iff.1 hobservers
    obtain rfl : observer = sl.observer := hobserver
    obtain ⟨hsl, hkey⟩ := Layout.mem_slotsOf.1 (hrest sl List.mem_cons_self)
    have hholds : s.world.stores[L.store]?.any (·.holds key value) = true := by
      rw [h.stored, Option.any_some, Store.holds, hvalue]
      exact value.same_refl
    have hr : Refreshes sl (Value.display (some value)) (pending st (sl :: rest)) (pending st rest) := by
      refine ⟨Or.inl ?_, fun sl' hne x hx => hx.imp (fun hup => hup) fun hin => ?_⟩
      · rw [upToDate, hkey, hvalue]
      · exact (List.mem_cons.1 hin).resolve_left hne
    have hrecorded : Live L st (pending st (sl :: rest))
        (s.record (.told number L.store ⟨id, key⟩ value)) := h.of_eq rfl rfl rfl
    have htold := hrecorded.refresh hsl hr
    obtain ⟨s', hs', hlive⟩ := ih (fun sl' hsl' => hrest sl' (List.mem_cons_of_mem _ hsl')) hothers
      htold.sweep
    refine ⟨s', ?_, hlive⟩
    rw [Session.deliver, if_pos hholds, tell_observer]
    exact hs'

/-- The store of a key, once a value is set. -/
def setStore (st : Store Client) (key : String) (value : Value) : Store Client :=
  if st.holds key value then st else st.write key value

/-- **Setting a value** (`Session.set`). The view is up to date afterwards, if the slots that were not are
of the key that is set, and are so even if nothing is set. -/
theorem set {key : String} {value : Value} (h : Live L st ok s)
    (hok : ∀ sl ∈ L.slots, ∀ x, ok sl x → upToDate st.get? sl x ∨
      (sl.key = key ∧ st.holds key value = false)) (call : Caller) :
    ∃ s', s.set call L.store key value = some s' ∧
      Live L (setStore st key value) (upToDate (setStore st key value).get?) s' := by
  unfold Session.set setStore
  rw [h.stored]
  simp only
  split
  · next hholds =>
    exact ⟨s, rfl, h.mono fun sl hsl x hx => (hok sl hsl x hx).resolve_right fun hcase => by
      rw [hholds] at hcase
      exact absurd hcase.2 (by simp)⟩
  · next hnew =>
    -- once the value is written, exactly the slots of its key are pending
    have hwritten : Live L (st.write key value) (pending (st.write key value) (L.slotsOf key))
        { s.write L.store key value with
          busyNodes := s.busyNodes, busyStores := L.store :: s.busyStores } :=
      { names := h.names
        current := h.current
        stored := by
          show (s.world.stores.update L.store _)[L.store]? = _
          rw [Stores.getElem?_update, h.stored, Option.map_some, if_pos rfl]
        observed := h.observed
        next := h.next
        displays := by
          refine (h.mono fun sl hsl x hx => ?_).displays
          by_cases hkey : sl.key = key
          · exact Or.inr (Layout.mem_slotsOf.2 ⟨hsl, hkey⟩)
          · have hup := (hok sl hsl x hx).resolve_right fun hcase => hkey hcase.1
            refine Or.inl ?_
            rw [upToDate, Store.get?_write_of_ne st hkey]
            exact hup }
    obtain ⟨after, hafter, hlive⟩ := hwritten.deliver (st.get?_write_self key value) call s.deliveries
      (L.slotsOf key) (fun sl hsl => hsl) (h.observed key)
    refine ⟨{ after with busyNodes := s.busyNodes, busyStores := s.busyStores }, ?_,
      hlive.of_eq rfl rfl rfl⟩
    rw [Session.holding]
    exact congrArg (Option.map _) hafter

end Live

end ViewBinding
