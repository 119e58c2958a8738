import ViewBinding.Proofs.Listeners.Sessions
import ViewBinding.Proofs.World.Content

/-!
# Whom an event tells

An event that is fired at a node is heard by the listeners that the node has for it at that time, and
by nobody else.  They may add and remove listeners of the same node and fire more events at it, to any
depth; what they do shows in what is fired later.  The history tells the deliveries apart by their
numbers: whatever happens during a delivery and does not belong to it has a greater number
(`Numbered`), so the listeners that heard an event can be read off (`Happening.heardBy`).

* `hearAll_numbered`, `fire_heard` — one delivery, whatever is nested in it.
* `dispatch_tells_snapshot` — the same for every session, with what its table of listeners is, and
  becomes when a listener is added or removed, and later.
-/

namespace ViewBinding

open Json (Value)

namespace Happening

/-- The listeners that a delivery of an event told (`Happening.heard`), each with its node, in the order in
which it did. -/
def heardBy (number : Nat) (hs : List Happening) : List (NodeId × Nat) :=
  hs.reverse.filterMap fun
    | .heard n node listener => if n = number then some (node, listener) else none
    | _ => none

theorem heardBy_append (number : Nat) (later earlier : List Happening) :
    heardBy number (later ++ earlier) = heardBy number earlier ++ heardBy number later := by
  rw [heardBy, List.reverse_append, List.filterMap_append]
  rfl

theorem heardBy_cons_self (number : Nat) (node : NodeId) (listener : Nat) (past : List Happening) :
    heardBy number (.heard number node listener :: past) =
      heardBy number past ++ [(node, listener)] := by
  rw [← List.singleton_append, heardBy_append]
  simp [heardBy]

/-- Nobody hears of a delivery of which nothing is told (`Happening.number?`). -/
theorem heardBy_eq_nil {number : Nat} {hs : List Happening}
    (h : ∀ x ∈ hs, x.number? ≠ some number) : heardBy number hs = [] := by
  refine List.filterMap_eq_nil_iff.2 fun x hx => ?_
  have hx := h x (List.mem_reverse.1 hx)
  cases x with
  | heard n node listener =>
    have hne : n ≠ number := fun heq => hx (congrArg some heq)
    simp [hne]
  | _ => rfl

end Happening

namespace Session

open Happening

/-! ## Numbers of deliveries -/

/-- What holds between a session and a later one if `new` happened in between: none of it belongs to a
delivery that had begun before. -/
structure Numbered (s : Session) (new : List Happening) (s' : Session) : Prop where
  history : s'.history = new ++ s.history
  deliveries : s.deliveries ≤ s'.deliveries
  later : ∀ x ∈ new, ∀ number, x.number? = some number → s.deliveries ≤ number

/-- A session after which a later one goes on with numbers of its own (`Numbered`). -/
def Numbering (s s' : Session) : Prop := ∃ new, s.Numbered new s'

namespace Numbered

variable {s s₁ s₂ : Session} {new more : List Happening}

/-- Nothing happened. -/
theorem of_course (h : s₁.history = s.history ∧ s₁.deliveries = s.deliveries) : s.Numbered [] s₁ :=
  ⟨h.1, Nat.le_of_eq h.2.symm, by simp⟩

theorem trans (h₁ : s.Numbered new s₁) (h₂ : s₁.Numbered more s₂) : s.Numbered (more ++ new) s₂ := by
  refine ⟨by rw [h₂.history, h₁.history, List.append_assoc],
    Nat.le_trans h₁.deliveries h₂.deliveries, fun x hx number hnumber => ?_⟩
  rcases List.mem_append.1 hx with hx | hx
  · exact Nat.le_trans h₁.deliveries (h₂.later x hx number hnumber)
  · exact h₁.later x hx number hnumber

/-- Something was noted that belongs to no earlier delivery. -/
theorem record (h : s.Numbered new s₁) {x : Happening}
    (hx : ∀ number, x.number? = some number → s.deliveries ≤ number) :
    s.Numbered (x :: new) (s₁.record x) := by
  refine ⟨by rw [Session.record, h.history]; rfl, h.deliveries, fun y hy number hnumber => ?_⟩
  rcases List.mem_cons.1 hy with rfl | hy
  · exact hx number hnumber
  · exact h.later y hy number hnumber

/-- A delivery began. -/
theorem begin (s : Session) {h : Nat → Happening} (hh : (h s.deliveries).number? = some s.deliveries) :
    s.Numbered [h s.deliveries] (s.begin h) := by
  refine ⟨rfl, Nat.le_succ _, fun x hx number hnumber => ?_⟩
  rw [List.mem_singleton.1 hx, hh] at hnumber
  exact Nat.le_of_eq (Option.some.inj hnumber)

/-- Who is worked on does not matter. -/
theorem busy (h : s.Numbered new s₁) (nodes : List NodeId) (stores : List StoreId) :
    s.Numbered new { s₁ with busyNodes := nodes, busyStores := stores } :=
  ⟨h.history, h.deliveries, h.later⟩

end Numbered

/-! ## A single delivery of an event -/

theorem enduring_numbering : Enduring Numbering where
  busy s nodes stores := ⟨[], .of_course ⟨rfl, rfl⟩⟩
  trans := fun ⟨_, h₁⟩ ⟨_, h₂⟩ => ⟨_, h₁.trans h₂⟩
  set {call} hcall {store key value s s'} h := by
    rcases set_cases h with ⟨rfl, -⟩ | ⟨st, after, -, -, hafter, rfl⟩
    · exact ⟨[], .of_course ⟨rfl, rfl⟩⟩
    · have hbegun := Numbered.begin (s.changeStores (·.update store (·.write key value)))
        (h := fun number => .wrote number store key value) rfl
      have hwrote : s.Numbered [.wrote s.deliveries store key value] (s.write store key value) :=
        ⟨hbegun.history, hbegun.deliveries, hbegun.later⟩
      -- whatever was told so far, the numbers are those of this delivery and of later ones
      obtain ⟨rest, ⟨new, hnew⟩, -⟩ := deliver_exit (I := fun _ s₁ => ∃ new, s.Numbered new s₁)
        (fun {id observer rest s₁ s₂} ⟨new, hnew⟩ _ htell => by
          have htold := hnew.record (x := .told s.deliveries store ⟨id, key⟩ value)
            fun number hnumber => Nat.le_of_eq (Option.some.inj hnumber)
          obtain ⟨more, hmore⟩ := hcall.tell_of_refresh
            (fun s o v => ⟨[], .of_course ⟨rfl, rfl⟩⟩) htell
          exact ⟨_, htold.trans hmore⟩)
        ⟨_, hwrote.busy s.busyNodes (store :: s.busyStores)⟩ hafter
      exact ⟨new, hnew.busy _ _⟩

/-- The listeners of a delivery that began at `s₀` are told one after the other, whatever they do. -/
theorem hearAll_numbered {call : Caller} (hcall : call.Respects Numbering) {s₀ : Session}
    {node : NodeId} {event : String} {listeners : List (Registered Client)} {s s' : Session}
    {past : List Happening} (hpast : s₀.Numbered past s) (hbegun : s₀.deliveries < s.deliveries)
    (h : hearAll call s₀.deliveries node event listeners s = some s') :
    ∃ new, s₀.Numbered new s' ∧ heardBy s₀.deliveries new =
      heardBy s₀.deliveries past ++ listeners.map fun r => (node, r.id) := by
  induction listeners generalizing s past with
  | nil => exact ⟨past, Option.some.inj h ▸ hpast, by simp⟩
  | cons r rest ih =>
    rw [hearAll] at h
    split at h
    · exact absurd h (by simp)
    · next s₁ hs₁ =>
      have hheard := hpast.record (x := .heard s₀.deliveries node r.id)
        fun number hnumber => Nat.le_of_eq (Option.some.inj hnumber)
      obtain ⟨more, hmore⟩ := enduring_numbering.hear hcall hs₁
      -- nothing of what the listener sets going belongs to this delivery
      have hother : heardBy s₀.deliveries more = [] := heardBy_eq_nil fun x hx hnumber =>
        absurd (hmore.later x hx _ hnumber) (Nat.not_le.2 hbegun)
      obtain ⟨new, hnew, htold⟩ := ih (hheard.trans hmore)
        (Nat.lt_of_lt_of_le hbegun hmore.deliveries) h
      refine ⟨new, hnew, ?_⟩
      rw [htold, heardBy_append, hother, heardBy_cons_self]
      simp

/-- **An event is heard by the listeners that the node has for it at that time** (`Node.listening`),
whatever they do. -/
theorem fire_heard {call : Caller} (hcall : call.Respects Numbering) {node event : String}
    {s s' : Session} {reply : Reply} {t : View Client} (ht : s.view? node = some t)
    (h : s.fire call node event = some (reply, s')) :
    reply = .count (t.val.listening event).length ∧ ∃ new, s.Numbered new s' ∧
      heardBy s.deliveries new = (t.val.listening event).map fun r => (t.id, r.id) := by
  simp only [fire, ht] at h
  obtain ⟨after, hafter, heq⟩ := Option.map_eq_some_iff.1 h
  obtain ⟨hreply, rfl⟩ := Prod.mk.inj heq
  obtain ⟨last, hlast, rfl⟩ := holding_eq_some hafter
  have hbegun := Numbered.begin s (h := fun number => .fired number t.id event) rfl
  obtain ⟨new, hnew, hheard⟩ := hearAll_numbered hcall (hbegun.busy _ _) (Nat.lt_succ_self _) hlast
  exact ⟨hreply.symm, new, hnew.busy _ _, hheard⟩

/-- **Deliveries are told apart by their numbers**, however deep clients make each other run (`Numbering`).
-/
theorem runwise_numbering : Runwise Numbering where
  toEnduring := enduring_numbering
  step _ hcourse := by
    have hrest := (Prod.mk.inj (Prod.mk.inj hcourse).2).2
    exact ⟨[], .of_course ⟨congrArg Prod.snd hrest, congrArg Prod.fst hrest⟩⟩
  note s h hnumber := by
    refine ⟨[h], (Numbered.of_course ⟨rfl, rfl⟩).record fun number hn => ?_⟩
    rw [hnumber] at hn
    exact absurd hn (by simp)
  fire {call} hcall {node event s s' reply} h := by
    cases ht : s.view? node with
    | none =>
      simp only [Session.fire, ht, Option.some.injEq, Prod.mk.injEq] at h
      exact h.2 ▸ enduring_numbering.refl s
    | some t =>
      obtain ⟨-, new, hnew, -⟩ := fire_heard hcall ht h
      exact ⟨new, hnew⟩

/-! ## Every delivery of every session -/

theorem view?_changeNode {s : Session} (hs : s.Accounted) {node : String} {t : View Client}
    (ht : s.view? node = some t) (f : Node Client → Node Client) :
    (s.changeNode t.id f).view? node = some (t.mapRoot f) := by
  obtain ⟨hname, hfound⟩ := view?_eq_some ht
  have hchanged := World.find?_updateNode hs.world.distinct hfound f
  rw [view?, show (s.changeNode t.id f).nodes = s.nodes from rfl, hname]
  exact hchanged

/-- What comes of adding a listener (`add_event_listener`). -/
theorem listen_eq {s : Session} (hs : s.Accounted) {node : String} {t : View Client}
    (ht : s.view? node = some t) (event name : String) (code : Client) :
    ∃ s', s.listen node event name code =
        (.text (some (describeListener t.val.nextListener)), s') ∧
      s'.view? node = some (t.mapRoot (·.addListener event (.client code))) := by
  refine ⟨{ s.changeNode t.id (·.addListener event (.client code)) with
    listeners := s.listeners.insert name t.val.nextListener }, ?_, view?_changeNode hs ht _⟩
  simp only [listen, changeAt, ht]

/-- What comes of removing a listener (`remove_event_listener`). -/
theorem unlisten_eq {s : Session} {node : String} {t : View Client} (ht : s.view? node = some t)
    {name : String} {id : Nat} (hid : s.listeners.get? name = some id) :
    s.edit (.unlisten node name) =
      (.flag (t.val.hasListener id), s.changeNode t.id (·.removeListener id)) := by
  simp only [edit, changeAt, ht, hid]

/-- Whom the events of a session tell (`dispatch_event`), and what becomes of the listeners of its nodes.
-/
structure DispatchTells (s : Session) : Prop where
  /-- The listeners of every node stand in the order of their numbers. -/
  ordered : ∀ x ∈ Forest.nodes s.world.forest, (x.2.listeners.map (·.id)).Pairwise (· < ·)
  /-- All of these numbers have been issued. -/
  issued : ∀ x ∈ Forest.nodes s.world.forest, ∀ r ∈ x.2.listeners, r.id < x.2.nextListener
  /-- At any later time the next number of a node is no smaller. -/
  next_le : ∀ {n t s₁ t₁}, s.world.forest.find? n = some t → Moves s s₁ →
    s₁.world.forest.find? n = some t₁ → t.val.nextListener ≤ t₁.val.nextListener
  /-- The listeners that have old numbers then are some of those that there were, in their order. -/
  survivors : ∀ {n t s₁ t₁}, s.world.forest.find? n = some t → Moves s s₁ →
    s₁.world.forest.find? n = some t₁ →
      (t₁.val.listeners.filter fun r => r.id < t.val.nextListener).Sublist t.val.listeners
  /-- An event that is fired at a node tells exactly the listeners that the node has for the event when
  that begins, each once and in their order, and the answer is their number. -/
  fired : ∀ {node t}, s.view? node = some t →
    ∀ {depth event reply s'}, s.fire (invoke depth) node event = some (reply, s') →
      reply = .count (t.val.listening event).length ∧ ∃ new, s'.history = new ++ s.history ∧
        heardBy s.deliveries new = (t.val.listening event).map fun r => (t.id, r.id)
  /-- A listener that is added comes last, with a number that no later one gets. -/
  listened : ∀ {node t}, s.view? node = some t → ∀ event name code, ∃ s' t',
    s.listen node event name code =
        (.text (some (describeListener t.val.nextListener)), s') ∧ s'.view? node = some t' ∧
      t'.val.listeners = t.val.listeners ++ [⟨t.val.nextListener, event, .client code⟩] ∧
      ∀ s₁ t₁, Moves s' s₁ → s₁.world.forest.find? t.id = some t₁ →
        t.val.nextListener < t₁.val.nextListener
  /-- Removing a number takes away the one listener that has it, if there is one, and answers whether
  there is; the others stand as they stood. -/
  unlistened : ∀ {node t}, s.view? node = some t →
    ∀ {name id}, s.listeners.get? name = some id → ∃ found s' t',
      s.edit (.unlisten node name) = (.flag found, s') ∧ s'.view? node = some t' ∧
      ((found = false ∧ id ∉ t.val.listeners.map (·.id) ∧ t'.val.listeners = t.val.listeners) ∨
        ∃ before r after, found = true ∧ r.id = id ∧
          t.val.listeners = before ++ r :: after ∧ t'.val.listeners = before ++ after)

/-- **Whom an event tells, and what becomes of the listeners**, in every session and for any depth of
clients that `fire`, `listen` and `unlisten` meanwhile. -/
theorem dispatch_tells_snapshot {model : Value} {methods : List (String × Client)} {s : Session}
    (hs : Moves (start model methods) s) : s.DispatchTells where
  ordered x hx := (hs.born x hx).orderly.ordered
  issued x hx := (hs.born x hx).orderly.issued
  next_le hfound hmoves hfound₁ := by
    obtain ⟨issued, hlife⟩ := hmoves.becomes_node hs.accounted hfound hfound₁
    exact hlife.nextListener_le
  survivors hfound hmoves hfound₁ := by
    obtain ⟨issued, hlife⟩ := hmoves.becomes_node hs.accounted hfound hfound₁
    exact hlife.sublist
  fired {node t} ht {depth event reply s'} h := by
    obtain ⟨hreply, new, hnew, hheard⟩ := fire_heard (runwise_numbering.invoke depth) ht h
    exact ⟨hreply, new, hnew.history, hheard⟩
  listened {node t} ht event name code := by
    obtain ⟨s', hs', hview⟩ := listen_eq hs.accounted ht event name code
    have hlistened : Step s s' := by
      have hstep := Step.listen s node event name code
      rwa [hs'] at hstep
    refine ⟨s', _, hs', hview, by rw [Tree.val_mapRoot]; rfl, fun s₁ t₁ hmoves hfound₁ => ?_⟩
    -- the node as the listener was added to it has the next number already
    obtain ⟨issued, hlife⟩ := hmoves.becomes_node (hs.accounted.step hlistened) (view?_eq_some hview).2
      (by rwa [Tree.id_mapRoot])
    rw [Tree.val_mapRoot] at hlife
    exact hlife.nextListener_le
  unlistened {node t} ht {name id} hid := by
    have horderly := (hs.born _ (Forest.mem_nodes_of_find? (view?_eq_some ht).2)).orderly
    refine ⟨_, _, _, unlisten_eq ht hid, view?_changeNode hs.accounted ht _, ?_⟩
    rw [Tree.val_mapRoot]
    exact horderly.removeListener_cases id

/-- The client that takes the next listener away, adds one for the same event and fires another
event. -/
def meddling : Client := fun _ =>
  .ask (.edit (.unlisten "bell" "second")) fun _ =>
    .ask (.listen "bell" "ring" "late" fun _ => .done .nothing) fun _ => .command (.fire "bell" "knock")

/-- A session in which a button has a meddling listener, one that does nothing, and one for another
event that takes all listeners away. -/
def meddledButton : Session :=
  ((start (.ofMembers []) []).run
    (.ask (.handle (.build "bell" (.element "button" [] []))) fun _ =>
      .ask (.listen "bell" "ring" "first" meddling) fun _ =>
        .ask (.listen "bell" "ring" "second" fun _ => .done .nothing) fun _ =>
          .command (.listen "bell" "knock" "third" fun _ =>
            .command (.edit (.clearListeners "bell"))))).2

/-- Both listeners of the `meddledButton` that were there are told, and not the one that came meanwhile; no
number comes back, though the table is empty in the end. -/
theorem event_tells_both_despite_meddling :
    ∃ t s' t' new, meddledButton.view? "bell" = some t ∧
      t.val.listeners.map (fun r => (r.id, r.event)) = [(0, "ring"), (1, "ring"), (2, "knock")] ∧
      meddledButton.fire (invoke 3) "bell" "ring" = some (.count 2, s') ∧
      s'.history = new ++ meddledButton.history ∧ heardBy 0 new = [(0, 0), (0, 1)] ∧ heardBy 1 new = [(0, 2)] ∧
      s'.view? "bell" = some t' ∧ t'.val.listeners.map (·.id) = [] ∧ t'.val.nextListener = 4 := by
  obtain ⟨t, ht⟩ := Option.isSome_iff_exists.1
    (show (meddledButton.view? "bell").isSome = true by decide)
  obtain ⟨⟨reply, s'⟩, hs'⟩ := Option.isSome_iff_exists.1
    (show (meddledButton.fire (invoke 3) "bell" "ring").isSome = true by decide)
  have hafter : (meddledButton.fire (invoke 3) "bell" "ring").map (·.2) = some s' := by rw [hs']; rfl
  have hlater : ((s'.view? "bell").map fun t' =>
      (t'.val.listeners.map (·.id), t'.val.nextListener)) = some ([], 4) := by
    rw [← Option.some.inj hafter]
    rfl
  obtain ⟨t', ht', htable⟩ := Option.map_eq_some_iff.1 hlater
  obtain ⟨hempty, hnext⟩ := Prod.mk.inj htable
  have hnested : heardBy 1 s'.history = [(0, 2)] := by
    rw [← Option.some.inj hafter]
    rfl
  have htable : t.val.listeners.map (fun r => (r.id, r.event)) =
      [(0, "ring"), (1, "ring"), (2, "knock")] := by
    rw [← Option.some.inj ht]
    rfl
  have hlistening : (t.val.listening "ring").map (fun r => (t.id, r.id)) = [(0, 0), (0, 1)] := by
    rw [← Option.some.inj ht]
    rfl
  have hmoves : Moves (start (.ofMembers []) []) meddledButton := moves_run _ _
  obtain ⟨hreply, new, hhistory, hheard⟩ := (dispatch_tells_snapshot hmoves).fired ht hs'
  have hcount : (t.val.listening "ring").length = 2 := by simpa using congrArg List.length hlistening
  have hunheard : meddledButton.history = [] := rfl
  rw [hcount] at hreply
  rw [hhistory, hunheard, List.append_nil] at hnested
  exact ⟨t, s', t', new, ht, htable, hreply ▸ hs', hhistory, hheard.trans hlistening, hnested, ht',
    hempty, hnext⟩

end Session

end ViewBinding
