import ViewBinding.Proofs.Live.Following

/-!
# Writing and typing

What a client does to a store and to the fields of a view that follows it: it sets keys, or types
texts into value fields that are tied to keys.  Either way the view is up to date afterwards.

* `Live.write`, `Live.type` — one operation, and what the store holds after it.
* `Live.runAll` — any finite sequence of operations.
-/

namespace ViewBinding

open Json (Value)

/-! ## Operations -/

/-- What is done to a session in which a view follows a store: by the program that sets keys, or by a user
who types. -/
inductive Operation where
  | write (key : String) (value : Value)
  | type (field text : String)

/-- An operation as an action; typing fires the event that the view listens to (`inputEvent`). -/
def Operation.action (inputEvent : String) : Operation → Action
  | write key value => .command (.set key value)
  | type field text => .type field text inputEvent

/-- Runs operations from outside, one after the other. -/
def Session.runAll (inputEvent : String) (s : Session) (ops : List Operation) : Session :=
  ops.foldl (fun s op => (s.run (op.action inputEvent)).2) s

theorem Session.runAll_append (inputEvent : String) (s : Session) (ops : List Operation)
    (op : Operation) :
    s.runAll inputEvent (ops ++ [op]) =
      ((s.runAll inputEvent ops).run (op.action inputEvent)).2 := by
  rw [Session.runAll, List.foldl_append]
  rfl

/-- An action that comes to an end is what is run. -/
theorem Session.run_eq {s s' : Session} {a : Action} {reply : Reply}
    (h : act (invoke depth) none a { s with history := [] } = some (reply, s')) :
    s.run a = (reply, s') := by
  simp only [run, h]

/-- An event that a single listener hears. -/
theorem Session.hearAll_single {call : Caller} {number : Nat} {node : NodeId} {event : String}
    {r : Registered Client} {s s' : Session}
    (h : hear call event r.listener (s.record (.heard number node r.id)) = some s') :
    hearAll call number node event [r] s = some s' := by
  rw [hearAll, h]
  rfl

namespace Live

variable {L : Layout} {st : Store Client} {ok : Slot → String → Prop} {s : Session}
  {sl : Slot} {field key text : String}

/-! ## Writing -/

/-- Once a value is set, the store holds it, or the same value that was there before. -/
theorem holds_setStore (st : Store Client) (key : String) (value : Value) :
    (setStore st key value).holds key value = true := by
  unfold setStore
  split
  · next h => exact h
  · rw [Store.holds, Store.get?_write_self]
    exact value.same_refl

/-- **Writing.** A key is set to a value, and the view goes on following (`Live`). -/
theorem write (h : Live L st (upToDate st.get?) s) (key : String) (value : Value) (call : Caller) :
    ∃ s', Session.act call none (.command (.set key value)) s = some (.nothing, s') ∧
      Live L (setStore st key value) (upToDate (setStore st key value).get?) s' := by
  obtain ⟨s', hs', hlive⟩ := h.set (fun sl hsl x hx => Or.inl hx) call
  refine ⟨s'.sweep, ?_, hlive.sweep⟩
  rw [Action.command, Session.act, Session.perform, Session.storeIn, Option.getD_none, h.current, hs']
  rfl

/-! ## Typing -/

/-- The element of a field, as it stands in a session. -/
theorem field_found (h : Live L st ok s) (hsl : sl ∈ L.slots) (hpart : sl.part = .field) :
    ∃ u, s.world.forest.find? sl.node = some u ∧ ok sl u.val.value ∧
      ∃ r, u.val.listeners = [r] ∧ r.event = L.options.inputEvent ∧
        r.listener = .input sl.node L.store sl.key := by
  obtain ⟨t, u, us, hfocus, hfound, -⟩ := h.displays.expand L.distinct L.template (L.slot_lt hsl) hsl
  exact ⟨u, hfound, hfocus.field_heard hpart⟩

theorem view?_eq (h : Live L st ok s) (hname : L.names.get? field = some sl.node) {u : View Client}
    (hu : s.world.forest.find? sl.node = some u) : s.view? field = some u := by
  rw [Session.view?, h.names, hname, Option.bind_some, hu]

/-- What a view shows while a text stands in a field, and its key does not have it yet: between `set_value`
and the end of `dispatch_event`. -/
def typed (st : Store Client) (sl : Slot) (text : String) (sl' : Slot) (shown : String) : Prop :=
  (sl' = sl ∧ shown = text) ∨ (sl' ≠ sl ∧ upToDate st.get? sl' shown)

theorem refreshes_typed (st : Store Client) (sl : Slot) (text : String) :
    Refreshes sl text (upToDate st.get?) (typed st sl text) :=
  ⟨Or.inl ⟨rfl, rfl⟩, fun _ hne _ hx => Or.inr ⟨hne, hx⟩⟩

/-- A store that holds a text already has that text. -/
theorem get?_of_holds (h : st.holds key (.string text) = true) : st.get? key = some (.string text) := by
  unfold Store.holds at h
  split at h
  · next v hv =>
    cases v with
    | string text' =>
      obtain rfl : text' = text := by simpa [Value.same] using h
      exact hv
    | _ => simp [Value.same] at h
  · simp at h

/-- The field that was typed into is out of date only as long as its key has another value. -/
theorem upToDate_of_typed {sl' : Slot} {shown : String} (h : typed st sl text sl' shown) :
    upToDate st.get? sl' shown ∨ (sl'.key = sl.key ∧ st.holds sl.key (.string text) = false) := by
  rcases h with ⟨rfl, rfl⟩ | ⟨-, hup⟩
  · cases hholds : st.holds sl'.key (.string shown) with
    | true =>
      left
      rw [upToDate, get?_of_holds hholds]
      rfl
    | false => exact Or.inr ⟨rfl, rfl⟩
  · exact Or.inl hup

/-- A text is put into a field. -/
theorem setValue (h : Live L st (upToDate st.get?) s) (hsl : sl ∈ L.slots) (hpart : sl.part = .field)
    (text : String) :
    Live L st (typed st sl text) (s.changeNode sl.node (·.setValue text)) := by
  have hr : Refreshes sl (Value.display (some (.string text))) (upToDate st.get?)
      (typed st sl text) := refreshes_typed st sl text
  have hrefreshed := h.refresh hsl hr
  have hobserver : (sl.observer : Observer Client) = .field sl.node := by
    rw [Slot.observer, hpart]
  rw [hobserver] at hrefreshed
  exact hrefreshed

/-- The event is fired at a field, and takes the text into the key (`Listener.input`). -/
theorem fire (h : Live L st (typed st sl text) s) (hsl : sl ∈ L.slots) (hpart : sl.part = .field)
    (hname : L.names.get? field = some sl.node) (call : Caller) :
    ∃ s', s.fire call field L.options.inputEvent = some (.count 1, s') ∧
      Live L (setStore st sl.key (.string text))
        (upToDate (setStore st sl.key (.string text)).get?) s' := by
  obtain ⟨u, hfound, hshown, r, hlisteners, hevent, hlistener⟩ := h.field_found hsl hpart
  have hvalue : u.val.value = text := hshown.elim (·.2) fun hother => absurd rfl hother.1
  have hlistening : u.val.listening L.options.inputEvent = [r] := by
    rw [Node.listening, hlisteners, List.filter_cons_of_pos (by simpa using hevent), List.filter_nil]
  -- while it is heard, the session is only busy with the field and its store
  let busy : Session :=
    { (s.begin fun number => .fired number u.id L.options.inputEvent).record
        (.heard s.deliveries u.id r.id) with
      busyNodes := u.id :: s.busyNodes, busyStores := L.store :: s.busyStores }
  have hbusy : Live L st (typed st sl text) busy := h.of_eq rfl rfl rfl
  have hok : ∀ sl' ∈ L.slots, ∀ x, typed st sl text sl' x → upToDate st.get? sl' x ∨
      (sl'.key = sl.key ∧ st.holds sl.key (.string text) = false) :=
    fun sl' _ x hx => upToDate_of_typed hx
  obtain ⟨s', hs', hlive⟩ := hbusy.set hok call
  have hheard : Session.hear call L.options.inputEvent r.listener busy = some s' := by
    have hnode : busy.world.node? sl.node = some u.val := by
      show (s.world.forest.find? sl.node).map Tree.val = some u.val
      rw [hfound]
      rfl
    rw [hlistener, Session.hear, hnode, ← hs', ← hvalue]
  refine ⟨{ s' with busyNodes := s.busyNodes, busyStores := s.busyStores }, ?_,
    hlive.of_eq rfl rfl rfl⟩
  have hstores : [r].filterMap (fun r => r.listener.store?) = [L.store] := by
    simp [hlistener, Listener.store?]
  have hall : Session.hearAll call s.deliveries u.id L.options.inputEvent [r]
      { s.begin (fun number => .fired number u.id L.options.inputEvent) with
        busyNodes := u.id :: s.busyNodes, busyStores := L.store :: s.busyStores } = some s' :=
    Session.hearAll_single hheard
  simp only [Session.fire, h.view?_eq hname hfound, hlistening, hstores, Session.holding]
  exact congrArg (fun o => Option.map _ (Option.map _ o)) hall

/-- **Typing.** The one listener of the field hears the event (`inputEvent`), and the view goes on
following. -/
theorem type (h : Live L st (upToDate st.get?) s) (hsl : sl ∈ L.slots) (hpart : sl.part = .field)
    (hname : L.names.get? field = some sl.node) (text : String) (call : Caller) :
    ∃ changed s', Session.act call none (.type field text L.options.inputEvent) s =
        some (.typed changed 1, s') ∧
      Live L (setStore st sl.key (.string text))
        (upToDate (setStore st sl.key (.string text)).get?) s' := by
  obtain ⟨u, hfound, -, -⟩ := h.field_found hsl hpart
  have hid : u.id = sl.node := Forest.find?_id hfound
  obtain ⟨s', hfire, hlive⟩ := (h.setValue hsl hpart text).sweep.fire hsl hpart hname call
  have hedit : s.edit (.setValue field text) =
      (.flag (u.val.valueDiffers text), s.changeNode sl.node (·.setValue text)) := by
    simp only [Session.edit, Session.changeAt, h.view?_eq hname hfound, hid]
  refine ⟨u.val.valueDiffers text, s'.sweep, ?_, hlive.sweep⟩
  rw [Action.type, Session.act, Session.perform, hedit]
  simp only
  rw [Session.act, Session.perform, hfire]
  rfl

/-! ## Any operations -/

/-- What an operation sets: typing sets the key of the field to the text. -/
inductive Sets (L : Layout) : Operation → String → Value → Prop
  | write (key : String) (value : Value) : Sets L (.write key value) key value
  | type {field : String} {sl : Slot} (text : String) (hsl : sl ∈ L.slots)
      (hpart : sl.part = .field) (hname : L.names.get? field = some sl.node) :
      Sets L (.type field text) sl.key (.string text)

/-- One operation. -/
theorem run (h : Live L st (upToDate st.get?) s) {op : Operation} {value : Value}
    (hop : Sets L op key value) :
    Live L (setStore st key value) (upToDate (setStore st key value).get?)
      (s.run (op.action L.options.inputEvent)).2 := by
  have hfresh : Live L st (upToDate st.get?) { s with history := [] } := h.of_eq rfl rfl rfl
  cases hop with
  | write key value =>
    obtain ⟨s', hs', hlive⟩ := hfresh.write key value (Session.invoke Session.depth)
    rw [Operation.action, Session.run_eq hs']
    exact hlive
  | type text hsl hpart hname =>
    obtain ⟨changed, s', hs', hlive⟩ :=
      hfresh.type hsl hpart hname text (Session.invoke Session.depth)
    rw [Operation.action, Session.run_eq hs']
    exact hlive

/-- **Any operations.** The view is up to date after all of them (`runAll`). -/
theorem runAll (h : Live L st (upToDate st.get?) s) (ops : List Operation)
    (hops : ∀ op ∈ ops, ∃ key value, Sets L op key value) :
    ∃ st', Live L st' (upToDate st'.get?) (s.runAll L.options.inputEvent ops) := by
  induction ops generalizing st s with
  | nil => exact ⟨st, h⟩
  | cons op ops ih =>
    obtain ⟨key, value, hop⟩ := hops op List.mem_cons_self
    exact ih (h.run hop) fun op hop => hops op (List.mem_cons_of_mem _ hop)

end Live

end ViewBinding
