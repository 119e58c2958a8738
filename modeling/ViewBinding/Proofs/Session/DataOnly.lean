import ViewBinding.Proofs.Session.Invariants

/-!
# Runs of clients that touch data only

Code is data-only if it only reads, writes to a store, and notes what it does; a session is data-only if
all code that a value or an event can reach in it is (`Session.DataOnly`).  Then no client runs that
binds, moves or names anything, and an invariant of such a session needs to be shown for few changes
only.

* `Steady` — what has to be shown of such an invariant: it is kept where a value is set, where a node
  dies and where a name is given.
* `Steady.act`, `Steady.invoke` — the induction over runs, made once.
* `Steadfast` — what is enough for an invariant that does not speak of the history: the changes of
  which setting a value consists keep it.
* `Onward`, `Steadfast.onward` — any number of such actions, each on the store of any scope.
-/

namespace ViewBinding

open Json (Value)

/-! ## Data-only code -/

/-- Whether a command only reads, writes to a store, or notes something: it neither fires an event nor
touches a view. -/
def Command.isDataOnly {κ : Type} : Command κ → Bool
  | .set .. => true
  | .query _ => true
  | .note _ => true
  | .enter .. => true
  | _ => false

/-- Whether a command is data-only (`isDataOnly`), fires an event, or names a node. -/
def Command.isOutward {κ : Type} : Command κ → Bool
  | .fire .. => true
  | .handle _ => true
  | c => c.isDataOnly

/-- Whether an action asks commands of a kind only, whatever is replied. -/
def Action.Asks (p : Command Client → Bool) : Action → Prop
  | .done _ => True
  | .ask c next => p c = true ∧ ∀ reply, (next reply).Asks p

theorem Action.Asks.mono {p q : Command Client → Bool} (hpq : ∀ c, p c = true → q c = true) :
    ∀ {a : Action}, a.Asks p → a.Asks q
  | .done _, _ => trivial
  | .ask c _, h => ⟨hpq c h.1, fun reply => (h.2 reply).mono hpq⟩

theorem Command.isOutward_of_isDataOnly (c : Command Client) (h : c.isDataOnly = true) :
    c.isOutward = true := by
  cases c with
  | fire node event => rfl
  | handle x => rfl
  | _ => exact h

/-- Whether the code of a client is data-only (`Command.isDataOnly`), whatever it sees. -/
def Client.DataOnly (code : Client) : Prop := ∀ seen, (code seen).Asks Command.isDataOnly

/-- Whether the code of an observer, if there is any, is data-only. -/
def Observer.DataOnly : Observer Client → Prop
  | .client code => Client.DataOnly code
  | .retained code => Client.DataOnly code
  | _ => True

/-- Whether the code of a listener, if there is any, is data-only. -/
def Listener.DataOnly : Listener Client → Prop
  | .input .. => True
  | .method _ code => Client.DataOnly code
  | .client code => Client.DataOnly code

namespace Session

/-- A session in which values and events reach `Client.DataOnly` code only. -/
structure DataOnly (s : Session) : Prop where
  observers : ∀ st ∈ s.world.stores, ∀ key, ∀ entry ∈ st.observersOf key, entry.2.DataOnly
  listeners : ∀ x ∈ Forest.nodes s.world.forest, ∀ r ∈ x.2.listeners, r.listener.DataOnly

/-! ## What every such run keeps -/

/-- Whether data-only code that a caller runs leads from sessions of a kind (`J`) to what is related to
them (`P`). -/
def Keeps (call : Caller) (J : Session → Prop) (P : Session → Session → Prop) : Prop :=
  ∀ scope code seen s s', Client.DataOnly code → J s → call scope code seen s = some s' → P s s'

/-- What has to be shown of an invariant `J`, and of a relation between the sessions of this kind and
what becomes of them, for both to be kept by every run of data-only clients. -/
structure Steady (J : Session → Prop) (P : Session → Session → Prop) : Prop where
  listeners : ∀ {s}, J s → ∀ x ∈ Forest.nodes s.world.forest, ∀ r ∈ x.2.listeners, r.listener.DataOnly
  keeps : ∀ {s s'}, J s → P s s' → J s'
  trans : ∀ {s s₁ s₂}, P s s₁ → P s₁ s₂ → P s s₂
  busy : ∀ {s : Session} nodes stores, J s → P s { s with busyNodes := nodes, busyStores := stores }
  record : ∀ {s : Session} h, h.delivery? = none → J s → P s (s.record h)
  begin : ∀ {s : Session} h, (h s.deliveries).delivery? = none → J s → P s (s.begin h)
  set : ∀ {call}, Keeps call J P → ∀ {store key value s s'}, J s →
    Session.set call store key value s = some s' → P s s'
  sweep : ∀ {s : Session}, J s → P s s.sweep
  handle : ∀ {s : Session} h, J s → P s (s.handle h).2

namespace Steady

variable {J : Session → Prop} {P : Session → Session → Prop} {call : Caller} {s s₁ s₂ s' : Session}

theorem refl (hJ : Steady J P) (hs : J s) : P s s :=
  hJ.busy s.busyNodes s.busyStores hs

/-- One thing after the other. -/
theorem andThen (hJ : Steady J P) (hs : J s) (h₁ : P s s₁) (h₂ : J s₁ → P s₁ s₂) : P s s₂ :=
  hJ.trans h₁ (h₂ (hJ.keeps hs h₁))

theorem holding (hJ : Steady J P) {nodes : List NodeId} {stores : List StoreId}
    {f : Session → Option Session} (hf : ∀ {a b}, J a → f a = some b → P a b) (hs : J s)
    (h : s.holding nodes stores f = some s') : P s s' := by
  obtain ⟨after, hafter, rfl⟩ := holding_eq_some h
  exact hJ.andThen hs (hJ.busy (nodes ++ s.busyNodes) (stores ++ s.busyStores) hs) fun hheld =>
    hJ.andThen hheld (hf hheld hafter) (hJ.busy _ _)

theorem hear (hJ : Steady J P) (hcall : Keeps call J P) {event : String}
    {listener : Listener Client} (hdataOnly : listener.DataOnly) (hs : J s)
    (h : Session.hear call event listener s = some s') : P s s' := by
  cases listener with
  | input node store key =>
    simp only [Session.hear] at h
    split at h
    · exact Option.some.inj h ▸ hJ.refl hs
    · exact hJ.set hcall hs h
  | method store code => exact hcall (some store) code _ s s' hdataOnly hs h
  | client code => exact hcall none code _ s s' hdataOnly hs h

theorem hearAll (hJ : Steady J P) (hcall : Keeps call J P) {number : Nat} {node : NodeId}
    {event : String} {listeners : List (Registered Client)}
    (hdataOnly : ∀ r ∈ listeners, r.listener.DataOnly) (hs : J s)
    (h : Session.hearAll call number node event listeners s = some s') : P s s' := by
  induction listeners generalizing s with
  | nil => exact Option.some.inj h ▸ hJ.refl hs
  | cons r rest ih =>
    rw [Session.hearAll] at h
    split at h
    · exact absurd h (by simp)
    · next s₁ hs₁ =>
      have hfirst : P s s₁ := hJ.andThen hs (hJ.record _ rfl hs) fun hrecorded =>
        hJ.hear hcall (hdataOnly r List.mem_cons_self) hrecorded hs₁
      exact hJ.andThen hs hfirst fun hafter =>
        ih (fun r' hr' => hdataOnly r' (List.mem_cons_of_mem r hr')) hafter h

theorem fire (hJ : Steady J P) (hcall : Keeps call J P) {node event : String} {reply : Reply}
    (hs : J s) (h : s.fire call node event = some (reply, s')) : P s s' := by
  unfold Session.fire at h
  split at h
  · simp only [Option.some.injEq, Prod.mk.injEq] at h
    exact h.2 ▸ hJ.refl hs
  · next t ht =>
    obtain ⟨after, hafter, heq⟩ := Option.map_eq_some_iff.1 h
    have hnode : (t.id, t.val) ∈ Forest.nodes s.world.forest := by
      obtain ⟨n, -, hfound⟩ := Option.bind_eq_some_iff.1 ht
      exact Forest.mem_nodes_of_find? hfound
    have hdataOnly : ∀ r ∈ t.val.listening event, r.listener.DataOnly := fun r hr =>
      hJ.listeners hs _ hnode r (List.mem_filter.1 hr).1
    rw [← (Prod.mk.inj heq).2]
    exact hJ.andThen hs (hJ.begin _ rfl hs) fun hbegun =>
      hJ.holding (hJ.hearAll hcall hdataOnly) hbegun hafter

/-- **One command** that sets a value, fires an event or names a node (`isOutward`). -/
theorem perform (hJ : Steady J P) (hcall : Keeps call J P) {scope : Option StoreId}
    {command : Command Client} {reply : Reply} (hcommand : command.isOutward = true) (hs : J s)
    (h : s.perform call scope command = some (reply, s')) : P s s' := by
  cases command with
  | set key value =>
    obtain ⟨after, hafter, heq⟩ := Option.map_eq_some_iff.1 h
    exact (Prod.mk.inj heq).2 ▸ hJ.set hcall hs hafter
  | fire node event => exact hJ.fire hcall hs h
  | query q => exact (Prod.mk.inj (Option.some.inj h)).2 ▸ hJ.refl hs
  | note text => exact (Prod.mk.inj (Option.some.inj h)).2 ▸ hJ.record _ rfl hs
  | enter name seen => exact (Prod.mk.inj (Option.some.inj h)).2 ▸ hJ.record _ rfl hs
  | handle x =>
    obtain rfl : (s.handle x).2 = s' := congrArg Prod.snd (Option.some.inj h)
    exact hJ.handle x hs
  | _ => exact absurd hcommand (by simp [Command.isOutward, Command.isDataOnly])

/-- **An action** of such commands. -/
theorem act (hJ : Steady J P) (hcall : Keeps call J P) {scope : Option StoreId} : ∀ (a : Action)
    {s s' : Session} {reply : Reply}, a.Asks Command.isOutward → J s →
      Session.act call scope a s = some (reply, s') → P s s'
  | .done r, s, s', reply, _, hs, h => by
    simp only [Session.act, Option.some.injEq, Prod.mk.injEq] at h
    exact h.2 ▸ hJ.refl hs
  | .ask command next, s, s', reply, hasks, hs, h => by
    rw [Session.act] at h
    split at h
    · exact absurd h (by simp)
    · next r s₁ hs₁ =>
      -- the recursion is on what the action does in view of the reply
      have hfirst : P s s₁.sweep :=
        hJ.andThen hs (hJ.perform hcall hasks.1 hs hs₁) hJ.sweep
      exact hJ.andThen hs hfirst fun hswept => hJ.act hcall (next r) (hasks.2 r) hswept h

/-- **Data-only code** keeps both, however deep clients make each other run (`Session.invoke`). -/
theorem invoke (hJ : Steady J P) (depth : Nat) : Keeps (Session.invoke depth) J P := by
  induction depth with
  | zero =>
    intro _ _ _ _ _ _ _ h
    exact absurd h (by simp [Session.invoke])
  | succ depth ih =>
    intro scope code seen s s' hdataOnly hs h
    obtain ⟨result, hresult, heq⟩ := Option.map_eq_some_iff.1 h
    have hasks : (code seen).Asks Command.isOutward :=
      (hdataOnly seen).mono Command.isOutward_of_isDataOnly
    exact hJ.act ih (code seen) hasks hs (by rw [hresult, ← heq])

end Steady

/-! ## Invariants that do not speak of the history -/

/-- What is enough for an invariant that does not speak of the history: all observers that there are
when a value is written are `ok`, and showing a value keeps the invariant if the observer is. -/
structure Steadfast (ok : Observer Client → Prop) (J : Session → Prop) : Prop where
  observers : ∀ {s}, J s → ∀ st ∈ s.world.stores, ∀ key, ∀ entry ∈ st.observersOf key, ok entry.2
  dataOnly : ∀ {o}, ok o → o.DataOnly
  listeners : ∀ {s}, J s → ∀ x ∈ Forest.nodes s.world.forest, ∀ r ∈ x.2.listeners, r.listener.DataOnly
  busy : ∀ {s : Session} nodes stores, J s → J { s with busyNodes := nodes, busyStores := stores }
  happen : ∀ {s : Session} history deliveries, J s →
    J { s with history := history, deliveries := deliveries }
  write : ∀ {s : Session} store key value, J s →
    J (s.changeStores (·.update store (·.write key value)))
  refresh : ∀ {s : Session} {o} value, ok o → J s → J { s with world := s.world.refresh o value }
  sweep : ∀ {s : Session}, J s → J s.sweep
  handle : ∀ {s : Session} h, J s → J (s.handle h).2

namespace Steadfast

variable {ok : Observer Client → Prop} {J : Session → Prop} {call : Caller} {s s' : Session}

theorem record (hJ : Steadfast ok J) (h : Happening) (hs : J s) : J (s.record h) :=
  hJ.happen (h :: s.history) s.deliveries hs

theorem begin (hJ : Steadfast ok J) (h : Nat → Happening) (hs : J s) : J (s.begin h) := by
  have hlater := hJ.happen (h s.deliveries :: s.history) (s.deliveries + 1) hs
  exact hlater

/-- An observer is told. -/
theorem tell (hJ : Steadfast ok J) (hcall : Keeps call J fun _ s' => J s')
    {observer : Observer Client} {value : Value} (hok : ok observer) (hs : J s)
    (h : Session.tell call observer value s = some s') : J s' := by
  have hrefresh : J { s with world := s.world.refresh observer value }.sweep :=
    hJ.sweep (hJ.refresh value hok hs)
  have hdataOnly := hJ.dataOnly hok
  cases observer with
  | client code => exact hcall none code value s s' hdataOnly hs h
  | retained code => exact hcall none code value s s' hdataOnly hs h
  | content n => exact Option.some.inj h ▸ hrefresh
  | field n => exact Option.some.inj h ▸ hrefresh
  | marker n template m => exact Option.some.inj h ▸ hrefresh

/-- A value is set.  Whoever is told was there when it was written. -/
theorem set (hJ : Steadfast ok J) (hcall : Keeps call J fun _ s' => J s') {store : StoreId}
    {key : String} {value : Value} (hs : J s)
    (h : Session.set call store key value s = some s') : J s' := by
  rcases set_cases h with ⟨rfl, -⟩ | ⟨st, after, hst, -, hafter, rfl⟩
  · exact hs
  · have hwritten : J { s.write store key value with busyStores := store :: s.busyStores } :=
      hJ.busy s.busyNodes (store :: s.busyStores)
        (hJ.begin (fun number => .wrote number store key value) (hJ.write store key value hs))
    have hall : ∀ entry ∈ st.observersOf key, ok entry.2 :=
      hJ.observers hs st (List.mem_of_getElem? hst) key
    obtain ⟨rest, ⟨-, hlast⟩, -⟩ := deliver_exit
      (I := fun rest s₁ => (∀ entry ∈ rest, ok entry.2) ∧ J s₁)
      (fun {id observer rest s₁ s₂} hI _ htell => by
        obtain ⟨hrest, hs₁⟩ := hI
        refine ⟨fun entry hentry => hrest entry (List.mem_cons_of_mem _ hentry), ?_⟩
        exact hJ.tell hcall (hrest (id, observer) List.mem_cons_self) (hJ.record _ hs₁) htell)
      ⟨hall, hwritten⟩ hafter
    exact hJ.busy _ _ hlast

theorem steady (hJ : Steadfast ok J) : Steady J fun _ s' => J s' where
  listeners := hJ.listeners
  keeps _ h := h
  trans _ h := h
  busy := hJ.busy
  record h _ hs := hJ.record h hs
  begin h _ hs := hJ.begin h hs
  set hcall _ _ _ _ _ hs h := hJ.set hcall hs h
  sweep := hJ.sweep
  handle := hJ.handle

end Steadfast

/-! ## What may come later -/

/-- What a session comes to by any number of actions from outside that set values, fire events and name
nodes (`isOutward`), each on the store of any scope. -/
inductive Onward (s : Session) : Session → Prop
  /-- Nothing has been done yet. -/
  | refl : Onward s s
  /-- The history starts anew. -/
  | forget {s₁ : Session} (h : Onward s s₁) : Onward s { s₁ with history := [] }
  /-- One more action. -/
  | act {s₁ s₂ : Session} {scope : Option StoreId} {a : Action} {reply : Reply} (h : Onward s s₁)
      (hasks : a.Asks Command.isOutward)
      (hact : Session.act (invoke depth) scope a s₁ = some (reply, s₂)) : Onward s s₂

/-- Actions that are run from outside are among them. -/
theorem onward_runs (s : Session) (actions : List Action)
    (h : ∀ a ∈ actions, a.Asks Command.isOutward) : Onward s (s.runs actions) := by
  suffices hall : ∀ s₁, Onward s s₁ → Onward s (s₁.runs actions) from hall s .refl
  induction actions with
  | nil => exact fun s₁ hs₁ => hs₁
  | cons a rest ih =>
    intro s₁ hs₁
    refine ih (fun b hb => h b (List.mem_cons_of_mem a hb)) _ ?_
    unfold Session.run
    simp only
    split
    · next reply after hact => exact .act hs₁.forget (h a List.mem_cons_self) hact
    · exact hs₁.forget

/-- **Whatever comes later** (`Onward`) keeps a steadfast invariant. -/
theorem Steadfast.onward {ok : Observer Client → Prop} {J : Session → Prop} (hJ : Steadfast ok J)
    {s s' : Session} (h : Onward s s') (hs : J s) : J s' := by
  induction h with
  | refl => exact hs
  | forget h ih => exact hJ.happen [] _ ih
  | act h hasks hact ih => exact hJ.steady.act (hJ.steady.invoke depth) _ hasks ih hact

end Session

end ViewBinding
