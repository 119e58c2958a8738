import ViewBinding.Proofs.Session.History
import ViewBinding.Proofs.World.Sweeping
import Mathlib.Logic.Relation

/-!
# Invariants of runs

Everything that runs is a sequence of single moves (`moves_run`): the steps, and the writing and
telling of values.  So what every move keeps, every run keeps (`Moves.invariant`), and a store at any
later time is what became of it (`Moves.becomes`).

Between two actions only the nodes are left that somebody holds by a name (`Tended.run`).
-/

namespace ViewBinding

open Json (Value)

namespace Session

/-! ## Runs as moves -/

/-- What a session comes to by a single change: a `Step`, or a part of a delivery. -/
inductive Move : Session → Session → Prop
  /-- A step, in which no value is written. -/
  | step {s s' : Session} (h : Step s s') : Move s s'
  /-- Other nodes and stores are being worked on. -/
  | busy (s : Session) (nodes : List NodeId) (stores : List StoreId) :
      Move s { s with busyNodes := nodes, busyStores := stores }
  /-- A value was written. -/
  | write (s : Session) (store : StoreId) (key : String) (value : Value) :
      Move s (s.write store key value)
  /-- An observer is about to be told of a value. -/
  | told (s : Session) (number : Nat) (store : StoreId) (sub : Subscription) (value : Value) :
      Move s (s.record (.told number store sub value))
  /-- The history starts anew. -/
  | forget (s : Session) : Move s { s with history := [] }

/-- What a session comes to by any number of changes: all that can be reached by runs. -/
abbrev Moves : Session → Session → Prop := Relation.ReflTransGen Move

theorem Step.moves {s s' : Session} (h : Step s s') : Moves s s' :=
  .single (.step h)

/-- What every move keeps is kept by any number of them. -/
theorem Moves.invariant {J : Session → Prop} (hmove : ∀ {s s'}, Move s s' → J s → J s')
    {s s' : Session} (h : Moves s s') (hs : J s) : J s' := by
  induction h with
  | refl => exact hs
  | tail _ hlast ih => exact hmove hlast ih

theorem stepwise_moves : Stepwise Moves where
  step h := h.moves
  busy s nodes stores := .single (.busy s nodes stores)
  trans h₁ h₂ := h₁.trans h₂
  set {call} hcall {store key value s s'} h := by
    rcases set_cases h with ⟨rfl, -⟩ | ⟨st, after, -, -, hafter, rfl⟩
    · exact .refl
    · have hwrite : Moves s { s.write store key value with busyStores := store :: s.busyStores } :=
        (Relation.ReflTransGen.single (.write s store key value)).tail
          (.busy _ s.busyNodes (store :: s.busyStores))
      have htell : ∀ {number id observer} {s₁ s₂ : Session}, Moves s s₁ →
          tell call observer value (s₁.record (.told number store ⟨id, key⟩ value)) = some s₂ →
            Moves s s₂ := fun {number id observer s₁ s₂} h₁ h₂ =>
        (h₁.tail (.told s₁ number store ⟨id, key⟩ value)).trans
          (hcall.tell_of_refresh
            (fun s o v => (Step.refresh s o v).moves.trans (Step.sweep _).moves) h₂)
      obtain ⟨rest, hrest, -⟩ := deliver_exit (I := fun _ s₁ => Moves s s₁)
        (fun h₁ _ h₂ => htell h₁ h₂) hwrite hafter
      exact hrest.tail (.busy _ s.busyNodes s.busyStores)

/-- **Every action is a sequence of single moves** (`Session.run`). -/
theorem moves_run (s : Session) (a : Action) : Moves s (s.run a).2 := by
  have hfresh : Moves s { s with history := [] } := .single (.forget s)
  unfold Session.run
  simp only
  split
  · next reply after hact =>
    exact hfresh.trans (stepwise_moves.act (stepwise_moves.invoke depth) a hact)
  · exact hfresh

/-- The session after some actions one after the other. -/
def runs (s : Session) (actions : List Action) : Session :=
  actions.foldl (fun s a => (s.run a).2) s

/-- What every action keeps is kept by any number of them. -/
theorem runs_invariant {J : Session → Prop} (hrun : ∀ {s} (a : Action), J s → J (s.run a).2)
    {s : Session} (hs : J s) (actions : List Action) : J (s.runs actions) := by
  induction actions generalizing s with
  | nil => exact hs
  | cons a rest ih => exact ih (hrun a hs)

/-- Any number of actions is a sequence of single moves. -/
theorem moves_runs (s : Session) (actions : List Action) : Moves s (s.runs actions) :=
  runs_invariant (fun a h => h.trans (moves_run _ a)) Relation.ReflTransGen.refl actions

/-! ## Stores at a later time -/

theorem Move.becomes {s s₁ : Session} {store : StoreId} {st : Store Client} (h : Move s s₁)
    (hst : s.world.stores[store]? = some st) :
    ∃ st₁ : Store Client, s₁.world.stores[store]? = some st₁ ∧ st.Becomes st₁ := by
  have hsame : ∃ st₁ : Store Client, s.world.stores[store]? = some st₁ ∧ st.Becomes st₁ :=
    ⟨st, hst, Store.Becomes.refl st⟩
  cases h with
  | step hstep =>
    obtain ⟨st₁, hst₁, hbecomes, -⟩ := hstep.quiet.stores.rewired.kept store st hst
    exact ⟨st₁, hst₁, hbecomes⟩
  | busy nodes stores => exact hsame
  | write id k v =>
    obtain ⟨st₁, hst₁, hbecomes, -⟩ := (s.proceeds_write id k v).stores store st hst
    exact ⟨st₁, hst₁, hbecomes⟩
  | told number id sub v => exact hsame
  | forget => exact hsame

/-- Whatever runs, a store stays, and becomes what it does by writes and subscriptions (`Store.Becomes`).
-/
theorem Moves.becomes {s s₁ : Session} {store : StoreId} {st : Store Client} (h : Moves s s₁)
    (hst : s.world.stores[store]? = some st) :
    ∃ st₁ : Store Client, s₁.world.stores[store]? = some st₁ ∧ st.Becomes st₁ := by
  refine h.invariant
    (J := fun s₁ => ∃ st₁ : Store Client, s₁.world.stores[store]? = some st₁ ∧ st.Becomes st₁)
    (fun hmove ⟨st₁, hst₁, hbecomes⟩ => ?_) ⟨st, hst, Store.Becomes.refl st⟩
  obtain ⟨st₂, hst₂, hmore⟩ := hmove.becomes hst₁
  exact ⟨st₂, hst₂, hbecomes.trans hmore⟩

/-- A subscription that was issued and is not registered any more never is again, since its number is not
given out a second time (`nextId`). -/
theorem Moves.not_registered {s s₁ : Session} {store : StoreId} {st st₁ : Store Client}
    {sub : Subscription} (h : Moves s s₁) (hst : s.world.stores[store]? = some st)
    (hst₁ : s₁.world.stores[store]? = some st₁) (hissued : sub.id < st.nextId)
    (hout : st.isRegistered sub = false) : st₁.isRegistered sub = false := by
  obtain ⟨st₂, hst₂, hbecomes⟩ := h.becomes hst
  obtain rfl : st₁ = st₂ := Option.some.inj (hst₁.symm.trans hst₂)
  exact Bool.eq_false_iff.2 fun hin => Bool.eq_false_iff.1 hout (hbecomes.isRegistered hissued hin)

/-! ## What is left between two actions -/

/-- Whether every root is held by somebody (`holdsNode`). -/
def Kept (s : Session) : Prop := ∀ u ∈ s.world.forest, s.holdsNode u.id = true

theorem kept_sweep (s : Session) : s.sweep.Kept := fun _ hu =>
  s.world.held_of_mem_sweep s.holdsNode hu

/-- Where every root is held, nothing dies. -/
theorem Kept.sweep_eq {s : Session} (h : s.Kept) : s.sweep = s := by
  have hworld : s.world.sweep s.holdsNode = s.world := by
    rw [World.sweep, World.sweepRow_of_held h]
    rfl
  rw [sweep, hworld]

/-- A command leaves the nodes that are being worked on as they were before it. -/
theorem busyNodes_perform {call : Caller} {scope : Option StoreId} {command : Command Client}
    {s s' : Session} {reply : Reply} (h : s.perform call scope command = some (reply, s')) :
    s'.busyNodes = s.busyNodes := by
  have hstep : ∀ {r : Reply × Session}, Step s r.2 → some r = some (reply, s') →
      s'.busyNodes = s.busyNodes := by
    intro r hr heq
    rw [Option.some.inj heq] at hr
    exact hr.busyNodes_eq
  have hsame : ∀ {r : Reply}, some (r, s) = some (reply, s') → s'.busyNodes = s.busyNodes := by
    intro r heq
    rw [← (Prod.mk.inj (Option.some.inj heq)).2]
  cases command with
  | set key value =>
    obtain ⟨after, hafter, heq⟩ := Option.map_eq_some_iff.1 h
    rw [← (Prod.mk.inj heq).2]
    rcases set_cases hafter with ⟨rfl, -⟩ | ⟨st, last, -, -, -, rfl⟩ <;> rfl
  | fire node event =>
    simp only [Session.perform, Session.fire] at h
    split at h
    · exact hsame h
    · obtain ⟨after, hafter, heq⟩ := Option.map_eq_some_iff.1 h
      obtain ⟨last, -, rfl⟩ := holding_eq_some hafter
      rw [← (Prod.mk.inj heq).2]
      rfl
  | call name event =>
    simp only [Session.perform] at h
    split at h
    · exact hsame h
    · obtain ⟨after, hafter, heq⟩ := Option.map_eq_some_iff.1 h
      obtain ⟨last, -, rfl⟩ := holding_eq_some hafter
      rw [← (Prod.mk.inj heq).2]
  | subscribe name key code => exact hstep (.subscribe s scope name key code) h
  | listen node event name code => exact hstep (.listen s node event name code) h
  | retain node key code => exact hstep (.retain s scope node key code) h
  | query q => exact hsame h
  | handle x => exact hstep (.handle s x) h
  | edit e => exact hstep (.edit s e) h
  | ending e => exact hstep (.finish s scope e) h
  | bind b => exact hstep (.bind s b) h
  | newStore value => exact hstep (.newStore s value) h
  | note text => exact hstep (.record s _ rfl) h
  | enter name seen => exact hstep (.record s _ rfl) h

/-- An action ends as it began, or right after nodes died. -/
theorem act_swept {call : Caller} {scope : Option StoreId} : ∀ (a : Action) {s s' : Session}
    {reply : Reply}, act call scope a s = some (reply, s') →
      s' = s ∨ ∃ last : Session, s' = last.sweep ∧ last.busyNodes = s.busyNodes
  | .done r, s, s', reply, h => by
    simp only [act, Option.some.injEq, Prod.mk.injEq] at h
    exact Or.inl h.2.symm
  | .ask command next, s, s', reply, h => by
    rw [act] at h
    split at h
    · exact absurd h (by simp)
    · next r s₁ hs₁ =>
      have hbusy := busyNodes_perform hs₁
      rcases act_swept (next r) h with rfl | ⟨last, rfl, hlast⟩
      · exact Or.inr ⟨s₁, rfl, hbusy⟩
      · exact Or.inr ⟨last, rfl, hlast.trans hbusy⟩

/-- Nothing is being worked on, and every root has a name. -/
structure Tended (s : Session) : Prop where
  idle : s.busyNodes = []
  named : ∀ t ∈ s.world.forest, ∃ name, (name, t.id) ∈ s.nodes

theorem tended_start (model : Value) (methods : List (String × Client)) :
    (start model methods).Tended :=
  ⟨rfl, fun t ht => absurd ht (by simp [start])⟩

theorem tended_sweep {s : Session} (hidle : s.busyNodes = []) : s.sweep.Tended where
  idle := hidle
  named t ht := by
    have hheld := s.world.held_of_mem_sweep s.holdsNode ht
    rw [holdsNode, hidle] at hheld
    simp only [List.contains_nil, Bool.or_false, List.any_eq_true, decide_eq_true_eq] at hheld
    obtain ⟨entry, hentry, hid⟩ := hheld
    exact ⟨entry.1, hid ▸ hentry⟩

/-- Between two actions every root is held. -/
theorem Tended.kept {s : Session} (h : s.Tended) : s.Kept := by
  intro u hu
  obtain ⟨name, hname⟩ := h.named u hu
  rw [holdsNode, Bool.or_eq_true]
  exact Or.inl (List.any_eq_true.2 ⟨_, hname, by simp⟩)

/-- Every action leaves only nodes that are held by a name. -/
theorem Tended.run {s : Session} (h : s.Tended) (a : Action) : (s.run a).2.Tended := by
  unfold Session.run
  simp only
  split
  · next reply after hact =>
    rcases act_swept a hact with rfl | ⟨last, rfl, hlast⟩
    · exact ⟨h.idle, h.named⟩
    · exact tended_sweep (hlast.trans h.idle)
  · exact ⟨h.idle, h.named⟩

end Session

end ViewBinding
