import ViewBinding.Proofs.Guards.Worlds
import ViewBinding.Proofs.Session.Steps
import ViewBinding.Proofs.World.Untouched

/-!
# Commands by which nobody starts to observe

A command that neither runs a client nor lets anybody observe a key is calm: it looks, notes, names
nodes, changes views, or ends subscriptions.  After it the observers are among those there were before
(`NoNewObservers`, `exists_perform_of_isCalm`), since a node that is written over or dies takes its observers
with it.
-/

namespace ViewBinding

open Json (Value)

/-- Whether a command neither runs a client nor lets anybody observe a key. -/
def Command.isCalm {κ : Type} : Command κ → Bool
  | .query _ => true
  | .note _ => true
  | .enter .. => true
  | .handle _ => true
  | .edit _ => true
  | .ending _ => true
  | .listen .. => true
  | _ => false

/-! ## Visits -/

namespace Visit

variable {κ : Type}

/-- A visit is no matter of the stores, whatever the visitor does (`Visit.change`). -/
theorem preserves_stores (stores : Stores κ) : Preserves fun w : World κ => w.stores = stores where
  detach _ h := h
  add _ _ h := h

end Visit

namespace World

variable {κ : Type}

theorem within_sweep (w : World κ) (held : NodeId → Bool) :
    (w.sweep held).stores.Within w.stores :=
  Stores.within_endGuards _ _

theorem within_release (w : World κ) (held : StoreId → Bool) (n : NodeId) :
    (w.release held n).2.stores.Within w.stores := by
  unfold release
  split
  · exact Stores.Within.refl _
  · simp only [stores_releaseNodes]
    exact Stores.within_endGuards _ _

theorem stores_setText (w : World κ) (n : NodeId) (text : String) :
    (w.setText n text).2.stores = w.stores := by
  unfold setText
  split <;> rfl

end World

namespace Session

/-! ## Fewer observers -/

/-- What holds between a session and a later one with the same current store if nobody started to
observe in between. -/
structure NoNewObservers (s s' : Session) : Prop where
  store : s'.store = s.store
  observers : s'.world.stores.Within s.world.stores

namespace NoNewObservers

variable {s s₁ s₂ : Session}

theorem of_stores (hstore : s₁.store = s.store) (hstores : s₁.world.stores = s.world.stores) :
    s.NoNewObservers s₁ :=
  ⟨hstore, hstores ▸ Stores.Within.refl _⟩

theorem trans (h₁ : s.NoNewObservers s₁) (h₂ : s₁.NoNewObservers s₂) : s.NoNewObservers s₂ :=
  ⟨h₂.store.trans h₁.store, h₂.observers.trans h₁.observers⟩

end NoNewObservers

theorem noNewObservers_changeAt {s : Session} {name : String} {f : View Client → Reply × Session}
    (hf : ∀ t, s.NoNewObservers (f t).2) : s.NoNewObservers (s.changeAt name f).2 :=
  changeAt_rule (p := s.NoNewObservers) (.of_stores rfl rfl) fun t _ => hf t

theorem noNewObservers_sweep (s : Session) : s.NoNewObservers s.sweep :=
  ⟨rfl, s.world.within_sweep s.holdsNode⟩

theorem noNewObservers_refresh (s : Session) (observer : Observer Client) (value : Value) :
    s.NoNewObservers { s with world := s.world.refresh observer value } :=
  ⟨rfl, s.world.within_refresh observer value⟩

theorem noNewObservers_handle (s : Session) (h : Handle) : s.NoNewObservers (s.handle h).2 := by
  obtain ⟨nodes, heq | ⟨m, heq⟩⟩ := s.handle_cases h <;> exact heq ▸ .of_stores rfl rfl

theorem noNewObservers_edit (s : Session) (e : Edit) : s.NoNewObservers (s.edit e).2 := by
  cases e with
  | append node child =>
    exact noNewObservers_changeAt fun t => noNewObservers_changeAt fun c => .of_stores rfl rfl
  | insertBefore node child reference =>
    exact noNewObservers_changeAt fun t => noNewObservers_changeAt fun c => noNewObservers_changeAt fun r =>
      .of_stores rfl rfl
  | remove node child =>
    exact noNewObservers_changeAt fun t => noNewObservers_changeAt fun c => .of_stores rfl rfl
  | setText node text =>
    exact noNewObservers_changeAt fun t => .of_stores rfl (s.world.stores_setText t.id text)
  | unlisten node name =>
    refine noNewObservers_changeAt fun t => ?_
    split <;> exact .of_stores rfl rfl
  | visit node includingRoot v =>
    refine noNewObservers_changeAt fun t => .of_stores rfl ?_
    have hkeeps := Visit.preserves_stores s.world.stores
    cases includingRoot with
    | true => exact hkeeps.node v t rfl
    | false => exact hkeeps.rowOf v t.children rfl
  | _ => exact noNewObservers_changeAt fun t => .of_stores rfl rfl

theorem noNewObservers_finish (s : Session) (scope : Option StoreId) (e : Ending) :
    s.NoNewObservers (s.finish scope e).2 := by
  have hcancel : ∀ sub, s.NoNewObservers (s.cancel scope sub).2 := fun sub =>
    ⟨rfl, Stores.within_update _ _ fun st key => (st.observersOf_unsubscribe_sublist sub key).subset⟩
  cases e with
  | unsubscribe name =>
    simp only [finish]
    split
    · exact .of_stores rfl rfl
    · exact hcancel _
  | cancel sub => exact hcancel sub
  | take node name => exact noNewObservers_changeAt fun t => ⟨rfl, Stores.within_endGuards _ _⟩
  | releaseGuards name =>
    refine ⟨rfl, ?_⟩
    simp only [finish, World.stores_giveUp]
    exact Stores.within_endGuards _ _
  | dropGuards name => exact ⟨rfl, Stores.within_endGuards _ _⟩
  | release node => exact noNewObservers_changeAt fun t => ⟨rfl, s.world.within_release s.holdsStore t.id⟩

theorem noNewObservers_listen (s : Session) (node event name : String) (code : Client) :
    s.NoNewObservers (s.listen node event name code).2 :=
  noNewObservers_changeAt fun _ => .of_stores rfl rfl

/-- **A calm command** (`isCalm`) comes to an end, however deep clients may make each other run, and nobody
starts to observe by it. -/
theorem exists_perform_of_isCalm {c : Command Client} (hc : c.isCalm = true)
    (scope : Option StoreId) (s : Session) :
    ∃ reply s', (∀ call, s.perform call scope c = some (reply, s')) ∧ s.Quiet s' ∧ s.NoNewObservers s' := by
  cases c with
  | query q => exact ⟨_, s, fun _ => rfl, Quiet.refl s, .of_stores rfl rfl⟩
  | note text => exact ⟨_, _, fun _ => rfl, s.quiet_record rfl, .of_stores rfl rfl⟩
  | enter name seen => exact ⟨_, _, fun _ => rfl, s.quiet_record rfl, .of_stores rfl rfl⟩
  | handle h => exact ⟨_, _, fun _ => rfl, s.quiet_handle h, s.noNewObservers_handle h⟩
  | edit e => exact ⟨_, _, fun _ => rfl, s.quiet_edit e, s.noNewObservers_edit e⟩
  | ending e => exact ⟨_, _, fun _ => rfl, s.quiet_finish scope e, s.noNewObservers_finish scope e⟩
  | listen node event name code =>
    exact ⟨_, _, fun _ => rfl, s.quiet_listen node event name code,
      s.noNewObservers_listen node event name code⟩
  | _ => exact absurd hc (by simp [Command.isCalm])

end Session

end ViewBinding
