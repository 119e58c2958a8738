import ViewBinding.Proofs.Store.Succession

/-!
# The log of a run of stores

Whatever is done to a row of stores is a sequence of elementary changes: a store is added, a value is
written, an observer subscribes, or somebody tries to end a subscription.  `Stores.Run` says what such a
sequence makes of the stores, and keeps a log of it; the log tells for each subscription when it was
issued, and for each attempt to end one whether that was a success.

* `Run.endGuards`, `attempts` — the guards of a list are attempts one after the other.
* `Changes` — a run in which no value is written, which is what binding and releasing views comes to;
  it leaves the stores `Rewired`.
-/

namespace ViewBinding

open Json (Value)

namespace Stores

variable {κ : Type}

/-- What a log tells of. A guard names a subscription with its store. -/
inductive Entry where
  | wrote (store : StoreId) (key : String) (value : Value)
  | issued (g : Guard)
  /-- Somebody tried to end a subscription, and was told whether it was registered. -/
  | released (g : Guard) (success : Bool)

/-- Whether a value was written (`Entry.wrote`). -/
def Entry.isWrite : Entry → Bool
  | .wrote _ _ _ => true
  | _ => false

/-- Whether the subscription that a guard names is registered. -/
def isRegistered (stores : Stores κ) (g : Guard) : Bool :=
  stores[g.store]?.any (·.isRegistered g.subscription)

/-- What a row of stores comes to by elementary changes, with the log of them, the latest last. -/
inductive Run (a : Stores κ) : List Entry → Stores κ → Prop
  | nil : Run a [] a
  /-- A store was added. -/
  | opened {log : List Entry} {b : Stores κ} (h : Run a log b) (v : Value) :
      Run a log (b ++ [Store.ofValue v])
  /-- A value was written. -/
  | write {log : List Entry} {b : Stores κ} (h : Run a log b) (id : StoreId) (key : String)
      (value : Value) : Run a (log ++ [.wrote id key value]) (b.update id (·.write key value))
  /-- An observer subscribed. -/
  | subscribe {log : List Entry} {b : Stores κ} (h : Run a log b) {id : StoreId} {st : Store κ}
      (hst : b[id]? = some st) (key : String) (observer : Observer κ) :
      Run a (log ++ [.issued ⟨id, st.nextSubscription key⟩])
        (b.update id (·.subscribe key observer))
  /-- Somebody tried to end a subscription (`unsubscribe`), and was told whether it was registered. -/
  | release {log : List Entry} {b : Stores κ} (h : Run a log b) (g : Guard) :
      Run a (log ++ [.released g (b.isRegistered g)]) (b.endGuard g)

namespace Run

variable {a b c : Stores κ} {log more : List Entry}

theorem trans (h₁ : Run a log b) (h₂ : Run b more c) : Run a (log ++ more) c := by
  induction h₂ with
  | nil => rwa [List.append_nil]
  | opened _ v ih => exact ih.opened v
  | write _ id key value ih => exact List.append_assoc .. ▸ ih.write id key value
  | subscribe _ hst key observer ih => exact List.append_assoc .. ▸ ih.subscribe hst key observer
  | release _ g ih => exact List.append_assoc .. ▸ ih.release g

/-- A run in which no value is written leaves the stores `Rewired`. -/
theorem rewired (h : Run a log b) (hquiet : ∀ e ∈ log, e.isWrite = false) : a.Rewired b := by
  induction h with
  | nil => exact Rewired.refl a
  | opened _ v ih => exact (ih hquiet).trans (rewired_append _ v)
  | write _ id key value _ => exact absurd (hquiet (.wrote id key value) (by simp)) (by simp [Entry.isWrite])
  | subscribe _ _ key observer ih =>
    exact (ih fun e he => hquiet e (List.mem_append_left _ he)).trans
      (rewired_subscribe _ _ key observer)
  | release _ g ih =>
    exact (ih fun e he => hquiet e (List.mem_append_left _ he)).trans (rewired_endGuard _ g)

end Run

/-! ## Attempts one after the other -/

/-- The attempts that ending some guards one after the other (`endGuards`) comes to, each with what it is
told. -/
def attempts : List Guard → Stores κ → List (Guard × Bool)
  | [], _ => []
  | g :: gs, stores => (g, stores.isRegistered g) :: attempts gs (stores.endGuard g)

/-- Attempts in a log, each as `Entry.released`. -/
def logged (list : List (Guard × Bool)) : List Entry :=
  list.map fun x => .released x.1 x.2

theorem isWrite_of_mem_logged {list : List (Guard × Bool)} {e : Entry} (he : e ∈ logged list) :
    e.isWrite = false := by
  obtain ⟨x, -, rfl⟩ := List.mem_map.1 he
  rfl

theorem map_fst_attempts (gs : List Guard) (stores : Stores κ) :
    (attempts gs stores).map Prod.fst = gs := by
  induction gs generalizing stores with
  | nil => rfl
  | cons g gs ih => rw [attempts, List.map_cons, ih]

theorem attempts_append (gs hs : List Guard) (stores : Stores κ) :
    attempts (gs ++ hs) stores = attempts gs stores ++ attempts hs (stores.endGuards gs) := by
  induction gs generalizing stores with
  | nil => rfl
  | cons g gs ih =>
    rw [List.cons_append, attempts, ih, attempts, List.cons_append]
    rfl

theorem run_endGuards (gs : List Guard) (stores : Stores κ) :
    Run stores (logged (attempts gs stores)) (stores.endGuards gs) := by
  induction gs generalizing stores with
  | nil => exact .nil
  | cons g gs ih => exact (Run.nil.release g).trans (ih (stores.endGuard g))

/-! ## Runs without a write -/

/-- What a row of stores comes to by elementary changes (`Run`) none of which writes a value. -/
def Changes (a b : Stores κ) : Prop :=
  ∃ log, Run a log b ∧ ∀ e ∈ log, e.isWrite = false

namespace Changes

variable {a b c : Stores κ}

theorem refl (a : Stores κ) : a.Changes a := ⟨[], .nil, by simp⟩

theorem trans : a.Changes b → b.Changes c → a.Changes c := by
  rintro ⟨log, hrun, hquiet⟩ ⟨more, hmore, hstill⟩
  refine ⟨log ++ more, hrun.trans hmore, fun e he => ?_⟩
  exact (List.mem_append.1 he).elim (hquiet e) (hstill e)

theorem rewired : a.Changes b → a.Rewired b := fun ⟨_, hrun, hquiet⟩ => hrun.rewired hquiet

end Changes

theorem changes_subscribe {stores : Stores κ} {id : StoreId} (key : String) (observer : Observer κ) :
    stores.Changes (stores.update id (·.subscribe key observer)) := by
  cases hst : stores[id]? with
  | none =>
    have hsame : stores.update id (·.subscribe key observer) = stores :=
      List.modify_eq_self (List.getElem?_eq_none_iff.1 hst)
    exact hsame.symm ▸ Changes.refl stores
  | some st => exact ⟨_, Run.nil.subscribe hst key observer, by simp [Entry.isWrite]⟩

theorem changes_endGuard (stores : Stores κ) (g : Guard) : stores.Changes (stores.endGuard g) :=
  ⟨_, Run.nil.release g, by simp [Entry.isWrite]⟩

theorem changes_endGuards (gs : List Guard) (stores : Stores κ) :
    stores.Changes (stores.endGuards gs) :=
  ⟨_, run_endGuards gs stores, fun _ he => isWrite_of_mem_logged he⟩

theorem changes_unsubscribe (stores : Stores κ) (id : StoreId) (sub : Subscription) :
    stores.Changes (stores.update id (·.unsubscribe sub)) :=
  stores.changes_endGuard ⟨id, sub⟩

theorem changes_append (stores : Stores κ) (v : Value) :
    stores.Changes (stores ++ [Store.ofValue v]) :=
  ⟨[], Run.nil.opened v, by simp⟩

end Stores

end ViewBinding
