import ViewBinding.Proofs.Guards.Sessions
import ViewBinding.Proofs.Store.Balance

/-!
# The books of a session

Whatever runs in a session, however clients are nested, is a run of its stores, and what runs later goes
on from it (`Moves.run`): its log continues the one so far.  A command that ends subscriptions makes the
attempts that it has `tried` and replies what they were told (`tries_finish`, `run_finish`): an attempt by
hand, by a guard, or by releasing a view is the same to a store.

* `tried_once` — an attempt that succeeds is the last one at its subscription that does.
* `issued_once` — what is issued later has a greater number.
* `subscriptions_balance` — all that the books say (`KeepsBooks`).
-/

namespace ViewBinding

open Json (Value)
open Stores (Entry Run attempts logged issued ended)

namespace Session

/-! ## Runs -/

/-- Every single move is a `Run` of the stores. -/
theorem Move.run {s s' : Session} (h : Move s s') :
    ∃ log, Run s.world.stores log s'.world.stores := by
  cases h with
  | step hstep =>
    obtain ⟨log, hrun, -⟩ := hstep.quiet.stores
    exact ⟨log, hrun⟩
  | busy nodes stores => exact ⟨[], .nil⟩
  | write store key value => exact ⟨_, Run.nil.write store key value⟩
  | told number store sub value => exact ⟨[], .nil⟩
  | forget => exact ⟨[], .nil⟩

/-- Whatever runs is a `Run` of the stores. -/
theorem Moves.run {s s' : Session} (h : Moves s s') :
    ∃ log, Run s.world.stores log s'.world.stores :=
  h.invariant (J := fun s' => ∃ log, Run s.world.stores log s'.world.stores)
    (fun hmove ⟨log, hlog⟩ => by
      obtain ⟨more, hmore⟩ := hmove.run
      exact ⟨log ++ more, hlog.trans hmore⟩) ⟨[], .nil⟩

/-! ## What the commands reply -/

/-- What a command that ends subscriptions replies, with the attempts that it makes: by the `Reply` a
client learns of them. -/
inductive Tries (s : Session) (scope : Option StoreId) : Ending → Reply → List (Guard × Bool) → Prop
  /-- A kept subscription, or one given in full: whether it was registered. -/
  | unsubscribe {name : String} {sub : Subscription} (h : s.subscriptions.get? name = some sub)
      (b : Bool) : Tries s scope (.unsubscribe name) (.flag b) [(⟨s.storeIn scope, sub⟩, b)]
  | cancel (sub : Subscription) (b : Bool) :
      Tries s scope (.cancel sub) (.flag b) [(⟨s.storeIn scope, sub⟩, b)]
  /-- A list of guards, one by one: for each whether it was registered and its store lives. -/
  | releaseGuards {name : String} {list : List (Guard × Bool)}
      (h : list.map Prod.fst = s.guardsOf name) :
      Tries s scope (.releaseGuards name)
        (.released (list.map fun x =>
          (x.1.subscription.key, s.world.isAlive s.holdsStore x.1.store && x.2))) list
  /-- A list of guards that is forgotten, or another one kept in its place: nothing of them. -/
  | dropGuards {name : String} {list : List (Guard × Bool)}
      (h : list.map Prod.fst = s.guardsOf name) :
      Tries s scope (.dropGuards name) (.count list.length) list
  | take {node name : String} {t : View Client} {list : List (Guard × Bool)}
      (ht : s.view? node = some t) (h : list.map Prod.fst = s.guardsOf name) :
      Tries s scope (.take node name) (.texts (t.val.guards.map Guard.describe)) list
  /-- The guards in a view: how many were registered, of those with stores that live. -/
  | release {node : String} {t : View Client} {list : List (Guard × Bool)} {count : Nat}
      (ht : s.view? node = some t) (h : list.map Prod.fst = View.guards t)
      (hle : count ≤ list.countP (·.2))
      (heq : (∀ x ∈ list, s.holdsStore x.1.store = true) → count = list.countP (·.2)) :
      Tries s scope (.release node) (.count count) list
  /-- Nothing has the name. -/
  | failed {e : Ending} (f : Failure) : Tries s scope e (.failed f) []

/-- The guards of the subscriptions that a command tries to end (`Ending`), in this order. -/
def targets (s : Session) (scope : Option StoreId) : Ending → List Guard
  | .unsubscribe name =>
    match s.subscriptions.get? name with
    | none => []
    | some sub => [⟨s.storeIn scope, sub⟩]
  | .cancel sub => [⟨s.storeIn scope, sub⟩]
  | .take node name => if (s.view? node).isSome then s.guardsOf name else []
  | .releaseGuards name => s.guardsOf name
  | .dropGuards name => s.guardsOf name
  | .release node => ((s.view? node).map View.guards).getD []

/-- The attempts of a command to end its `targets`, each with what it is told. -/
def tried (s : Session) (scope : Option StoreId) (e : Ending) : List (Guard × Bool) :=
  attempts (s.targets scope e) s.world.stores

theorem map_fst_tried (s : Session) (scope : Option StoreId) (e : Ending) :
    (s.tried scope e).map Prod.fst = s.targets scope e :=
  Stores.map_fst_attempts _ _

/-- **A command that ends subscriptions** ends its `targets` one after the other, and nothing more. -/
theorem stores_finish (s : Session) (scope : Option StoreId) (e : Ending) :
    (s.finish scope e).2.world.stores = s.world.stores.endGuards (s.targets scope e) := by
  cases e with
  | unsubscribe name =>
    simp only [finish, targets]
    cases s.subscriptions.get? name <;> rfl
  | cancel sub => rfl
  | take node name =>
    simp only [finish, changeAt, targets]
    cases s.view? node <;> rfl
  | releaseGuards name => exact World.stores_giveUp ..
  | dropGuards name => rfl
  | release node =>
    simp only [finish, changeAt, targets]
    cases ht : s.view? node with
    | none => rfl
    | some t =>
      have hnodes : (t.nodes.map Prod.snd).flatMap (·.guards) = View.guards t := List.flatMap_map ..
      simp only [World.release, (view?_eq_some ht).2, World.stores_releaseNodes, hnodes]
      rfl

/-- The guards of a kept list are tried one by one. -/
theorem tries_releaseGuards (s : Session) (scope : Option StoreId) (name : String) :
    s.Tries scope (.releaseGuards name) (s.finish scope (.releaseGuards name)).1
      (s.tried scope (.releaseGuards name)) := by
  have hguards := s.map_fst_tried scope (.releaseGuards name)
  have hreply : ((s.guardsOf name).map (·.subscription.key)).zip
      (World.giveUp (s.world.isAlive s.holdsStore) (s.guardsOf name) s.world.stores).1 =
        (s.tried scope (.releaseGuards name)).map fun x =>
          (x.1.subscription.key, s.world.isAlive s.holdsStore x.1.store && x.2) := by
    have hkeys : (s.guardsOf name).map (·.subscription.key) =
        (s.tried scope (.releaseGuards name)).map fun x => x.1.subscription.key :=
      (congrArg _ hguards.symm).trans (List.map_map ..)
    rw [World.fst_giveUp, hkeys]
    exact List.zip_map' ..
  simp only [finish, hreply]
  exact .releaseGuards hguards

/-- The guards in a view are tried one by one. -/
theorem tries_release (s : Session) (scope : Option StoreId) (node : String) :
    s.Tries scope (.release node) (s.finish scope (.release node)).1
      (s.tried scope (.release node)) := by
  have hguards := s.map_fst_tried scope (.release node)
  simp only [tried, targets, finish, changeAt] at hguards ⊢
  cases ht : s.view? node with
  | none => exact .failed _
  | some t =>
    simp only [ht, Option.map_some, Option.getD_some] at hguards ⊢
    have hnodes : (t.nodes.map Prod.snd).flatMap (·.guards) = View.guards t := List.flatMap_map ..
    have hle := World.fst_releaseNodes_le
      (fun id => s.holdsStore id || View.keepsStore id (s.world.forest.erase t.id))
      (t.nodes.map Prod.snd) s.world.stores
    have heq := World.fst_releaseNodes_eq
      (fun id => s.holdsStore id || View.keepsStore id (s.world.forest.erase t.id))
      (t.nodes.map Prod.snd) s.world.stores
    rw [hnodes] at hle heq
    simp only [World.release, (view?_eq_some ht).2]
    refine .release ht hguards hle fun hheld => heq fun g hg => ?_
    obtain ⟨x, hx, rfl⟩ := List.mem_map.1 (hguards.symm ▸ hg)
    rw [hheld x hx, Bool.true_or]

/-- The reply to a command that ends subscriptions tells of its attempts (`tried`). -/
theorem tries_finish (s : Session) (scope : Option StoreId) (e : Ending) :
    s.Tries scope e (s.finish scope e).1 (s.tried scope e) := by
  have hguards := s.map_fst_tried scope e
  cases e with
  | unsubscribe name =>
    simp only [tried, targets, finish]
    cases hsub : s.subscriptions.get? name with
    | none => exact .failed _
    | some sub => exact .unsubscribe hsub _
  | cancel sub => exact .cancel sub _
  | take node name =>
    simp only [tried, targets, finish, changeAt] at hguards ⊢
    cases ht : s.view? node with
    | none => exact .failed _
    | some t => exact .take ht (by simpa [ht] using hguards)
  | releaseGuards name => exact s.tries_releaseGuards scope name
  | dropGuards name =>
    have hlength : (s.guardsOf name).length = (s.tried scope (.dropGuards name)).length :=
      (congrArg List.length hguards).symm.trans (List.length_map ..)
    simp only [finish, hlength]
    exact .dropGuards hguards
  | release node => exact s.tries_release scope node

/-- The attempts of a command that ends subscriptions (`tried`) are what stands in its log. -/
theorem run_finish (s : Session) (scope : Option StoreId) (e : Ending) :
    Run s.world.stores (logged (s.tried scope e)) (s.finish scope e).2.world.stores :=
  s.stores_finish scope e ▸ Stores.run_endGuards _ _

/-- A client that subscribes is told what was `issued`. -/
theorem run_subscribe {s : Session} {scope : Option StoreId} {name key : String} {code : Client}
    {sub : Subscription} (h : (s.subscribe scope name key code).1 = .subscription sub) :
    Run s.world.stores [.issued ⟨s.storeIn scope, sub⟩]
      (s.subscribe scope name key code).2.world.stores := by
  unfold Session.subscribe at h ⊢
  cases hst : s.world.stores[s.storeIn scope]? with
  | none =>
    simp only [hst] at h
    exact absurd h (by simp)
  | some st =>
    simp only [hst, Reply.subscription.injEq] at h ⊢
    rw [← h]
    exact Run.nil.subscribe hst key (.client code)

/-! ## The books -/

/-- What the books say of a session whose first store held `model`, and of all that comes after it. -/
structure KeepsBooks (model : Value) (s : Session) : Prop where
  /-- Whatever ran was a `Run` of the stores, which has a log. -/
  ran : ∃ log, Run [Store.ofValue model] log s.world.stores
  /-- Whatever runs later goes on from there. -/
  goesOn : ∀ {s' : Session}, Moves s s' → ∃ more, Run s.world.stores more s'.world.stores
  /-- Whatever the log is so far, and whatever it is from here on, the one continues the other: by both
  together all stores are `Stores.Balanced`, and none of what was issued or ended is so again. -/
  continued : ∀ {s' : Session} {log more : List Entry}, Moves s s' →
    Run [Store.ofValue model] log s.world.stores → Run s.world.stores more s'.world.stores →
      Stores.Continued log more s'.world.stores
  /-- What was issued and is not registered any more never is again. -/
  gone : ∀ {s' : Session} {id : StoreId} {st st' : Store Client} {sub : Subscription}, Moves s s' →
    s.world.stores[id]? = some st → s'.world.stores[id]? = some st' → sub.id < st.nextId →
      st.isRegistered sub = false → st'.isRegistered sub = false
  /-- A command that ends subscriptions makes the attempts that it has `tried`, and no others, and
  replies what they were told. -/
  tries : ∀ scope e, s.Tries scope e (s.finish scope e).1 (s.tried scope e) ∧
    Run s.world.stores (logged (s.tried scope e)) (s.finish scope e).2.world.stores
  /-- If all of them fail, then it changes nothing. -/
  refused : ∀ scope e, (∀ x ∈ s.tried scope e, x.2 = false) →
    (s.finish scope e).2.world.stores = s.world.stores
  /-- If one of them succeeds, then no other does at the same subscription, and none ever again, whatever
  runs in between. -/
  once : ∀ scope e g, (g, true) ∈ s.tried scope e → (s.tried scope e).count (g, true) = 1 ∧
    ∀ {s' : Session}, Moves (s.finish scope e).2 s' →
      s'.world.stores.isRegistered g = false ∧ ∀ scope' e', (g, true) ∉ s'.tried scope' e'
  /-- A client that subscribes is told what was issued, and whoever subscribes to the store later is told
  a greater number. -/
  issues : ∀ {scope name key code sub}, (s.subscribe scope name key code).1 = .subscription sub →
    Run s.world.stores [.issued ⟨s.storeIn scope, sub⟩]
        (s.subscribe scope name key code).2.world.stores ∧
      ∀ {s' : Session} {scope' name' key' code' sub'}, Moves (s.subscribe scope name key code).2 s' →
        s'.storeIn scope' = s.storeIn scope →
          (s'.subscribe scope' name' key' code').1 = .subscription sub' → sub.id < sub'.id

section

variable {model : Value} {s : Session} {log : List Entry}
  (hrun : Run [Store.ofValue model] log s.world.stores)

include hrun

/-- All stores keep the books by whatever log there is of them (`AllBooked`). -/
theorem allBooked : Stores.AllBooked log s.world.stores :=
  hrun.booked fun _ _ hst => ⟨model, List.mem_singleton.1 (List.mem_of_getElem? hst)⟩

/-- An attempt that succeeds is the only one at its subscription that does, among those `tried` now and
ever after. -/
theorem tried_once {scope : Option StoreId} {e : Ending} {g : Guard} (hg : (g, true) ∈ s.tried scope e) :
    (s.tried scope e).count (g, true) = 1 ∧ ∀ {s' : Session}, Moves (s.finish scope e).2 s' →
      s'.world.stores.isRegistered g = false ∧ ∀ scope' e', (g, true) ∉ s'.tried scope' e' := by
  have hafter := hrun.trans (s.run_finish scope e)
  have hended : g.subscription ∈ ended g.store (logged (s.tried scope e)) :=
    Stores.mem_ended_logged.2 hg
  have hin : g.subscription ∈ ended g.store (log ++ logged (s.tried scope e)) := by
    rw [Stores.ended_append]
    exact List.mem_append_right _ hended
  constructor
  · have hnodup := (allBooked hafter).nodup_ended g.store
    rw [Stores.ended_append, List.nodup_append] at hnodup
    rw [← Stores.count_ended_logged]
    exact List.count_eq_one_of_mem hnodup.2.1 hended
  · intro s' hlater
    obtain ⟨more, hmore⟩ := hlater.run
    refine ⟨((allBooked (hafter.trans hmore)).continued.closed g hin).2, fun scope' e' hagain => ?_⟩
    -- the log of the later command goes on from the one in which the subscription was ended
    have hlast := hafter.trans (hmore.trans (s'.run_finish scope' e'))
    refine ((allBooked hlast).continued.closed g hin).1 ?_
    rw [Stores.ended_append]
    exact List.mem_append_right _ (Stores.mem_ended_logged.2 hagain)

/-- Whoever subscribes to a store later is told a greater number (`Subscription.id`). -/
theorem issued_once {scope : Option StoreId} {name key : String} {code : Client} {sub : Subscription}
    (hsub : (s.subscribe scope name key code).1 = .subscription sub) {s' : Session}
    {scope' : Option StoreId} {name' key' : String} {code' : Client} {sub' : Subscription}
    (hlater : Moves (s.subscribe scope name key code).2 s')
    (hstore : s'.storeIn scope' = s.storeIn scope)
    (hsub' : (s'.subscribe scope' name' key' code').1 = .subscription sub') : sub.id < sub'.id := by
  obtain ⟨more, hmore⟩ := hlater.run
  have hafter := hrun.trans (run_subscribe hsub)
  have hlast := hafter.trans (hmore.trans (run_subscribe hsub'))
  refine (allBooked hlast).continued.numbers (s.storeIn scope) sub ?_ sub' ?_
  · simp [Stores.issued_append]
  · simp [Stores.issued_append, hstore]

end

/-- **Every subscription ends at most once, and the counts balance.**  Whatever runs, to any depth, is a
`Run` of the stores, and a later session goes on from the log of an earlier one.  So an attempt that is
told of success, by a command or by a view that goes, is the last one at its subscription that is, and
what is issued has a number of its own. -/
theorem subscriptions_balance {model : Value} {methods : List (String × Client)} {s : Session}
    (h : Moves (start model methods) s) : s.KeepsBooks model := by
  obtain ⟨log, hlog⟩ : ∃ log, Run [Store.ofValue model] log s.world.stores := h.run
  exact
    { ran := ⟨log, hlog⟩
      goesOn := Moves.run
      continued := fun hlater hrun hmore =>
        (allBooked (s := _) (hrun.trans hmore)).continued
      gone := Moves.not_registered
      tries := fun scope e => ⟨s.tries_finish scope e, s.run_finish scope e⟩
      refused := fun scope e hfailed => by
        rw [stores_finish]
        exact (allBooked hlog).endGuards_eq_self hfailed
      once := fun _ _ _ hg => tried_once hlog hg
      issues := fun hsub => ⟨run_subscribe hsub, issued_once hlog hsub⟩ }

/-- Two clients observe a key; the second one ends the subscription of the first when it is told. -/
def rivals : Session :=
  (start (.ofMembers [("n", .int 0)]) []).runs [
    .command (.subscribe "first" "n" fun _ => .done .nothing),
    .command (.subscribe "second" "n" fun _ => .command (.ending (.unsubscribe "first")))]

/-- The `rivals` once both were told: the nested attempt succeeded. -/
def rivalsTold : Session :=
  rivals.runs [.command (.set "n" (.int 1))]

/-- The subscription of the first client is ended once, by the second one or by hand: after either, a
further attempt fails.  One observer is left then, so one more was issued than was ended, and the next
client gets a greater number. -/
theorem first_of_rivals_ends_once :
    rivals.tried none (.unsubscribe "first") = [(⟨0, ⟨0, "n"⟩⟩, true)] ∧
      (∀ {s : Session}, Moves (rivals.finish none (.unsubscribe "first")).2 s →
        (⟨0, ⟨0, "n"⟩⟩, true) ∉ s.tried none (.unsubscribe "first")) ∧
      rivalsTold.tried none (.unsubscribe "first") = [(⟨0, ⟨0, "n"⟩⟩, false)] ∧
      (rivalsTold.finish none (.unsubscribe "first")).2.world.stores = rivalsTold.world.stores ∧
      ∃ log more, Run [Store.ofValue (.ofMembers [("n", .int 0)])] log rivals.world.stores ∧
        Run rivals.world.stores more rivalsTold.world.stores ∧
        (issued 0 (log ++ more)).countP (·.key = "n") =
          1 + (ended 0 (log ++ more)).countP (·.key = "n") := by
  have hmoves : Moves (start (.ofMembers [("n", .int 0)]) []) rivals := moves_runs _ _
  have hlater : Moves rivals rivalsTold := moves_runs _ _
  have hopen : rivals.tried none (.unsubscribe "first") = [(⟨0, ⟨0, "n"⟩⟩, true)] := by
    decide +kernel
  have hover : rivalsTold.tried none (.unsubscribe "first") = [(⟨0, ⟨0, "n"⟩⟩, false)] := by
    decide +kernel
  have hone : rivalsTold.world.stores[0]?.map (·.subscriberCount "n") = some 1 := by
    decide +kernel
  have hbooks := subscriptions_balance hmoves
  have hbooksTold := subscriptions_balance (hmoves.trans hlater)
  obtain ⟨log, hlog⟩ := hbooks.ran
  obtain ⟨more, hmore⟩ := hbooks.goesOn hlater
  obtain ⟨st, hst, hcount⟩ := Option.map_eq_some_iff.1 hone
  have hbalance := ((hbooks.continued hlater hlog hmore).balanced 0 st hst).count "n"
  refine ⟨hopen, fun hafter => ?_, hover, hbooksTold.refused none (.unsubscribe "first") ?_, log, more,
    hlog, hmore, by rw [← hbalance, hcount]⟩
  · exact ((hbooks.once none (.unsubscribe "first") _ (by rw [hopen]; simp)).2 hafter).2 _ _
  · rw [hover]
    simp

end Session

end ViewBinding
