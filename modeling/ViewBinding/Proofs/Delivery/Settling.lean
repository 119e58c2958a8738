import ViewBinding.Proofs.Delivery.Mirroring
import ViewBinding.Proofs.Session.NoNewObservers

/-!
# Where mirror observers lead

A store whose keys are mirrored onto each other is a graph: its edges are the mirror observers
(`Store.Edge`).  A `set` carries its value along the edges.  Observers that write nothing may end the
subscription of a mirror observer, though, before the key that it observes is written; so what is said
of edges is said of those that are not cut off by then (`Store.Carries`).

* `Calm`, `mirroring_calm` — a kind of sessions that is told by looking at the code of the observers.
* `mirrored_keys_settle` — what a `set` comes to, for every session with mirror observers and others
  that write nothing.
* `severed_edge_left_behind` — an edge that is cut off is left behind.
-/

namespace ViewBinding

open Json (Value)

/-! ## The graph of a store -/

namespace Store

variable {st : Store Client} {key target : String}

/-- Whether a mirror observer of a key (`Mirrors`) has another one as its target. -/
def Edge (st : Store Client) (key target : String) : Prop :=
  ∃ entry ∈ st.observersOf key, entry.2.Mirrors target

/-- Whether a mirror observer leads from a key to another one that is not cut off while `new` happens:
if the key is written, it is told. -/
def Carries (st : Store Client) (new : List Happening) (key target : String) : Prop :=
  ∃ entry ∈ st.observersOf key, entry.2.Mirrors target ∧
    (key ∈ Happening.writtenKeys new → ⟨entry.1, key⟩ ∈ Happening.toldSubscriptions new)

/-- Whether two keys hold the same value, or neither holds any. -/
def agrees (st : Store Client) (key other : String) : Bool :=
  match st.get? key, st.get? other with
  | some v, some w => v.same w
  | none, none => true
  | _, _ => false

theorem holds_eq_of_agrees (h : st.agrees key target = true) (value : Value) :
    st.holds key value = st.holds target value := by
  unfold agrees at h
  unfold holds
  split at h
  · next v w hv hw => simp only [hv, hw, Value.same_congr h value]
  · next hv hw => rw [hv, hw]
  · exact absurd h (by simp)

/-- An observer is known by the number of its subscription. -/
theorem Sound.observer_eq (h : st.Sound) {id : Nat} {o o' : Observer Client}
    (ho : (id, o) ∈ st.observersOf key) (ho' : (id, o') ∈ st.observersOf key) : o = o' :=
  congrArg Prod.snd (List.inj_on_of_nodup_map (h.nodup_ids key) ho ho' rfl)

end Store

/-! ## Calm observers -/

/-- Whether an observer shows its value at a node, or is a client that asks calm commands only (`isCalm`).
-/
def Observer.Calm : Observer Client → Prop
  | .client code => ∀ seen, (code seen).Asks Command.isCalm
  | .retained code => ∀ seen, (code seen).Asks Command.isCalm
  | _ => True

/-- An action that sets a key is not calm. -/
theorem Action.Mirrors.not_asks_isCalm {target : String} {value : Value} : ∀ {a : Action},
    a.Mirrors target value → ¬ a.Asks Command.isCalm
  | .done _, h, _ => h
  | .ask c next, h, hasks => by
    rcases h with ⟨rfl, -⟩ | ⟨-, hnext⟩
    · exact absurd hasks.1 (by simp [Command.isCalm])
    · exact (hnext .nothing).not_asks_isCalm (hasks.2 .nothing)

theorem Observer.Mirrors.not_calm {target : String} {o : Observer Client} (h : o.Mirrors target) :
    ¬ o.Calm := by
  intro hcalm
  cases o with
  | client code => exact (h .null).not_asks_isCalm (hcalm .null)
  | retained code => exact (h .null).not_asks_isCalm (hcalm .null)
  | _ => exact h

namespace Session

open Happening

/-- A session in good order in which all observers of the current store are mirror observers onto some
targets (`Mirrors`), or calm. -/
structure Calm (store : StoreId) (targets : Finset String) (s : Session) : Prop where
  current : s.store = store
  live : ∃ st, s.world.stores[store]? = some st
  sound : s.Sound
  observers : ∀ st, s.world.stores[store]? = some st → ∀ key, ∀ entry ∈ st.observersOf key,
    (∃ target ∈ targets, entry.2.Mirrors target) ∨ entry.2.Calm

variable {store : StoreId} {targets : Finset String} {s s' : Session} {st : Store Client}

/-- A session stays calm if nothing is written (`Quiet`) and nobody starts to observe (`NoNewObservers`).
-/
theorem Calm.noNewObservers (h : Calm store targets s) (hquiet : s.Quiet s') (hnone : s.NoNewObservers s') :
    Calm store targets s' where
  current := hnone.store.trans h.current
  live := by
    obtain ⟨st, hst⟩ := h.live
    obtain ⟨st', hst', -⟩ := hquiet.stores.rewired.kept store st hst
    exact ⟨st', hst'⟩
  sound := hquiet.stores.rewired.sound h.sound
  observers st' hst' key entry hentry := by
    obtain ⟨st, hst, hsubset⟩ := hnone.observers store st' hst'
    exact h.observers st hst key entry (hsubset key hentry)

theorem Calm.write (h : Calm store targets s) (key : String) (value : Value) :
    Calm store targets (s.write store key value) where
  current := h.current
  live := by
    obtain ⟨st, hst⟩ := h.live
    obtain ⟨st', hst', -⟩ := (s.proceeds_write store key value).stores store st hst
    exact ⟨st', hst'⟩
  sound := h.sound.write store key value
  observers st' hst' k entry hentry := by
    obtain ⟨st, hst⟩ := h.live
    have hst' : (s.world.stores.update store (·.write key value))[store]? = some st' := hst'
    rw [Stores.getElem?_update, hst, Option.map_some, if_pos rfl, Option.some.injEq] at hst'
    rw [← hst', Store.observersOf_write] at hentry
    exact h.observers st hst k entry hentry

/-- A calm observer comes to an end, writes nothing, and leaves the session calm (`Silent`). -/
theorem silent_of_calm {o : Observer Client} (ho : o.Calm) : Silent (Calm store targets) o := by
  intro value s hs
  have hperform : ∀ (c : Command Client) (s : Session), c.isCalm = true → Calm store targets s →
      ∃ reply s', (∀ call, s.perform call none c = some (reply, s')) ∧ Calm store targets s' ∧
        s.Quiet s' := by
    intro c s hc hs
    obtain ⟨reply, s', hperform, hquiet, hnone⟩ := exists_perform_of_isCalm hc none s
    exact ⟨reply, s', hperform, hs.noNewObservers hquiet hnone, hquiet⟩
  have hcode : ∀ code : Client, (∀ seen, (code seen).Asks Command.isCalm) → ∃ s',
      Ends (fun depth => invoke depth none code value s) s' ∧ Calm store targets s' ∧ s.Quiet s' := by
    intro code hcode
    obtain ⟨reply, s', hact, hs', hquiet⟩ := exists_act_of_asks (J := Calm store targets)
      (fun hs => hs.noNewObservers (quiet_sweep _) (noNewObservers_sweep _)) hperform (code value)
      (hcode value) hs
    exact ⟨s', Ends.invoke (.of_forall fun depth => hact (invoke depth)), hs', hquiet⟩
  have hshow : Calm store targets { s with world := s.world.refresh o value }.sweep ∧
      s.Quiet { s with world := s.world.refresh o value }.sweep := by
    have hquiet := (s.quiet_refresh o value).trans (quiet_sweep _)
    exact ⟨hs.noNewObservers hquiet ((s.noNewObservers_refresh o value).trans (noNewObservers_sweep _)),
      hquiet⟩
  cases o with
  | client code => exact hcode code ho
  | retained code => exact hcode code ho
  | content n => exact ⟨_, .of_forall fun _ => rfl, hshow⟩
  | field n => exact ⟨_, .of_forall fun _ => rfl, hshow⟩
  | marker n template m => exact ⟨_, .of_forall fun _ => rfl, hshow⟩

/-- **Calm sessions are such that mirrored keys settle** (`Mirroring`). -/
theorem mirroring_calm (store : StoreId) (targets : Finset String) :
    Mirroring store targets (Calm store targets) where
  current h := h.current
  live h := h.live
  sound h := h.sound
  observers h hst key entry hentry := by
    rcases h.observers _ hst key entry hentry with ⟨target, -, hmirrors⟩ | hcalm
    · exact Or.inl ⟨target, hmirrors⟩
    · exact Or.inr (silent_of_calm hcalm)
  targeted h hst key entry hentry target hmirrors := by
    rcases h.observers _ hst key entry hentry with ⟨other, hother, hmirrors'⟩ | hcalm
    · exact hmirrors.target_eq hmirrors' ▸ hother
    · exact absurd hcalm hmirrors.not_calm
  write key value h := h.write key value
  record _ h := ⟨h.current, h.live, h.sound, h.observers⟩
  busy _ _ h := ⟨h.current, h.live, h.sound, h.observers⟩
  sweep h := h.noNewObservers (quiet_sweep _) (noNewObservers_sweep _)

/-! ## What a `set` comes to -/

/-- Whether all observers of the current store are mirror observers onto some targets or silent, and
stay so whatever is written and whoever of them is told. -/
def Mirrored (s : Session) (store : StoreId) (targets : Finset String) : Prop :=
  ∃ J : Session → Prop, Mirroring store targets J ∧ J s

/-- **Mirrored keys settle.**  A `set` in such a session comes to an end.  During it every key is written
at most once, and then with the value of the `set`, and every observer is told at most once; an
observer of a key that was written is told unless its subscription has ended.  When it returns, every
edge that was not cut off leads from a key that was written to one that holds the value; and if these
edges joined equal values before, all keys hold the value to which they lead from the key of the
`set`. -/
theorem mirrored_keys_settle (hm : s.Mirrored store targets) (hst : s.world.stores[store]? = some st)
    (k : String) (v : Value) :
    ∃ s' st' new, Ends (fun depth => s.set (invoke depth) store k v) s' ∧
      s'.history = new ++ s.history ∧ s'.world.stores[store]? = some st' ∧
      (∀ number id key w, .wrote number id key w ∈ new →
        id = store ∧ w = v ∧ st.holds key v = false) ∧
      (writtenKeys new).Nodup ∧
      (∀ key, st'.get? key = if key ∈ writtenKeys new then some v else st.get? key) ∧
      (∀ number id sub w, .told number id sub w ∈ new →
        id = store ∧ w = v ∧ sub.key ∈ writtenKeys new) ∧
      (toldSubscriptions new).Nodup ∧
      (∀ key ∈ writtenKeys new, ∀ entry ∈ st.observersOf key, entry ∈ st'.observersOf key →
        ⟨entry.1, key⟩ ∈ toldSubscriptions new) ∧
      (∀ key ∈ writtenKeys new, ∀ target, st.Carries new key target → st'.holds target v = true) ∧
      ((∀ key target, st.Carries new key target → st.agrees key target = true) →
        ∀ key, Relation.ReflTransGen (st.Carries new) k key → st'.holds key v = true) := by
  obtain ⟨J, hJ, hs⟩ := hm
  obtain ⟨s', new, hends, hspread, -, hk⟩ := hJ.completes k v hs
  obtain ⟨st', hst', -⟩ := hspread.proceeds.stores store st hst
  have hsound : st.Sound := (hJ.sound hs).store hst
  have hedge : ∀ key ∈ writtenKeys new, ∀ target, st.Carries new key target →
      st'.holds target v = true := by
    rintro key hkey target ⟨entry, hentry, hmirrors, htold⟩
    obtain ⟨o, hthere, hpassed⟩ := hspread.passed ⟨entry.1, key⟩ (htold hkey)
    -- the observer that was told is the one of the edge, since no number is given out twice
    have hmem := hthere st hst (hsound.bounded key entry hentry)
    obtain rfl : o = entry.2 := hsound.observer_eq hmem hentry
    exact (holdsValue_eq hst' target v).symm.trans (hpassed.resolve_left not_false target hmirrors)
  refine ⟨s', st', new, hends, hspread.proceeds.history, hst', ?_, hspread.once,
    hspread.get?_eq hst hst', hspread.told, hspread.toldOnce, ?_, hedge, ?_⟩
  · intro number id key w hmem
    obtain ⟨hid, hw, hnot⟩ := hspread.wrote number id key w hmem
    exact ⟨hid, hw, (holdsValue_eq hst key v).symm.trans hnot⟩
  · intro key hkey entry hbefore hafter
    exact (hspread.reached st st' hst hst' key hkey entry hafter
      (hsound.bounded key entry hbefore)).resolve_left not_false
  · intro hagree key hpath
    -- along the path all keys held the value before, or none did
    suffices hall : st'.holds key v = true ∧ st.holds key v = st.holds k v from hall.1
    induction hpath with
    | refl => exact ⟨(holdsValue_eq hst' k v).symm.trans hk, rfl⟩
    | @tail a b _ hlast ih =>
      have hsame : st.holds a v = st.holds b v := Store.holds_eq_of_agrees (hagree a b hlast) v
      refine ⟨?_, hsame.symm.trans ih.2⟩
      cases hbefore : st.holds a v with
      | true =>
        have hb : s.holdsValue store b v = true :=
          (holdsValue_eq hst b v).trans (hsame.symm.trans hbefore)
        exact (holdsValue_eq hst' b v).symm.trans (hspread.mono hb)
      | false =>
        have hwritten : a ∈ writtenKeys new := hspread.written_of_holds
          ((holdsValue_eq hst a v).trans hbefore) ((holdsValue_eq hst' a v).trans ih.1)
        exact hedge a hwritten b hlast

/-! ## An edge that is cut off -/

/-- The client that sets a key to what it sees, as `Client.Mirrors` says. -/
def mirror (name target : String) : Client :=
  Step.client name [.setSeen target]

/-- The client that ends a subscription. -/
def severing : Client :=
  Step.client "severing" [.always (.command (.ending (.unsubscribe "edge")))]

/-- A session in which `"k"` and `"a"` are mirrored onto each other and `"a"` onto `"b"`, but a client
that is told of `"k"` before it is mirrored ends the subscription that mirrors `"a"` onto `"b"`. -/
def severed : Session :=
  ((start (.ofMembers [("a", .int 0), ("b", .int 0), ("k", .int 0)]) []).run
    (.ask (.subscribe "edge" "a" (mirror "edge" "b")) fun _ =>
      .ask (.subscribe "back" "a" (mirror "back" "k")) fun _ =>
        .ask (.subscribe "severing" "k" severing) fun _ =>
          .command (.subscribe "forth" "k" (mirror "forth" "a")))).2

theorem mirrors_mirror (name target : String) : Client.Mirrors target (mirror name target) :=
  fun _ => Or.inr ⟨rfl, fun _ => Or.inl ⟨rfl, fun _ => trivial⟩⟩

theorem calm_severing (seen : Value) : (severing seen).Asks Command.isCalm :=
  ⟨rfl, fun _ => ⟨rfl, fun _ => trivial⟩⟩

theorem severed_observers {st : Store Client} (hst : severed.world.stores[0]? = some st) :
    st.observers = [("a", [(0, .client (mirror "edge" "b")), (1, .client (mirror "back" "k"))]),
      ("k", [(2, .client severing), (3, .client (mirror "forth" "a"))])] := by
  rw [← Option.some.inj hst]
  rfl

theorem severed_data {st : Store Client} (hst : severed.world.stores[0]? = some st) :
    st.data = [("a", .int 0), ("b", .int 0), ("k", .int 0)] := by
  rw [← Option.some.inj hst]
  rfl

/-- Who observes what. -/
theorem mem_severed {st : Store Client} (hst : severed.world.stores[0]? = some st) {key : String}
    {entry : Nat × Observer Client} (h : entry ∈ st.observersOf key) :
    key = "a" ∧ entry.2 = .client (mirror "edge" "b") ∨
      key = "a" ∧ entry.2 = .client (mirror "back" "k") ∨ key = "k" ∧ entry.2 = .client severing ∨
        key = "k" ∧ entry.2 = .client (mirror "forth" "a") := by
  rw [Store.observersOf, severed_observers hst] at h
  simp only [Table.get?] at h
  split at h
  · next hkey =>
    rcases List.mem_pair.1 h with rfl | rfl
    · exact Or.inl ⟨hkey.symm, rfl⟩
    · exact Or.inr (Or.inl ⟨hkey.symm, rfl⟩)
  · split at h
    · next hkey =>
      rcases List.mem_pair.1 h with rfl | rfl
      · exact Or.inr (Or.inr (Or.inl ⟨hkey.symm, rfl⟩))
      · exact Or.inr (Or.inr (Or.inr ⟨hkey.symm, rfl⟩))
    · exact absurd h (by simp)

/-- Every observer of `severed` is a mirror observer, or writes nothing. -/
theorem calm_severed : Calm 0 {"a", "b", "k"} severed where
  current := rfl
  live := ⟨_, rfl⟩
  sound := (sound_start _ _).run _
  observers st hst key entry hentry := by
    rcases mem_severed hst hentry with ⟨-, ho⟩ | ⟨-, ho⟩ | ⟨-, ho⟩ | ⟨-, ho⟩ <;> rw [ho]
    · exact Or.inl ⟨"b", by decide, mirrors_mirror "edge" "b"⟩
    · exact Or.inl ⟨"k", by decide, mirrors_mirror "back" "k"⟩
    · exact Or.inr calm_severing
    · exact Or.inl ⟨"a", by decide, mirrors_mirror "forth" "a"⟩

/-- Every mirror observer of `severed` joins two of the three keys, and they all hold the same value. -/
theorem severed_agrees {st : Store Client} (hst : severed.world.stores[0]? = some st)
    {key target : String} (h : st.Edge key target) : st.agrees key target = true := by
  obtain ⟨entry, hentry, hmirrors⟩ := h
  have hpair : key = "a" ∧ target = "b" ∨ key = "a" ∧ target = "k" ∨ key = "k" ∧ target = "a" := by
    rcases mem_severed hst hentry with ⟨hkey, ho⟩ | ⟨hkey, ho⟩ | ⟨hkey, ho⟩ | ⟨hkey, ho⟩ <;>
      rw [ho] at hmirrors
    · have hb : Observer.Mirrors "b" (.client (mirror "edge" "b")) := mirrors_mirror "edge" "b"
      exact Or.inl ⟨hkey, hmirrors.target_eq hb⟩
    · have hk : Observer.Mirrors "k" (.client (mirror "back" "k")) := mirrors_mirror "back" "k"
      exact Or.inr (Or.inl ⟨hkey, hmirrors.target_eq hk⟩)
    · exact absurd calm_severing hmirrors.not_calm
    · have ha : Observer.Mirrors "a" (.client (mirror "forth" "a")) := mirrors_mirror "forth" "a"
      exact Or.inr (Or.inr ⟨hkey, hmirrors.target_eq ha⟩)
  unfold Store.agrees Store.get?
  rw [severed_data hst]
  rcases hpair with ⟨rfl, rfl⟩ | ⟨rfl, rfl⟩ | ⟨rfl, rfl⟩ <;> decide

theorem forth_mem_severed {st : Store Client} (hst : severed.world.stores[0]? = some st) :
    (3, .client (mirror "forth" "a")) ∈ st.observersOf "k" := by
  rw [Store.observersOf, severed_observers hst]
  exact List.mem_cons_of_mem _ List.mem_cons_self

/-- The keys that are mirrored onto each other in `severed` settle. -/
theorem severed_settles :
    ∃ st s' st', severed.Mirrored 0 {"a", "b", "k"} ∧ severed.world.stores[0]? = some st ∧
      severed.set (invoke 2) 0 "k" (.int 1) = some s' ∧ s'.world.stores[0]? = some st' ∧
      writtenKeys s'.history = ["a", "k"] ∧
      toldSubscriptions s'.history = [⟨1, "a"⟩, ⟨3, "k"⟩, ⟨2, "k"⟩] ∧
      st.Carries s'.history "k" "a" ∧ st'.holds "a" (.int 1) = true := by
  obtain ⟨st, hst⟩ := Option.isSome_iff_exists.1
    (show (severed.world.stores[0]?).isSome = true by decide)
  obtain ⟨s', hs'⟩ := Option.isSome_iff_exists.1
    (show (severed.set (invoke 2) 0 "k" (.int 1)).isSome = true by decide)
  have hm : severed.Mirrored 0 {"a", "b", "k"} := ⟨_, mirroring_calm 0 _, calm_severed⟩
  obtain ⟨after, st', new, hends, hnew, hst', -, -, -, -, -, -, -, hreach⟩ :=
    mirrored_keys_settle hm hst "k" (.int 1)
  obtain rfl : after = s' := hends.unique (.set hs')
  have hwritten : writtenKeys after.history = ["a", "k"] := by
    rw [← Option.some.inj hs']
    rfl
  have htold : toldSubscriptions after.history = [⟨1, "a"⟩, ⟨3, "k"⟩, ⟨2, "k"⟩] := by
    rw [← Option.some.inj hs']
    rfl
  have hedge : st.Carries after.history "k" "a" :=
    ⟨_, forth_mem_severed hst, mirrors_mirror "forth" "a", fun _ => by rw [htold]; decide⟩
  have hempty : severed.history = [] := rfl
  rw [hempty, List.append_nil] at hnew
  rw [← hnew] at hreach
  have hall : ∀ key target, st.Carries after.history key target → st.agrees key target = true :=
    fun key target ⟨entry, hentry, hmirrors, _⟩ => severed_agrees hst ⟨entry, hentry, hmirrors⟩
  exact ⟨st, after, st', hm, hst, hs', hst', hwritten, htold, hedge, hreach hall "a" (.single hedge)⟩

/-- All edges join equal values, and `"b"` is reached from `"k"` along them; yet `"a"` is written and
`"b"` is not, since the edge between them has gone by then. -/
theorem severed_edge_left_behind :
    ∃ st s' st', severed.Mirrored 0 {"a", "b", "k"} ∧ severed.world.stores[0]? = some st ∧
      (∀ key target, st.Edge key target → st.agrees key target = true) ∧
      st.Edge "k" "a" ∧ st.Edge "a" "b" ∧
      Ends (fun depth => severed.set (invoke depth) 0 "k" (.int 1)) s' ∧
      writtenKeys s'.history = ["a", "k"] ∧ s'.world.stores[0]? = some st' ∧
      st'.holds "b" (.int 1) = false := by
  obtain ⟨st, hst⟩ := Option.isSome_iff_exists.1
    (show (severed.world.stores[0]?).isSome = true by decide)
  obtain ⟨s', hs'⟩ := Option.isSome_iff_exists.1
    (show (severed.set (invoke 2) 0 "k" (.int 1)).isSome = true by decide)
  have hwritten : writtenKeys s'.history = ["a", "k"] := by
    rw [← Option.some.inj hs']
    rfl
  have hleft : (s'.world.stores[0]?.map (·.holds "b" (.int 1))) = some false := by
    rw [← Option.some.inj hs']
    rfl
  obtain ⟨st', hst', hb⟩ := Option.map_eq_some_iff.1 hleft
  have hforth : st.Edge "k" "a" := ⟨_, forth_mem_severed hst, mirrors_mirror "forth" "a"⟩
  have hedge : st.Edge "a" "b" := ⟨(0, .client (mirror "edge" "b")), by
    rw [Store.observersOf, severed_observers hst]
    exact List.mem_cons_self, mirrors_mirror "edge" "b"⟩
  exact ⟨st, s', st', ⟨_, mirroring_calm 0 _, calm_severed⟩, hst, fun key target => severed_agrees hst,
    hforth, hedge, .set hs', hwritten, hst', hb⟩

end Session

end ViewBinding
