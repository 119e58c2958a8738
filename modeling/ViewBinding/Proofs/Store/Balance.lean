import ViewBinding.Proofs.Store.Log
import ViewBinding.Proofs.Table.Ordered
import Mathlib.Data.List.Nodup

/-!
# Every subscription ends at most once

A log says of a store which subscriptions it issued and which of them were ended.  However many
attempts there are, from wherever, the store keeps the books (`Booked`): numbers are issued one after
the other, and the observers of a key are those of its subscriptions, in the order in which they were
issued, without the ones that were ended, each of which was ended once.

* `Store.Tidy.unsubscribe_eq_self`, `Store.Sound.unsubscribe_of_registered` — what an attempt changes.
* `Run.booked` — whatever is done to a row of stores, all of them keep the books.
* `Booked.isRegistered_iff` — an attempt succeeds just if the subscription was issued and not ended.
* `Booked.count` — the observers of a key are as many as were issued and not ended.
* `Balanced`, `Booked.balanced` — what that comes to.
* `Continued`, `AllBooked.continued` — what it comes to for one log after another: what was ended once
  is not ended again, and numbers that are issued later are greater.
-/

namespace ViewBinding

open Json (Value)
open List

namespace Store

variable {κ : Type} {st : Store κ}

/-! ## One attempt -/

/-- A store in good order (`Sound`), the keys of which are too. -/
structure Tidy (st : Store κ) : Prop where
  sound : st.Sound
  ordered : st.observers.Ordered

theorem tidy_ofValue (v : Value) : (ofValue v : Store κ).Tidy :=
  ⟨sound_ofValue v, by cases v <;> exact Table.ordered_nil⟩

theorem Tidy.write (h : st.Tidy) (key : String) (value : Value) : (st.write key value).Tidy :=
  ⟨h.sound.write key value, h.ordered⟩

theorem Tidy.subscribe (h : st.Tidy) (key : String) (observer : Observer κ) :
    (st.subscribe key observer).Tidy :=
  ⟨h.sound.subscribe key observer, h.ordered.insert key _⟩

theorem Tidy.unsubscribe (h : st.Tidy) (sub : Subscription) : (st.unsubscribe sub).Tidy := by
  refine ⟨h.sound.unsubscribe sub, ?_⟩
  unfold Store.unsubscribe
  split
  · exact h.ordered.erase sub.key
  · exact h.ordered.insert sub.key _

/-- Ending a subscription that is not registered changes nothing, not even the order of keys in a `Tidy`
store. -/
theorem Tidy.unsubscribe_eq_self (h : st.Tidy) {sub : Subscription}
    (hnot : st.isRegistered sub = false) : st.unsubscribe sub = st := by
  have hkept : ((st.observersOf sub.key).filter fun entry => entry.1 ≠ sub.id) =
      st.observersOf sub.key := by
    refine List.filter_eq_self.2 fun entry hentry => ?_
    have hne := List.any_eq_false.1 hnot entry hentry
    simpa using hne
  rw [Store.unsubscribe, hkept]
  unfold observersOf
  cases hget : st.observers.get? sub.key with
  | none =>
    show { st with observers := st.observers.erase sub.key } = st
    rw [Table.erase_of_get?_none hget]
  | some row =>
    cases row with
    | nil => exact absurd hget (h.sound.inhabited sub.key)
    | cons entry rest =>
      show { st with observers := st.observers.insert sub.key (entry :: rest) } = st
      rw [h.ordered.insert_eq_self hget]

/-- Ending a subscription that is registered (`unsubscribe`) takes just its observer out. -/
theorem Sound.unsubscribe_of_registered (h : st.Sound) {sub : Subscription}
    (hin : st.isRegistered sub = true) : ∃ before observer after,
      st.observersOf sub.key = before ++ (sub.id, observer) :: after ∧
      (st.unsubscribe sub).observersOf sub.key = before ++ after := by
  obtain ⟨⟨id, observer⟩, hentry, rfl⟩ := List.mem_map.1 (isRegistered_iff.1 hin)
  obtain ⟨before, after, hsplit⟩ := List.append_of_mem hentry
  refine ⟨before, observer, after, hsplit, ?_⟩
  have hnodup := h.nodup_ids sub.key
  rw [hsplit, List.map_append, List.map_cons, List.nodup_append] at hnodup
  obtain ⟨-, hright, hdisjoint⟩ := hnodup
  have hbefore : ∀ entry ∈ before, entry.1 ≠ sub.id := fun entry he =>
    hdisjoint _ (List.mem_map_of_mem he) _ List.mem_cons_self
  have hafter : ∀ entry ∈ after, entry.1 ≠ sub.id := fun entry he heq =>
    (List.nodup_cons.1 hright).1 (List.mem_map.2 ⟨entry, he, heq⟩)
  rw [observersOf_unsubscribe_self, hsplit, List.filter_append,
    List.filter_cons_of_neg (by simp),
    List.filter_eq_self.2 fun entry he => by simpa using hbefore entry he,
    List.filter_eq_self.2 fun entry he => by simpa using hafter entry he]

end Store

namespace Stores

variable {κ : Type}

/-! ## What a log says of a store -/

/-- The subscriptions to a store that were issued, in this order. -/
def issued (id : StoreId) (log : List Entry) : List Subscription :=
  log.filterMap fun
    | .issued g => if g.store = id then some g.subscription else none
    | _ => none

/-- The subscriptions to a store of which an attempt to end them was told that it was a success, in
this order. -/
def ended (id : StoreId) (log : List Entry) : List Subscription :=
  log.filterMap fun
    | .released g true => if g.store = id then some g.subscription else none
    | _ => none

theorem issued_append (id : StoreId) (log more : List Entry) :
    issued id (log ++ more) = issued id log ++ issued id more :=
  List.filterMap_append

theorem ended_append (id : StoreId) (log more : List Entry) :
    ended id (log ++ more) = ended id log ++ ended id more :=
  List.filterMap_append

@[simp] theorem issued_wrote (id store : StoreId) (key : String) (value : Value) :
    issued id [.wrote store key value] = [] := rfl

@[simp] theorem issued_issued (id : StoreId) (g : Guard) :
    issued id [.issued g] = if g.store = id then [g.subscription] else [] := by
  by_cases h : g.store = id <;> simp [issued, h]

@[simp] theorem issued_released (id : StoreId) (g : Guard) (success : Bool) :
    issued id [.released g success] = [] := rfl

@[simp] theorem ended_wrote (id store : StoreId) (key : String) (value : Value) :
    ended id [.wrote store key value] = [] := rfl

@[simp] theorem ended_issued (id : StoreId) (g : Guard) : ended id [.issued g] = [] := rfl

@[simp] theorem ended_released (id : StoreId) (g : Guard) (success : Bool) :
    ended id [.released g success] = if success ∧ g.store = id then [g.subscription] else [] := by
  cases success
  · rfl
  · by_cases h : g.store = id <;> simp [ended, h]

/-- An attempt of a list is a success of the log as often as it stands there with one (`logged`). -/
theorem count_ended_logged (g : Guard) (list : List (Guard × Bool)) :
    (ended g.store (logged list)).count g.subscription = list.count (g, true) := by
  induction list with
  | nil => rfl
  | cons x rest ih =>
    obtain ⟨⟨store, sub⟩, success⟩ := x
    have hcons : logged ((⟨store, sub⟩, success) :: rest) =
        [.released ⟨store, sub⟩ success] ++ logged rest := rfl
    rw [hcons, ended_append, List.count_append, ih, ended_released, List.count_cons, Nat.add_comm]
    congr 1
    obtain ⟨store', sub'⟩ := g
    by_cases hsame : success = true ∧ store = store' ∧ sub = sub'
    · obtain ⟨rfl, rfl, rfl⟩ := hsame
      simp
    · have hne : ((⟨store, sub⟩ : Guard), success) ≠ (⟨store', sub'⟩, true) := by
        rintro heq
        simp only [Prod.mk.injEq, Guard.mk.injEq] at heq
        exact hsame ⟨heq.2, heq.1⟩
      rw [beq_false_of_ne hne]
      split
      · next h =>
        have hsub : sub ≠ sub' := fun heq => hsame ⟨h.1, h.2, heq⟩
        simp [hsub]
      · rfl

theorem mem_ended_logged {g : Guard} {list : List (Guard × Bool)} :
    g.subscription ∈ ended g.store (logged list) ↔ (g, true) ∈ list := by
  rw [← List.count_pos_iff, count_ended_logged, List.count_pos_iff]

/-! ## The books -/

/-- Whether a store has what it is to have by a log: the numbers that were issued, and the observers of
those not `ended`. -/
structure Booked (id : StoreId) (log : List Entry) (st : Store κ) : Prop where
  tidy : st.Tidy
  numbers : (issued id log).map (·.id) = List.range st.nextId
  once : (ended id log).Nodup
  known : ended id log ⊆ issued id log
  left : ∀ key, (st.observersOf key).map Prod.fst =
    ((issued id log).filter fun sub => sub.key = key ∧ sub ∉ ended id log).map (·.id)

namespace Booked

variable {id : StoreId} {log : List Entry} {st : Store κ}

theorem ofValue (hissued : issued id log = []) (hended : ended id log = []) (v : Value) :
    Booked id log (Store.ofValue v : Store κ) where
  tidy := Store.tidy_ofValue v
  numbers := by rw [hissued]; cases v <;> rfl
  once := by rw [hended]; exact List.nodup_nil
  known := by rw [hended]; exact List.nil_subset _
  left key := by rw [hissued]; cases v <;> rfl

/-- Only what the log says of the store matters. -/
theorem congr (h : Booked id log st) {log' : List Entry} (hissued : issued id log' = issued id log)
    (hended : ended id log' = ended id log) : Booked id log' st where
  tidy := h.tidy
  numbers := hissued ▸ h.numbers
  once := hended ▸ h.once
  known := by rw [hended, hissued]; exact h.known
  left key := by rw [hended, hissued]; exact h.left key

/-- Each number is issued once, by the order of `Booked`. -/
theorem nodup_numbers (h : Booked id log st) : ((issued id log).map (·.id)).Nodup :=
  h.numbers ▸ List.nodup_range

theorem eq_of_id (h : Booked id log st) {a b : Subscription} (ha : a ∈ issued id log)
    (hb : b ∈ issued id log) (heq : a.id = b.id) : a = b :=
  List.inj_on_of_nodup_map h.nodup_numbers ha hb heq

/-- **An attempt succeeds just if the subscription was issued, and none succeeded before**: `isRegistered`
is what it is told. -/
theorem isRegistered_iff (h : Booked id log st) (sub : Subscription) :
    st.isRegistered sub = true ↔ sub ∈ issued id log ∧ sub ∉ ended id log := by
  rw [Store.isRegistered_iff, h.left, List.mem_map]
  constructor
  · rintro ⟨other, hother, hid⟩
    obtain ⟨hissued, hopen⟩ := List.mem_filter.1 hother
    obtain ⟨hkey, hopen⟩ := of_decide_eq_true hopen
    have hsame : other = sub := by
      obtain ⟨number, key⟩ := other
      obtain ⟨number', key'⟩ := sub
      simp only at hid hkey
      rw [hid, hkey]
    exact hsame ▸ ⟨hissued, hopen⟩
  · rintro ⟨hissued, hopen⟩
    exact ⟨sub, List.mem_filter.2 ⟨hissued, decide_eq_true ⟨rfl, hopen⟩⟩, rfl⟩

theorem write (h : Booked id log st) (key : String) (value : Value) :
    Booked id log (st.write key value) :=
  ⟨h.tidy.write key value, h.numbers, h.once, h.known, h.left⟩

theorem subscribe (h : Booked id log st) (key : String) (observer : Observer κ) :
    Booked id (log ++ [.issued ⟨id, st.nextSubscription key⟩]) (st.subscribe key observer) := by
  have hissued : issued id (log ++ [.issued ⟨id, st.nextSubscription key⟩]) =
      issued id log ++ [st.nextSubscription key] := by
    rw [issued_append, issued_issued, if_pos rfl]
  have hended : ended id (log ++ [.issued ⟨id, st.nextSubscription key⟩]) = ended id log := by
    rw [ended_append, ended_issued, List.append_nil]
  -- the number was not issued before
  have hnew : st.nextSubscription key ∉ ended id log := fun hin => by
    have hold : st.nextId ∈ (issued id log).map (·.id) :=
      List.mem_map.2 ⟨_, h.known hin, rfl⟩
    rw [h.numbers, List.mem_range] at hold
    exact Nat.lt_irrefl _ hold
  refine ⟨h.tidy.subscribe key observer, ?_, hended ▸ h.once, ?_, fun other => ?_⟩
  · rw [hissued, List.map_append, h.numbers]
    exact List.range_succ.symm
  · rw [hended, hissued]
    exact List.Subset.trans h.known (List.subset_append_left _ _)
  · rw [hended, hissued, Store.observersOf_subscribe, List.map_append, h.left, List.filter_append,
      List.map_append]
    congr 1
    by_cases hkey : other = key
    · subst hkey
      have hself : (st.nextSubscription other).key = other := rfl
      rw [if_pos rfl, List.filter_cons_of_pos (by simp [hself, hnew])]
      rfl
    · have hother : (st.nextSubscription key).key ≠ other := Ne.symm hkey
      rw [if_neg hkey, List.filter_cons_of_neg (by simp [hother])]
      rfl

/-- An attempt to end a subscription, noted with what it was told, leaves the store `Booked`. -/
theorem release (h : Booked id log st) (sub : Subscription) :
    Booked id (log ++ [.released ⟨id, sub⟩ (st.isRegistered sub)]) (st.unsubscribe sub) := by
  have hissued : issued id (log ++ [.released ⟨id, sub⟩ (st.isRegistered sub)]) = issued id log := by
    rw [issued_append, issued_released, List.append_nil]
  cases hin : st.isRegistered sub with
  | false =>
    rw [h.tidy.unsubscribe_eq_self hin]
    exact h.congr (by simp [issued_append]) (by simp [ended_append])
  | true =>
    rw [hin] at hissued
    obtain ⟨hknown, hopen⟩ := (h.isRegistered_iff sub).1 hin
    have hended : ended id (log ++ [.released ⟨id, sub⟩ true]) = ended id log ++ [sub] := by
      rw [ended_append, ended_released, if_pos ⟨rfl, rfl⟩]
    refine ⟨h.tidy.unsubscribe sub, ?_, ?_, ?_, fun key => ?_⟩
    · rw [hissued, Store.nextId_unsubscribe]
      exact h.numbers
    · rw [hended]
      refine List.nodup_append.2 ⟨h.once, List.nodup_singleton _, ?_⟩
      rintro a ha b hb rfl
      exact hopen (List.mem_singleton.1 hb ▸ ha)
    · rw [hended, hissued]
      exact List.append_subset.2 ⟨h.known, by simpa using hknown⟩
    · -- of the subscriptions that are left, this one has the number
      have hrest : ∀ other ∈ issued id log,
          decide (other.key = key ∧ other ∉ ended id log ++ [sub]) =
            (decide (other.key = key ∧ other ∉ ended id log) &&
              decide (¬(key = sub.key ∧ other.id = sub.id))) := by
        intro other hother
        have hsame : key = sub.key ∧ other.id = sub.id ↔ key = sub.key ∧ other = sub :=
          and_congr_right fun _ => ⟨h.eq_of_id hother hknown, congrArg _⟩
        rw [← Bool.decide_and, decide_eq_decide, hsame, List.mem_append, List.mem_singleton]
        constructor
        · rintro ⟨hkey, hnot⟩
          exact ⟨⟨hkey, fun hin => hnot (Or.inl hin)⟩, fun hsub => hnot (Or.inr hsub.2)⟩
        · rintro ⟨⟨rfl, hnot⟩, hne⟩
          refine ⟨rfl, fun hin => hin.elim hnot ?_⟩
          rintro rfl
          exact hne ⟨rfl, rfl⟩
      have hleft : ((st.unsubscribe sub).observersOf key).map Prod.fst =
          ((st.observersOf key).map Prod.fst).filter
            fun number => ¬(key = sub.key ∧ number = sub.id) := by
        by_cases hkey : key = sub.key
        · rw [hkey, Store.observersOf_unsubscribe_self, List.filter_map]
          simp [Function.comp_def]
        · rw [Store.observersOf_unsubscribe_of_ne st sub hkey]
          simp [hkey]
      rw [hended, hissued, List.filter_congr hrest, hleft, h.left, List.filter_map, List.filter_filter]
      simp only [Function.comp_def, Bool.and_comm]

/-- The observers of a key (`subscriber_count`) are as many as subscriptions to it were issued and not
ended. -/
theorem count (h : Booked id log st) (key : String) :
    st.subscriberCount key + (ended id log).countP (·.key = key) =
      (issued id log).countP (·.key = key) := by
  have hnodup : (issued id log).Nodup := h.nodup_numbers.of_map _
  have hended : ended id log ~ (issued id log).filter (· ∈ ended id log) := by
    refine (List.perm_ext_iff_of_nodup h.once (hnodup.filter _)).2 fun sub => ?_
    rw [List.mem_filter, decide_eq_true_eq]
    exact ⟨fun hin => ⟨h.known hin, hin⟩, And.right⟩
  have hcount : st.subscriberCount key =
      (issued id log).countP fun sub => sub.key = key ∧ sub ∉ ended id log := by
    have hlength := congrArg List.length (h.left key)
    rwa [List.length_map, List.length_map, ← List.countP_eq_length_filter] at hlength
  rw [hcount, hended.countP_eq, List.countP_filter,
    List.countP_eq_countP_filter_add (issued id log) (·.key = key) (· ∉ ended id log),
    List.countP_filter, List.countP_filter]
  congr 1
  · exact List.countP_congr fun sub _ => by simp
  · exact List.countP_congr fun sub _ => by simp

end Booked

/-! ## All stores -/

/-- A row of stores all of which are `Booked`, and of no other is anything told. -/
structure AllBooked (log : List Entry) (b : Stores κ) : Prop where
  booked : ∀ (id : StoreId) (st : Store κ), b[id]? = some st → Booked id log st
  absent : ∀ id, b.length ≤ id → issued id log = [] ∧ ended id log = []

namespace AllBooked

variable {a b : Stores κ} {log : List Entry}

theorem fresh (hfresh : ∀ (id : StoreId) (st : Store κ), a[id]? = some st → ∃ v, st = Store.ofValue v) :
    AllBooked [] a where
  booked id st hst := by
    obtain ⟨v, rfl⟩ := hfresh id st hst
    exact Booked.ofValue rfl rfl v
  absent _ _ := ⟨rfl, rfl⟩

theorem opened (h : AllBooked log b) (v : Value) : AllBooked log (b ++ [Store.ofValue v]) where
  booked id st hst := by
    rcases Nat.lt_or_ge id b.length with hlt | hge
    · rw [List.getElem?_append_left hlt] at hst
      exact h.booked id st hst
    · obtain ⟨hissued, hended⟩ := h.absent id hge
      rw [List.getElem?_append_right hge] at hst
      rw [List.mem_singleton.1 (List.mem_of_getElem? hst)]
      exact Booked.ofValue hissued hended v
  absent id hid := by
    rw [List.length_append] at hid
    exact h.absent id (Nat.le_trans (Nat.le_add_right _ _) hid)

theorem write (h : AllBooked log b) (store : StoreId) (key : String) (value : Value) :
    AllBooked (log ++ [.wrote store key value]) (b.update store (·.write key value)) where
  booked id st hst := by
    rw [getElem?_update, Option.map_eq_some_iff] at hst
    obtain ⟨old, hold, rfl⟩ := hst
    have hsame : Booked id (log ++ [.wrote store key value]) old :=
      (h.booked id old hold).congr (by simp [issued_append]) (by simp [ended_append])
    split
    · exact hsame.write key value
    · exact hsame
  absent id hid := by
    rw [update, List.length_modify] at hid
    simpa [issued_append, ended_append] using h.absent id hid

theorem subscribe (h : AllBooked log b) {store : StoreId} {now : Store κ}
    (hnow : b[store]? = some now) (key : String) (observer : Observer κ) :
    AllBooked (log ++ [.issued ⟨store, now.nextSubscription key⟩])
      (b.update store (·.subscribe key observer)) where
  booked id st hst := by
    rw [getElem?_update, Option.map_eq_some_iff] at hst
    obtain ⟨old, hold, rfl⟩ := hst
    split
    · next heq =>
      subst heq
      obtain rfl : now = old := Option.some.inj (hnow.symm.trans hold)
      exact (h.booked store now hnow).subscribe key observer
    · next hne =>
      exact (h.booked id old hold).congr (by simp [issued_append, hne]) (by simp [ended_append])
  absent id hid := by
    rw [update, List.length_modify] at hid
    have hne : store ≠ id := fun heq =>
      Nat.not_lt.2 (heq ▸ hid) (List.getElem?_eq_some_iff.1 hnow).1
    simpa [issued_append, ended_append, hne] using h.absent id hid

theorem release (h : AllBooked log b) (g : Guard) :
    AllBooked (log ++ [.released g (b.isRegistered g)]) (b.endGuard g) where
  booked id st hst := by
    rw [endGuard, getElem?_update, Option.map_eq_some_iff] at hst
    obtain ⟨old, hold, rfl⟩ := hst
    split
    · next heq =>
      have hanswer : b.isRegistered g = old.isRegistered g.subscription := by
        rw [isRegistered, heq, hold, Option.any_some]
      rw [hanswer]
      obtain ⟨store, sub⟩ := g
      obtain rfl : store = id := heq
      exact (h.booked store old hold).release sub
    · next hne =>
      exact (h.booked id old hold).congr (by simp [issued_append]) (by simp [ended_append, hne])
  absent id hid := by
    rw [endGuard, update, List.length_modify] at hid
    -- an attempt at a store that is not there is no success
    have hfailed : ¬ (b.isRegistered g = true ∧ g.store = id) := by
      rintro ⟨hin, heq⟩
      rw [isRegistered, heq, List.getElem?_eq_none hid] at hin
      exact absurd hin (by simp)
    simpa [issued_append, ended_append, hfailed] using h.absent id hid

end AllBooked

/-- **All stores keep the books** through any `Run`, if they started without observers. -/
theorem Run.booked {a b : Stores κ} {log : List Entry}
    (hfresh : ∀ (id : StoreId) (st : Store κ), a[id]? = some st → ∃ v, st = Store.ofValue v)
    (h : Run a log b) : AllBooked log b := by
  induction h with
  | nil => exact .fresh hfresh
  | opened _ v ih => exact ih.opened v
  | write _ store key value ih => exact ih.write store key value
  | subscribe _ hnow key observer ih => exact ih.subscribe hnow key observer
  | release _ g ih => exact ih.release g

/-- What the books of a store say, where `log` tells what was done to it. -/
structure Balanced (id : StoreId) (log : List Entry) (st : Store κ) : Prop where
  /-- No number was issued twice. -/
  distinct : ((issued id log).map (·.id)).Nodup
  /-- Of the attempts to end a subscription at most one was a success, and one was just if it is no
  longer registered. -/
  once : ∀ sub ∈ issued id log, (ended id log).count sub ≤ 1 ∧
    ((ended id log).count sub = 1 ↔ st.isRegistered sub = false)
  /-- An attempt to end what was not issued, or was ended before, fails and changes nothing. -/
  refused : ∀ sub, sub ∉ issued id log ∨ sub ∈ ended id log →
    st.isRegistered sub = false ∧ st.unsubscribe sub = st
  /-- Any other takes just one observer out. -/
  granted : ∀ sub, st.isRegistered sub = true →
    (∃ before observer after, st.observersOf sub.key = before ++ (sub.id, observer) :: after ∧
      (st.unsubscribe sub).observersOf sub.key = before ++ after) ∧
    (∀ key, key ≠ sub.key → (st.unsubscribe sub).observersOf key = st.observersOf key) ∧
    (st.unsubscribe sub).data = st.data ∧ (st.unsubscribe sub).nextId = st.nextId
  /-- The observers of a key are as many as were issued and not ended. -/
  count : ∀ key, st.subscriberCount key + (ended id log).countP (·.key = key) =
    (issued id log).countP (·.key = key)
  /-- They stand in the order of their numbers, all of which were given out. -/
  ordered : ∀ key, (st.observersOf key).Pairwise fun a b => a.1 < b.1
  bounded : ∀ key, ∀ entry ∈ st.observersOf key, entry.1 < st.nextId
  /-- A key without observers is not kept. -/
  inhabited : ∀ key, st.observers.get? key ≠ some []

theorem Booked.balanced {id : StoreId} {log : List Entry} {st : Store κ} (h : Booked id log st) :
    Balanced id log st where
  distinct := h.nodup_numbers
  once sub hsub := by
    have hin : (ended id log).count sub = 1 ↔ sub ∈ ended id log :=
      ⟨fun hone => List.count_pos_iff.1 (by omega), List.count_eq_one_of_mem h.once⟩
    refine ⟨List.nodup_iff_count_le_one.1 h.once sub, ?_⟩
    rw [hin, ← Bool.not_eq_true, h.isRegistered_iff]
    exact ⟨fun hin hopen => hopen.2 hin, fun hnot => by_contra fun hin => hnot ⟨hsub, hin⟩⟩
  refused sub hsub := by
    have hnot : st.isRegistered sub = false := by
      rw [← Bool.not_eq_true, h.isRegistered_iff]
      rintro ⟨hissued, hopen⟩
      exact hsub.elim (fun hout => hout hissued) hopen
    exact ⟨hnot, h.tidy.unsubscribe_eq_self hnot⟩
  granted sub hin :=
    ⟨h.tidy.sound.unsubscribe_of_registered hin, fun _ hkey => st.observersOf_unsubscribe_of_ne sub hkey,
      st.data_unsubscribe sub, st.nextId_unsubscribe sub⟩
  count := h.count
  ordered := h.tidy.sound.ordered
  bounded := h.tidy.sound.bounded
  inhabited := h.tidy.sound.inhabited

/-! ## The books at a later time -/

/-- What the books say of a row of stores to which two logs in succession were done: `log` at first, and
`more` since. -/
structure Continued (log more : List Entry) (b : Stores κ) : Prop where
  /-- By both logs together all stores are `Balanced`. -/
  balanced : ∀ (id : StoreId) (st : Store κ), b[id]? = some st → Balanced id (log ++ more) st
  /-- What was issued later has a greater number than all that was issued before. -/
  numbers : ∀ id, ∀ sub ∈ issued id log, ∀ later ∈ issued id more, sub.id < later.id
  /-- What was ended before was not ended again, and is not registered. -/
  closed : ∀ g : Guard, g.subscription ∈ ended g.store log →
    g.subscription ∉ ended g.store more ∧ b.isRegistered g = false

namespace AllBooked

variable {b : Stores κ} {log more : List Entry}

theorem pairwise_numbers (h : AllBooked log b) (id : StoreId) :
    ((issued id log).map (·.id)).Pairwise (· < ·) := by
  rcases Nat.lt_or_ge id b.length with hlt | hge
  · rw [(h.booked id b[id] (List.getElem?_eq_getElem hlt)).numbers]
    exact List.pairwise_lt_range
  · rw [(h.absent id hge).1]
    exact .nil

theorem nodup_ended (h : AllBooked log b) (id : StoreId) : (ended id log).Nodup := by
  rcases Nat.lt_or_ge id b.length with hlt | hge
  · exact (h.booked id b[id] (List.getElem?_eq_getElem hlt)).once
  · rw [(h.absent id hge).2]
    exact List.nodup_nil

/-- What was ended is not registered, in a row of stores that is `AllBooked`. -/
theorem isRegistered_eq_false (h : AllBooked log b) {g : Guard}
    (hended : g.subscription ∈ ended g.store log) : b.isRegistered g = false := by
  rw [Stores.isRegistered]
  cases hst : b[g.store]? with
  | none => rfl
  | some st =>
    rw [Option.any_some, ← Bool.not_eq_true, (h.booked g.store st hst).isRegistered_iff]
    exact fun hin => hin.2 hended

/-- Attempts none of which succeeds change nothing (`endGuards`). -/
theorem endGuards_eq_self (h : AllBooked log b) {gs : List Guard}
    (hfailed : ∀ x ∈ attempts gs b, x.2 = false) : b.endGuards gs = b := by
  induction gs with
  | nil => rfl
  | cons g gs ih =>
    have hself : b.endGuard g = b := by
      refine List.ext_getElem? fun id => ?_
      rw [endGuard, getElem?_update]
      cases hst : b[id]? with
      | none => rfl
      | some st =>
        rw [Option.map_some]
        split
        · next heq =>
          have hnot : b.isRegistered g = false := hfailed (g, b.isRegistered g) List.mem_cons_self
          rw [Stores.isRegistered, heq, hst, Option.any_some] at hnot
          rw [(h.booked id st hst).tidy.unsubscribe_eq_self hnot]
        · rfl
    have hrest : (b.endGuard g).endGuards gs = b := by
      rw [hself]
      exact ih fun x hx => hfailed x (by rw [attempts, hself]; exact List.mem_cons_of_mem _ hx)
    exact hrest

theorem continued (h : AllBooked (log ++ more) b) : Continued log more b where
  balanced id st hst := (h.booked id st hst).balanced
  numbers id sub hsub later hlater := by
    have hpairwise := h.pairwise_numbers id
    rw [issued_append, List.map_append, List.pairwise_append] at hpairwise
    exact hpairwise.2.2 _ (List.mem_map_of_mem hsub) _ (List.mem_map_of_mem hlater)
  closed g hended := by
    have hnodup := h.nodup_ended g.store
    rw [ended_append, List.nodup_append] at hnodup
    refine ⟨fun hagain => hnodup.2.2 _ hended _ hagain rfl, h.isRegistered_eq_false ?_⟩
    rw [ended_append]
    exact List.mem_append_left _ hended

end AllBooked

end Stores

end ViewBinding
