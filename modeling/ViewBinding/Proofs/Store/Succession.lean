import ViewBinding.View.Wiring
import Mathlib.Tactic.Common

/-!
# What becomes of a store

Whatever happens, a store changes in three ways only: a value is written, an observer subscribes, a
subscription ends.  `Becomes` collects what holds between a store and any later state of it, however
many such changes lie in between:

* numbers that were given out are never given out again (`Becomes.nextId_le`);
* the observers of a key are some of the former ones in their old order, followed by new ones
  (`Becomes.observers`), so an observer with an old number was there before (`Becomes.mem_of_lt`);
* a store in good order stays so (`Becomes.sound`).

`Rewired` is the same for a row of stores none of whose values is written: it is what binding and
releasing views comes to.
-/

namespace ViewBinding

open Json (Value)

namespace Store

variable {κ : Type}

/-- A store in good order: the observers of each key stand in the order of their numbers, every number was
given out by `subscribe`, and a key without observers is not kept. -/
structure Sound (s : Store κ) : Prop where
  ordered : ∀ key, (s.observersOf key).Pairwise fun a b => a.1 < b.1
  bounded : ∀ key, ∀ entry ∈ s.observersOf key, entry.1 < s.nextId
  inhabited : ∀ key, s.observers.get? key ≠ some []

/-- No two observers of a key have the same number. -/
theorem Sound.nodup_ids {s : Store κ} (h : s.Sound) (key : String) :
    ((s.observersOf key).map Prod.fst).Nodup :=
  List.pairwise_map.2 ((h.ordered key).imp Nat.ne_of_lt)

theorem sound_ofValue (v : Value) : (ofValue v : Store κ).Sound := by
  cases v <;> exact ⟨fun _ => List.Pairwise.nil, fun _ _ h => absurd h (by simp [observersOf, ofValue]),
    fun _ => by simp [ofValue]⟩

/-! ## The three changes, key by key -/

theorem observersOf_subscribe (s : Store κ) (key other : String) (observer : Observer κ) :
    (s.subscribe key observer).observersOf other =
      s.observersOf other ++ if other = key then [(s.nextId, observer)] else [] := by
  by_cases h : other = key
  · subst h
    rw [observersOf_subscribe_self, if_pos rfl]
  · rw [observersOf_subscribe_of_ne s h, if_neg h, List.append_nil]

theorem observersOf_unsubscribe_sublist (s : Store κ) (sub : Subscription) (key : String) :
    ((s.unsubscribe sub).observersOf key).Sublist (s.observersOf key) := by
  by_cases h : key = sub.key
  · subst h
    rw [observersOf_unsubscribe_self]
    exact List.filter_sublist
  · exact observersOf_unsubscribe_of_ne s sub h ▸ List.Sublist.refl _

@[simp] theorem observersOf_write (s : Store κ) (key other : String) (value : Value) :
    (s.write key value).observersOf other = s.observersOf other := rfl

@[simp] theorem nextId_unsubscribe (s : Store κ) (sub : Subscription) :
    (s.unsubscribe sub).nextId = s.nextId := by
  unfold unsubscribe
  split <;> rfl

@[simp] theorem data_unsubscribe (s : Store κ) (sub : Subscription) :
    (s.unsubscribe sub).data = s.data := by
  unfold unsubscribe
  split <;> rfl

theorem get?_write_self (s : Store κ) (key : String) (value : Value) :
    (s.write key value).get? key = some value :=
  Table.get?_insert_self key value s.data

theorem get?_write_of_ne (s : Store κ) {key other : String} (h : other ≠ key) (value : Value) :
    (s.write key value).get? other = s.get? other :=
  Table.get?_insert_of_ne h value s.data

theorem holds_write_self (s : Store κ) (key : String) (value : Value) :
    (s.write key value).holds key value = true := by
  rw [holds, get?_write_self]
  exact value.same_refl

theorem isRegistered_iff {s : Store κ} {sub : Subscription} :
    s.isRegistered sub = true ↔ sub.id ∈ (s.observersOf sub.key).map Prod.fst := by
  rw [isRegistered, List.any_eq_true, List.mem_map]
  simp

theorem isRegistered_unsubscribe_self (s : Store κ) (sub : Subscription) :
    (s.unsubscribe sub).isRegistered sub = false := by
  rw [isRegistered, observersOf_unsubscribe_self]
  simp

/-! ## Good order is kept -/

theorem Sound.write {s : Store κ} (h : s.Sound) (key : String) (value : Value) :
    (s.write key value).Sound :=
  ⟨h.ordered, h.bounded, h.inhabited⟩

theorem Sound.subscribe {s : Store κ} (h : s.Sound) (key : String) (observer : Observer κ) :
    (s.subscribe key observer).Sound where
  ordered other := by
    rw [observersOf_subscribe, List.pairwise_append]
    refine ⟨h.ordered other, by split <;> simp, fun a ha b hb => ?_⟩
    have hb : b = (s.nextId, observer) := by
      split at hb
      · exact List.mem_singleton.1 hb
      · simp at hb
    rw [hb]
    exact h.bounded other a ha
  bounded other entry he := by
    rw [observersOf_subscribe, List.mem_append] at he
    show entry.1 < s.nextId + 1
    rcases he with he | he
    · exact Nat.lt_succ_of_lt (h.bounded other entry he)
    · split at he
      · rw [List.mem_singleton.1 he]
        exact Nat.lt_succ_self _
      · simp at he
  inhabited other := by
    by_cases hk : other = key
    · subst hk
      simp [Store.subscribe, Table.get?_insert_self]
    · simpa [Store.subscribe, Table.get?_insert_of_ne hk] using h.inhabited other

theorem Sound.unsubscribe {s : Store κ} (h : s.Sound) (sub : Subscription) :
    (s.unsubscribe sub).Sound where
  ordered key := (h.ordered key).sublist (observersOf_unsubscribe_sublist s sub key)
  bounded key entry he := by
    rw [nextId_unsubscribe]
    exact h.bounded key entry ((observersOf_unsubscribe_sublist s sub key).subset he)
  inhabited key := by
    unfold Store.unsubscribe
    split
    · by_cases hk : key = sub.key
      · subst hk
        simp [Table.get?_erase_self]
      · simpa [Table.get?_erase_of_ne hk] using h.inhabited key
    · next kept hkept =>
      by_cases hk : key = sub.key
      · subst hk
        simpa [Table.get?_insert_self] using hkept
      · simpa [Table.get?_insert_of_ne hk] using h.inhabited key

/-! ## Later states -/

/-- What holds between a store and any later state of it, whatever `set`, `subscribe` and `unsubscribe`
did. -/
structure Becomes (a b : Store κ) : Prop where
  nextId_le : a.nextId ≤ b.nextId
  observers : ∀ key, ∃ kept added, b.observersOf key = kept ++ added ∧
    kept.Sublist (a.observersOf key) ∧ ∀ entry ∈ added, a.nextId ≤ entry.1
  sound : a.Sound → b.Sound

namespace Becomes

variable {a b c : Store κ}

theorem refl (a : Store κ) : a.Becomes a where
  nextId_le := Nat.le_refl _
  observers key := ⟨a.observersOf key, [], by simp, List.Sublist.refl _, by simp⟩
  sound h := h

theorem trans (h₁ : a.Becomes b) (h₂ : b.Becomes c) : a.Becomes c where
  nextId_le := Nat.le_trans h₁.nextId_le h₂.nextId_le
  observers key := by
    obtain ⟨kept₁, added₁, hb, hkept₁, hadded₁⟩ := h₁.observers key
    obtain ⟨kept₂, added₂, hc, hkept₂, hadded₂⟩ := h₂.observers key
    -- what was kept the second time is in part old, in part added the first time
    rw [hb, List.sublist_append_iff] at hkept₂
    obtain ⟨old, young, rfl, hold, hyoung⟩ := hkept₂
    refine ⟨old, young ++ added₂, by rw [hc, List.append_assoc], hold.trans hkept₁, ?_⟩
    intro entry he
    rcases List.mem_append.1 he with he | he
    · exact hadded₁ entry (hyoung.subset he)
    · exact Nat.le_trans h₁.nextId_le (hadded₂ entry he)
  sound h := h₂.sound (h₁.sound h)

/-- An observer whose number was given out before (it is below `nextId`) was there before. -/
theorem mem_of_lt (h : a.Becomes b) {key : String} {entry : Nat × Observer κ}
    (he : entry ∈ b.observersOf key) (hlt : entry.1 < a.nextId) : entry ∈ a.observersOf key := by
  obtain ⟨kept, added, hb, hkept, hadded⟩ := h.observers key
  rw [hb, List.mem_append] at he
  rcases he with he | he
  · exact hkept.subset he
  · exact absurd hlt (Nat.not_lt.2 (hadded entry he))

/-- A subscription whose number was given out before is registered later only if it was all the time. -/
theorem isRegistered (h : a.Becomes b) {sub : Subscription} (hissued : sub.id < a.nextId)
    (hin : b.isRegistered sub = true) : a.isRegistered sub = true := by
  obtain ⟨entry, hentry, hid⟩ := List.mem_map.1 (isRegistered_iff.1 hin)
  exact isRegistered_iff.2 (List.mem_map.2 ⟨entry, h.mem_of_lt hentry (hid ▸ hissued), hid⟩)

end Becomes

theorem becomes_write (s : Store κ) (key : String) (value : Value) :
    s.Becomes (s.write key value) where
  nextId_le := Nat.le_refl _
  observers other := ⟨s.observersOf other, [], by simp, List.Sublist.refl _, by simp⟩
  sound h := h.write key value

theorem becomes_subscribe (s : Store κ) (key : String) (observer : Observer κ) :
    s.Becomes (s.subscribe key observer) where
  nextId_le := Nat.le_succ _
  observers other :=
    ⟨s.observersOf other, _, observersOf_subscribe s key other observer, List.Sublist.refl _, by
      intro entry he
      split at he
      · exact Nat.le_of_eq (congrArg Prod.fst (List.mem_singleton.1 he)).symm
      · simp at he⟩
  sound h := h.subscribe key observer

theorem becomes_unsubscribe (s : Store κ) (sub : Subscription) :
    s.Becomes (s.unsubscribe sub) where
  nextId_le := Nat.le_of_eq (nextId_unsubscribe s sub).symm
  observers key :=
    ⟨(s.unsubscribe sub).observersOf key, [], by simp, observersOf_unsubscribe_sublist s sub key,
      by simp⟩
  sound h := h.unsubscribe sub

end Store

/-! ## Rows of stores -/

namespace Stores

variable {κ : Type}

/-- What holds between a row of stores and a later one if no value was written in between: each
store is still there with its values, and if all were in good order, all are. -/
structure Rewired (a b : Stores κ) : Prop where
  kept : ∀ (id : StoreId) (st : Store κ), a[id]? = some st →
    ∃ st' : Store κ, b[id]? = some st' ∧ st.Becomes st' ∧ st'.data = st.data
  sound : (∀ st ∈ a, Store.Sound st) → ∀ st ∈ b, Store.Sound st

namespace Rewired

variable {a b c : Stores κ}

theorem refl (a : Stores κ) : a.Rewired a where
  kept _ st h := ⟨st, h, Store.Becomes.refl st, rfl⟩
  sound h := h

theorem trans (h₁ : a.Rewired b) (h₂ : b.Rewired c) : a.Rewired c where
  kept id st h := by
    obtain ⟨st₁, hb, hst₁, hd₁⟩ := h₁.kept id st h
    obtain ⟨st₂, hc, hst₂, hd₂⟩ := h₂.kept id st₁ hb
    exact ⟨st₂, hc, hst₁.trans hst₂, hd₂.trans hd₁⟩
  sound h := h₂.sound (h₁.sound h)

end Rewired

theorem getElem?_update (stores : Stores κ) (id other : StoreId) (f : Store κ → Store κ) :
    (stores.update id f)[other]? = (stores[other]?).map fun st => if id = other then f st else st :=
  List.getElem?_modify ..

theorem rewired_update (stores : Stores κ) (id : StoreId) {f : Store κ → Store κ}
    (hf : ∀ st, Store.Becomes st (f st)) (hd : ∀ st, (f st).data = st.data) :
    stores.Rewired (stores.update id f) where
  kept other st h := by
    refine ⟨if id = other then f st else st, by rw [getElem?_update, h]; rfl, ?_, ?_⟩
    · split
      · exact hf st
      · exact Store.Becomes.refl st
    · split
      · exact hd st
      · rfl
  sound h st hst := by
    obtain ⟨other, hother⟩ := List.mem_iff_getElem?.1 hst
    rw [getElem?_update, Option.map_eq_some_iff] at hother
    obtain ⟨old, hold, rfl⟩ := hother
    have hsound := h old (List.mem_iff_getElem?.2 ⟨other, hold⟩)
    split
    · exact (hf old).sound hsound
    · exact hsound

theorem rewired_subscribe (stores : Stores κ) (id : StoreId) (key : String)
    (observer : Observer κ) : stores.Rewired (stores.update id (·.subscribe key observer)) :=
  rewired_update stores id (fun st => st.becomes_subscribe key observer) fun _ => rfl

theorem rewired_unsubscribe (stores : Stores κ) (id : StoreId) (sub : Subscription) :
    stores.Rewired (stores.update id (·.unsubscribe sub)) :=
  rewired_update stores id (fun st => st.becomes_unsubscribe sub) fun st => st.data_unsubscribe sub

theorem rewired_endGuard (stores : Stores κ) (g : Guard) : stores.Rewired (stores.endGuard g) :=
  rewired_unsubscribe stores g.store g.subscription

theorem rewired_endGuards (guards : List Guard) (stores : Stores κ) :
    stores.Rewired (stores.endGuards guards) := by
  induction guards generalizing stores with
  | nil => exact Rewired.refl stores
  | cons g gs ih => exact (rewired_endGuard stores g).trans (ih (stores.endGuard g))

theorem rewired_append (stores : Stores κ) (v : Value) :
    stores.Rewired (stores ++ [Store.ofValue v]) where
  kept id st h := by
    have hlt : id < stores.length := (List.getElem?_eq_some_iff.1 h).1
    exact ⟨st, by rw [List.getElem?_append_left hlt, h], Store.Becomes.refl st, rfl⟩
  sound h st hst := by
    rcases List.mem_append.1 hst with hst | hst
    · exact h st hst
    · rw [List.mem_singleton.1 hst]
      exact Store.sound_ofValue v

end Stores

end ViewBinding
