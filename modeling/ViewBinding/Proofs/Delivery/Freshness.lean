import ViewBinding.Proofs.Session.Sound

/-!
# No observer is left with an older value

While a value is delivered, observers may write, subscribe and unsubscribe as they like, and their
writes are delivered in turn before the first delivery goes on.  Still, once the outermost `set` is
done, every observer that was told of anything was last told the value that its key has now, and
every observer of a key that was written was told (`set_leaves_nobody_behind`).

`UpToDate` is that statement for any stretch of a run, with an exemption for observers that are still
due.  It composes (`UpToDate.trans`): an observer that was told in an earlier stretch and not in a
later one has a key that was not written in the later one.  Within a delivery exactly the observers
further down the list are due, and only as long as the store holds the value that they are due.
-/

namespace ViewBinding

open Json (Value)

namespace Session

open Happening

/-! ## Stretches of a run -/

/-- How the observers of a key stand after a stretch of a run in which `new` happened, and which
found the store as `st` and leaves it as `st'`.  The observers that are `due` may still have to be
told. -/
structure UpToDate (store : StoreId) (key : String) (due : Nat × Observer Client → Prop)
    (new : List Happening) (st st' : Store Client) : Prop where
  /-- Only who subscribed was told (`nextId`). -/
  known : ∀ id value, lastTold? store ⟨id, key⟩ new = some value → id < st'.nextId
  /-- Who was told, was told last what is there now. -/
  fresh : ∀ entry ∈ st'.observersOf key, ∀ value,
    lastTold? store ⟨entry.1, key⟩ new = some value → st'.holds key value = true
  /-- If the key was written, everybody from before was told. -/
  reached : (lastWritten? store key new).isSome → ∀ entry ∈ st'.observersOf key,
    entry.1 < st.nextId → (lastTold? store ⟨entry.1, key⟩ new).isSome ∨ due entry

variable {store : StoreId} {key : String} {due due₁ : Nat × Observer Client → Prop}
  {new new₁ new₂ : List Happening} {st st₁ st₂ : Store Client}

theorem UpToDate.of_quiet (h : ∀ x ∈ new, x.delivery? = none) (st st' : Store Client) :
    UpToDate store key due new st st' where
  known id value htold := by
    rw [lastTold?_of_quiet h] at htold
    exact absurd htold (by simp)
  fresh entry _ value htold := by
    rw [lastTold?_of_quiet h] at htold
    exact absurd htold (by simp)
  reached hwritten := by
    rw [lastWritten?_of_quiet h] at hwritten
    exact absurd hwritten (by simp)

theorem UpToDate.mono (h : UpToDate store key due₁ new st st₁)
    (hdue : ∀ entry, due₁ entry → due entry) : UpToDate store key due new st st₁ where
  known := h.known
  fresh := h.fresh
  reached hwritten entry hentry hlt :=
    (h.reached hwritten entry hentry hlt).imp id (hdue entry)

theorem holds_congr {a b : Store Client} {key : String} (h : a.get? key = b.get? key)
    (value : Value) : a.holds key value = b.holds key value := by
  rw [Store.holds, Store.holds, h]

/-- Two stretches make one.  Who is due after the first one is due after both, unless the second
one wrote the key. -/
theorem UpToDate.trans (h₁ : UpToDate store key due₁ new₁ st st₁)
    (h₂ : UpToDate store key (fun _ => False) new₂ st₁ st₂)
    (hb₀ : st.Becomes st₁) (hb : st₁.Becomes st₂)
    (hvalue : st₂.get? key = (lastWritten? store key new₂).or (st₁.get? key))
    (hdue : lastWritten? store key new₂ = none → ∀ entry, due₁ entry → due entry) :
    UpToDate store key due (new₂ ++ new₁) st st₂ where
  known id value htold := by
    rw [lastTold?_append, Option.or_eq_some_iff] at htold
    rcases htold with htold | ⟨-, htold⟩
    · exact h₂.known id value htold
    · exact Nat.lt_of_lt_of_le (h₁.known id value htold) hb.nextId_le
  fresh entry hentry value htold := by
    rw [lastTold?_append, Option.or_eq_some_iff] at htold
    rcases htold with htold | ⟨hnot, htold⟩
    · exact h₂.fresh entry hentry value htold
    · have hlt : entry.1 < st₁.nextId := h₁.known entry.1 value htold
      have hold : st₁.holds key value = true := h₁.fresh entry (hb.mem_of_lt hentry hlt) value htold
      cases hwritten : lastWritten? store key new₂ with
      | none =>
        rw [hwritten, Option.none_or] at hvalue
        rw [holds_congr hvalue, hold]
      | some v =>
        -- a write in the second stretch has told the observer again
        rcases h₂.reached (by rw [hwritten]; rfl) entry hentry hlt with htold₂ | hfalse
        · rw [hnot] at htold₂
          exact absurd htold₂ (by simp)
        · exact hfalse.elim
  reached hwritten entry hentry hlt := by
    rw [lastTold?_append, Option.isSome_or, Bool.or_eq_true]
    rw [lastWritten?_append, Option.isSome_or, Bool.or_eq_true] at hwritten
    have hlt₁ : entry.1 < st₁.nextId := Nat.lt_of_lt_of_le hlt hb₀.nextId_le
    cases hwritten₂ : lastWritten? store key new₂ with
    | some v =>
      rcases h₂.reached (by rw [hwritten₂]; rfl) entry hentry hlt₁ with htold | hfalse
      · exact Or.inl (Or.inl htold)
      · exact hfalse.elim
    | none =>
      rw [hwritten₂] at hwritten
      have hwritten₁ := hwritten.resolve_left (by simp)
      rcases h₁.reached hwritten₁ entry (hb.mem_of_lt hentry hlt₁) hlt with htold | hd
      · exact Or.inl (Or.inr htold)
      · exact Or.inr (hdue hwritten₂ entry hd)

/-- One more observer is told of a value, which the store holds if it is a value of the key (`holds`). -/
theorem UpToDate.told (h : UpToDate store key due₁ new st st₁) {number id : Nat}
    {store' : StoreId} {key' : String} {value : Value}
    (hhere : store' = store ∧ key' = key → id < st₁.nextId ∧ st₁.holds key value = true)
    (hdue : ∀ entry, due₁ entry → (store' = store ∧ key' = key ∧ entry.1 = id) ∨ due entry) :
    UpToDate store key due (.told number store' ⟨id, key'⟩ value :: new) st st₁ where
  known i v htold := by
    rw [← List.singleton_append, lastTold?_append, lastTold?_told] at htold
    split at htold
    · next hcase =>
      obtain ⟨hid, hkey⟩ := Subscription.mk.inj hcase.2
      rw [← hid]
      exact (hhere ⟨hcase.1, hkey⟩).1
    · exact h.known i v htold
  fresh entry hentry v htold := by
    rw [← List.singleton_append, lastTold?_append, lastTold?_told] at htold
    split at htold
    · next hcase =>
      rw [Option.some_or, Option.some.injEq] at htold
      rw [← htold]
      exact (hhere ⟨hcase.1, (Subscription.mk.inj hcase.2).2⟩).2
    · exact h.fresh entry hentry v htold
  reached hwritten entry hentry hlt := by
    rw [← List.singleton_append, lastTold?_append, lastTold?_told, Option.isSome_or,
      Bool.or_eq_true]
    rcases h.reached hwritten entry hentry hlt with htold | hd
    · exact Or.inl (Or.inr htold)
    · rcases hdue entry hd with ⟨hstore, hkey, hid⟩ | hd
      · refine Or.inl (Or.inl ?_)
        rw [if_pos ⟨hstore, by rw [hkey, hid]⟩]
        rfl
      · exact Or.inr hd

/-! ## Runs -/

/-- Across a stretch of a run, the observers of a key are brought up to date (`UpToDate`). -/
def Settles (store : StoreId) (key : String) (s s' : Session) : Prop :=
  ∃ new, s.Proceeds new s' ∧ ∀ st st' : Store Client, s.world.stores[store]? = some st →
    s'.world.stores[store]? = some st' → st.Sound → UpToDate store key (fun _ => False) new st st'

theorem Quiet.settles {s s' : Session} (h : s.Quiet s') : Settles store key s s' := by
  obtain ⟨new, hnew, hquiet⟩ := h.proceeds
  exact ⟨new, hnew, fun st st' _ _ _ => UpToDate.of_quiet hquiet st st'⟩

theorem Settles.trans {s s₁ s₂ : Session} (h₁ : Settles store key s s₁)
    (h₂ : Settles store key s₁ s₂) : Settles store key s s₂ := by
  obtain ⟨new₁, hp₁, hd₁⟩ := h₁
  obtain ⟨new₂, hp₂, hd₂⟩ := h₂
  refine ⟨new₂ ++ new₁, hp₁.trans hp₂, fun st st₂ hst hst₂ hsound => ?_⟩
  obtain ⟨st₁, hst₁, hb₁, -⟩ := hp₁.stores store st hst
  obtain ⟨st₂', hst₂', hb₂, hvalue⟩ := hp₂.stores store st₁ hst₁
  obtain rfl : st₂' = st₂ := Option.some.inj (hst₂'.symm.trans hst₂)
  exact (hd₁ st st₁ hst hst₁ hsound).trans (hd₂ st₁ st₂' hst₁ hst₂ (hb₁.sound hsound)) hb₁ hb₂
    (hvalue key) fun _ _ h => h

/-- While `value` is delivered to the observers of a key, those further down the list are due as
long as the value is there. -/
def Due (store : StoreId) (key : String) (value : Value) (rest : List (Nat × Observer Client))
    (here : StoreId) (k : String) (st : Store Client) (entry : Nat × Observer Client) : Prop :=
  (store = here ∧ key = k) ∧ entry ∈ rest ∧ st.holds k value = true

/-- Where a delivery stands that has got as far as `rest`: everybody is up to date but those who are
due. -/
def Delivering (start : Session) (here : StoreId) (k : String) (store : StoreId) (key : String)
    (value : Value) (rest : List (Nat × Observer Client)) (s : Session) : Prop :=
  ∃ new, start.Proceeds new s ∧ ∀ st st' : Store Client, start.world.stores[here]? = some st →
    s.world.stores[here]? = some st' → st.Sound →
      UpToDate here k (Due store key value rest here k st') new st st' ∧
        (store = here ∧ key = k → ∀ entry ∈ rest, entry.1 < st'.nextId)

theorem holdsValue_eq {s : Session} {id : StoreId} {st : Store Client}
    (hst : s.world.stores[id]? = some st) (k : String) (value : Value) :
    s.holdsValue id k value = st.holds k value := by
  rw [holdsValue, hst, Option.any_some]

section Delivery

variable {start s s' : Session} {here : StoreId} {k : String} {value : Value}
  {rest : List (Nat × Observer Client)}

theorem delivering_write {st : Store Client} (hst : start.world.stores[store]? = some st)
    (stores : List StoreId) :
    Delivering start here k store key value (st.observersOf key)
      { start.write store key value with busyStores := stores } := by
  refine ⟨_, (start.proceeds_write store key value).busy _ _, fun old new hold hnew hsound => ?_⟩
  have hnew : (start.world.stores.update store (·.write key value))[here]? = some new := hnew
  rw [Stores.getElem?_update, hold, Option.map_some, Option.some.injEq] at hnew
  refine ⟨⟨fun id v htold => ?_, fun entry _ v htold => ?_, fun hwritten entry hentry _ => ?_⟩, ?_⟩
  · rw [lastTold?_wrote] at htold
    exact absurd htold (by simp)
  · rw [lastTold?_wrote] at htold
    exact absurd htold (by simp)
  · -- the key is the one that is delivered, and its observers are all due
    rw [lastWritten?_wrote] at hwritten
    split at hwritten
    · next hcase =>
      obtain ⟨rfl, rfl⟩ := hcase
      obtain rfl : st = old := Option.some.inj (hst.symm.trans hold)
      rw [if_pos rfl] at hnew
      rw [← hnew, Store.observersOf_write] at hentry
      exact Or.inr ⟨⟨rfl, rfl⟩, hentry, by rw [← hnew]; exact st.holds_write_self key value⟩
    · exact absurd hwritten (by simp)
  · rintro ⟨rfl, rfl⟩ entry hentry
    obtain rfl : st = old := Option.some.inj (hst.symm.trans hold)
    rw [if_pos rfl] at hnew
    rw [← hnew]
    exact hsound.bounded key entry hentry

/-- One observer more is told, and does what it likes. -/
theorem Delivering.tell {id : Nat} {observer : Observer Client} {number : Nat}
    (h : Delivering start here k store key value ((id, observer) :: rest) s)
    (hnumber : start.deliveries ≤ number) (hholds : s.holdsValue store key value = true)
    (htell : Settles here k (s.record (.told number store ⟨id, key⟩ value)) s') :
    Delivering start here k store key value rest s' := by
  obtain ⟨new, hp, hd⟩ := h
  obtain ⟨new₂, hp₂, hd₂⟩ := htell
  have hp₁ := hp.told hnumber store ⟨id, key⟩ value
  refine ⟨_, hp₁.trans hp₂, fun st st₂ hst hst₂ hsound => ?_⟩
  obtain ⟨st₁, hst₁, hb₁, -⟩ := hp₁.stores here st hst
  obtain ⟨st₂', hst₂', hb₂, hvalue⟩ := hp₂.stores here st₁ hst₁
  obtain rfl : st₂' = st₂ := Option.some.inj (hst₂'.symm.trans hst₂)
  obtain ⟨hupto, hbound⟩ := hd st st₁ hst hst₁ hsound
  have hhere : store = here ∧ key = k → id < st₁.nextId ∧ st₁.holds k value = true := by
    rintro ⟨rfl, rfl⟩
    exact ⟨hbound ⟨rfl, rfl⟩ (id, observer) List.mem_cons_self,
      holdsValue_eq hst₁ key value ▸ hholds⟩
  have htold : UpToDate here k (Due store key value rest here k st₁)
      (.told number store ⟨id, key⟩ value :: new) st st₁ := by
    refine hupto.told hhere fun entry hdue => ?_
    obtain ⟨hcase, hentry, hheld⟩ := hdue
    rcases List.mem_cons.1 hentry with rfl | hentry
    · exact Or.inl ⟨hcase.1, hcase.2, rfl⟩
    · exact Or.inr ⟨hcase, hentry, hheld⟩
  refine ⟨htold.trans (hd₂ st₁ st₂' hst₁ hst₂ (hb₁.sound hsound)) hb₁ hb₂ (hvalue k) ?_, ?_⟩
  · intro hnot entry hdue
    have hsame : st₂'.get? k = st₁.get? k := by rw [hvalue, hnot, Option.none_or]
    exact ⟨hdue.1, hdue.2.1, (holds_congr hsame value).trans hdue.2.2⟩
  · intro hcase entry hentry
    exact Nat.lt_of_lt_of_le (hbound hcase entry (List.mem_cons_of_mem _ hentry)) hb₂.nextId_le

/-- Where a delivery ends, nobody is due any more. -/
theorem Delivering.settles (h : Delivering start here k store key value rest s)
    (hend : rest = [] ∨ s.holdsValue store key value = false) : Settles here k start s := by
  obtain ⟨new, hp, hd⟩ := h
  refine ⟨new, hp, fun st st' hst hst' hsound => ?_⟩
  obtain ⟨hupto, -⟩ := hd st st' hst hst' hsound
  have hnobody : ∀ entry, ¬ Due store key value rest here k st' entry := by
    rintro entry ⟨⟨rfl, rfl⟩, hentry, hheld⟩
    rcases hend with rfl | hgone
    · exact absurd hentry (by simp)
    · rw [holdsValue_eq hst', hheld] at hgone
      exact absurd hgone (by simp)
  exact hupto.mono fun entry hdue => hnobody entry hdue

end Delivery

theorem compositional_settles (store : StoreId) (key : String) :
    Compositional (Settles store key) where
  quiet h := h.settles
  trans := Settles.trans
  set {call} hcall {store' key' value s s'} h := by
    rcases set_cases h with ⟨rfl, -⟩ | ⟨st, after, hst, -, hafter, rfl⟩
    · exact (Quiet.refl s').settles
    · obtain ⟨rest, hrest, hend⟩ := deliver_exit
        (I := Delivering s store key store' key' value)
        (fun hI hholds htell => hI.tell (Nat.le_refl _) hholds
          (hcall.tell (fun hq => hq.settles) htell))
        (delivering_write hst _) hafter
      exact (hrest.settles hend).trans (quiet_busy after _ _).settles

/-! ## Nobody is left behind -/

/-- **No observer is left with an older value.**  A `set` has come to its end, whatever the observers
did meanwhile.  An observer that is subscribed now and was told of anything was told last of the
value that is there now; and if the key was written at all, an observer that was subscribed before
and still is was told.  Every session that clients can bring about is `Sound` (`sound_start`,
`Sound.run`). -/
theorem set_leaves_nobody_behind {depth : Nat} {store : StoreId} {key : String} {value : Value}
    {s s' : Session} (hs : s.Sound) (h : s.set (invoke depth) store key value = some s') :
    ∃ new, s'.history = new ++ s.history ∧
      ∀ (here : StoreId) (before after : Store Client), s.world.stores[here]? = some before →
        s'.world.stores[here]? = some after → ∀ k, ∀ entry ∈ after.observersOf k,
          (∀ v, lastTold? here ⟨entry.1, k⟩ new = some v → after.holds k v = true) ∧
          ((lastWritten? here k new).isSome → entry ∈ before.observersOf k →
            (lastTold? here ⟨entry.1, k⟩ new).isSome) := by
  obtain ⟨new, hp⟩ := compositional_proceeds.set (compositional_proceeds.invoke depth) h
  refine ⟨new, hp.history, fun here before after hbefore hafter k entry hentry => ?_⟩
  have hsettles := compositional_settles here k
  obtain ⟨new', hp', hd⟩ := hsettles.set (hsettles.invoke depth) h
  obtain rfl : new' = new := List.append_cancel_right (hp'.history.symm.trans hp.history)
  have hupto := hd before after hbefore hafter (hs.store hbefore)
  refine ⟨hupto.fresh entry hentry, fun hwritten hold => ?_⟩
  have hlt : entry.1 < before.nextId := (hs.store hbefore).bounded k entry hold
  exact (hupto.reached hwritten entry hentry hlt).resolve_right not_false

/-- The client that puts five in the place of nine. -/
def limiting : Client := fun seen =>
  if seen.same (.int 9) then .command (.set "n" (.int 5)) else .done .nothing

/-- A session in which a reader observes a key after a client that is `limiting` it. -/
def limited : Session :=
  ((start (.ofMembers [("n", .int 0)]) []).run
    (.ask (.subscribe "limit" "n" limiting) fun _ =>
      .command (.subscribe "reader" "n" fun _ => .done .nothing))).2

/-- The reader of `limited` is told of the five only, and that is what is there. -/
theorem limited_reader_not_left_behind :
    ∃ s', limited.set (invoke 3) 0 "n" (.int 9) = some s' ∧
      lastTold? 0 ⟨1, "n"⟩ s'.history = some (.int 5) ∧
      ∃ new, s'.history = new ++ limited.history ∧
        ∀ (here : StoreId) (before after : Store Client),
          limited.world.stores[here]? = some before → s'.world.stores[here]? = some after →
          ∀ k, ∀ entry ∈ after.observersOf k,
            (∀ v, lastTold? here ⟨entry.1, k⟩ new = some v → after.holds k v = true) ∧
            ((lastWritten? here k new).isSome → entry ∈ before.observersOf k →
              (lastTold? here ⟨entry.1, k⟩ new).isSome) := by
  have hset : (limited.set (invoke 3) 0 "n" (.int 9)).isSome = true := by decide
  obtain ⟨s', hs'⟩ := Option.isSome_iff_exists.1 hset
  have hlimited : limited.Sound := (sound_start _ _).run _
  refine ⟨s', hs', ?_, set_leaves_nobody_behind hlimited hs'⟩
  rw [← Option.some.inj hs']
  rfl

end Session

end ViewBinding
