import ViewBinding.Proofs.Delivery.Freshness
import ViewBinding.Proofs.Delivery.Supersession
import ViewBinding.Proofs.Session.DataOnly
import Mathlib.Data.List.Nodup

/-!
# How a value spreads over mirrored keys

A mirror observer of a key sets another key, its target, to every value that it is told.  Where all
observers are mirror observers, or write nothing, a value that is set is the only one that is written
until the `set` is done.

`Spread` says what such a stretch of a run comes to: which keys were written, who was told, and that
each mirror observer has passed the value on.  Stretches compose (`Spread.trans`), because a key that
holds the value is not written again.  Within a delivery the observers further down the list have yet
to be told (`Spreading`), and telling one of them leads from one such state to the next
(`Spreading.tell`).
-/

namespace ViewBinding

open Json (Value)

/-! ## Mirror observers -/

/-- Whether a command only looks (`Query`), or notes something. -/
def Command.isIdle {κ : Type} : Command κ → Bool
  | .query _ => true
  | .note _ => true
  | .enter .. => true
  | _ => false

/-- Whether an action sets a key to a value once, and is idle but for that (`isIdle`). -/
def Action.Mirrors (target : String) (value : Value) : Action → Prop
  | .done _ => False
  | .ask c next =>
    (c = .set target value ∧ ∀ reply, (next reply).Asks Command.isIdle) ∨
      (c.isIdle = true ∧ ∀ reply, (next reply).Mirrors target value)

/-- Whether a client sets a key to every value that it sees. -/
def Client.Mirrors (target : String) (code : Client) : Prop :=
  ∀ seen, (code seen).Mirrors target seen

/-- Whether an observer is a mirror observer onto a key. -/
def Observer.Mirrors (target : String) : Observer Client → Prop
  | .client code => Client.Mirrors target code
  | .retained code => Client.Mirrors target code
  | _ => False

/-- An action that `Mirrors` sets one key only. -/
theorem Action.Mirrors.target_eq {target other : String} {value : Value} : ∀ {a : Action},
    a.Mirrors target value → a.Mirrors other value → target = other
  | .done _, h, _ => h.elim
  | .ask c next, h, h' => by
    rcases h with ⟨rfl, -⟩ | ⟨hidle, h⟩
    · rcases h' with ⟨hset, -⟩ | ⟨hidle, -⟩
      · exact (Command.set.inj hset).1
      · exact absurd hidle (by simp [Command.isIdle])
    · rcases h' with ⟨rfl, -⟩ | ⟨-, h'⟩
      · exact absurd hidle (by simp [Command.isIdle])
      · exact (h .nothing).target_eq (h' .nothing)

theorem Observer.Mirrors.target_eq {target other : String} {o : Observer Client}
    (h : o.Mirrors target) (h' : o.Mirrors other) : target = other := by
  cases o with
  | client code => exact (h .null).target_eq (h' .null)
  | retained code => exact (h .null).target_eq (h' .null)
  | _ => exact h.elim

namespace Happening

/-! ## Reading the history -/

variable {hs : List Happening} {key : String}

/-- A key of which nothing is heard was not written (`writtenKeys`). -/
theorem lastWritten?_eq_none {store : StoreId} (h : key ∉ writtenKeys hs) :
    lastWritten? store key hs = none := by
  cases hlast : lastWritten? store key hs with
  | none => rfl
  | some v =>
    obtain ⟨number, hmem⟩ := exists_wrote_of_lastWritten? hlast
    exact absurd (mem_writtenKeys.2 ⟨number, store, v, hmem⟩) h

/-- Where all writes are of one value, it is the one that was written last. -/
theorem lastWritten?_eq_some {store : StoreId} {value : Value}
    (hall : ∀ number id k v, .wrote number id k v ∈ hs → id = store ∧ v = value)
    (h : key ∈ writtenKeys hs) : lastWritten? store key hs = some value := by
  obtain ⟨number, id, v, hmem⟩ := mem_writtenKeys.1 h
  obtain ⟨rfl, rfl⟩ := hall number id key v hmem
  have hsome : (lastWritten? id key hs).isSome := by
    rw [lastWritten?, List.findSome?_isSome_iff]
    exact ⟨_, hmem, by simp⟩
  obtain ⟨w, hw⟩ := Option.isSome_iff_exists.1 hsome
  obtain ⟨m, hlast⟩ := exists_wrote_of_lastWritten? hw
  rw [hw, (hall m id key w hlast).2]

end Happening

namespace Session

open Happening

/-! ## Stretches in which a value spreads -/

section Spreading

variable (store : StoreId) (value : Value)

/-- Whether an observer, if it is a mirror observer (`Mirrors`), has passed the value on. -/
def Passed (s' : Session) (o : Observer Client) : Prop :=
  ∀ target, o.Mirrors target → s'.holdsValue store target value = true

/-- What holds between a session and a later one if a value, and no other, was written in between, and
`new` happened.  The observers that are `due` may still have to be told. -/
structure Spread (due : String → Nat × Observer Client → Prop) (s : Session)
    (new : List Happening) (s' : Session) : Prop where
  live : ∃ st, s.world.stores[store]? = some st
  proceeds : s.Proceeds new s'
  /-- The value is written only where it was not. -/
  wrote : ∀ number id key v, .wrote number id key v ∈ new →
    id = store ∧ v = value ∧ s.holdsValue store key value = false
  once : (writtenKeys new).Nodup
  /-- Only observers of keys that were written are told. -/
  told : ∀ number id sub v, .told number id sub v ∈ new →
    id = store ∧ v = value ∧ sub.key ∈ writtenKeys new
  toldOnce : (toldSubscriptions new).Nodup
  /-- If a key was written, those of its observers were told that are still there. -/
  reached : ∀ st st' : Store Client, s.world.stores[store]? = some st →
    s'.world.stores[store]? = some st' → ∀ key ∈ writtenKeys new, ∀ entry ∈ st'.observersOf key,
      entry.1 < st.nextId → due key entry ∨ ⟨entry.1, key⟩ ∈ toldSubscriptions new
  /-- Whoever was told has passed the value on, and was there from the beginning if the number of the
  subscription was given out then. -/
  passed : ∀ sub ∈ toldSubscriptions new, ∃ o : Observer Client,
    (∀ st : Store Client, s.world.stores[store]? = some st → sub.id < st.nextId →
      (sub.id, o) ∈ st.observersOf sub.key) ∧
      (due sub.key (sub.id, o) ∨ Passed store value s' o)

/-- A stretch after which nobody is due (`Spread`). -/
abbrev Spread.Done (s : Session) (new : List Happening) (s' : Session) : Prop :=
  Spread store value (fun _ _ => False) s new s'

end Spreading

variable {store : StoreId} {value : Value} {due due₁ : String → Nat × Observer Client → Prop}
  {s s₁ s₂ : Session} {new new₁ new₂ : List Happening} {key : String}

namespace Spread

theorem lastWritten?_eq (h : Spread store value due s new s₁) (key : String) :
    lastWritten? store key new = if key ∈ writtenKeys new then some value else none := by
  split
  · next hkey =>
    exact lastWritten?_eq_some (fun number id k v hmem =>
      ⟨(h.wrote number id k v hmem).1, (h.wrote number id k v hmem).2.1⟩) hkey
  · next hkey => exact lastWritten?_eq_none hkey

/-- What becomes of the values: the keys that were written (`writtenKeys`) hold the value, the others what
they held. -/
theorem get?_eq (h : Spread store value due s new s₁) {st st₁ : Store Client}
    (hst : s.world.stores[store]? = some st) (hst₁ : s₁.world.stores[store]? = some st₁)
    (key : String) :
    st₁.get? key = if key ∈ writtenKeys new then some value else st.get? key := by
  obtain ⟨st', hst', -, hget⟩ := h.proceeds.stores store st hst
  obtain rfl : st' = st₁ := Option.some.inj (hst'.symm.trans hst₁)
  rw [hget, h.lastWritten?_eq]
  split
  · rw [Option.some_or]
  · rw [Option.none_or]

theorem holds_of_written (h : Spread store value due s new s₁) (hkey : key ∈ writtenKeys new) :
    s₁.holdsValue store key value = true := by
  obtain ⟨st, hst⟩ := h.live
  obtain ⟨st₁, hst₁, -⟩ := h.proceeds.stores store st hst
  rw [holdsValue_eq hst₁, Store.holds, h.get?_eq hst hst₁, if_pos hkey]
  exact value.same_refl

/-- A key that holds the value (`holdsValue`) is not written. -/
theorem not_written (h : Spread store value due s new s₁)
    (hholds : s.holdsValue store key value = true) : key ∉ writtenKeys new := by
  intro hkey
  obtain ⟨number, id, v, hmem⟩ := mem_writtenKeys.1 hkey
  exact absurd ((h.wrote number id key v hmem).2.2.symm.trans hholds) (by simp)

/-- A key that holds the value (`holdsValue`) goes on doing so. -/
theorem mono (h : Spread store value due s new s₁) (hholds : s.holdsValue store key value = true) :
    s₁.holdsValue store key value = true := by
  obtain ⟨st, hst⟩ := h.live
  obtain ⟨st₁, hst₁, -⟩ := h.proceeds.stores store st hst
  have hget : st₁.get? key = st.get? key := by
    rw [h.get?_eq hst hst₁, if_neg (h.not_written hholds)]
  rw [holdsValue_eq hst₁, holds_congr hget, ← holdsValue_eq hst, hholds]

/-- A key that came to hold the value was written (`writtenKeys`). -/
theorem written_of_holds (h : Spread store value due s new s₁)
    (hbefore : s.holdsValue store key value = false)
    (hafter : s₁.holdsValue store key value = true) : key ∈ writtenKeys new := by
  by_contra hkey
  obtain ⟨st, hst⟩ := h.live
  obtain ⟨st₁, hst₁, -⟩ := h.proceeds.stores store st hst
  have hget : st₁.get? key = st.get? key := by rw [h.get?_eq hst hst₁, if_neg hkey]
  rw [holdsValue_eq hst₁, holds_congr hget, ← holdsValue_eq hst, hbefore] at hafter
  exact absurd hafter (by simp)

/-- Who was due is due no longer once told and done with the value (`Passed`). -/
theorem discharge (h : Spread store value due₁ s new s₁)
    (hdue : ∀ key entry, due₁ key entry → due key entry ∨
      ⟨entry.1, key⟩ ∈ toldSubscriptions new ∧ Passed store value s₁ entry.2) :
    Spread store value due s new s₁ :=
  { h with
    reached := fun st st₁ hst hst₁ key hkey entry hentry hlt =>
      (h.reached st st₁ hst hst₁ key hkey entry hentry hlt).elim
        (fun hold => (hdue key entry hold).imp_right And.left) Or.inr
    passed := fun sub hsub => by
      obtain ⟨o, hthere, hpassed⟩ := h.passed sub hsub
      exact ⟨o, hthere, hpassed.elim (fun hold => (hdue _ _ hold).imp_right And.right) Or.inr⟩ }

/-- **Two stretches make one**, if nobody is due after the second (`Spread.Done`). -/
theorem trans (h₁ : Spread store value due s new₁ s₁) (h₂ : Spread.Done store value s₁ new₂ s₂) :
    Spread store value due s (new₂ ++ new₁) s₂ where
  live := h₁.live
  proceeds := h₁.proceeds.trans h₂.proceeds
  wrote number id key v hmem := by
    rcases List.mem_append.1 hmem with hmem | hmem
    · obtain ⟨hid, hv, hnot⟩ := h₂.wrote number id key v hmem
      refine ⟨hid, hv, Bool.eq_false_iff.2 fun hholds => ?_⟩
      exact absurd (hnot.symm.trans (h₁.mono hholds)) (by simp)
    · exact h₁.wrote number id key v hmem
  once := by
    rw [writtenKeys_append, List.nodup_append']
    exact ⟨h₂.once, h₁.once, fun key hlater hearlier =>
      h₂.not_written (h₁.holds_of_written hearlier) hlater⟩
  told number id sub v hmem := by
    rw [writtenKeys_append, List.mem_append]
    rcases List.mem_append.1 hmem with hmem | hmem
    · obtain ⟨hid, hv, hkey⟩ := h₂.told number id sub v hmem
      exact ⟨hid, hv, Or.inl hkey⟩
    · obtain ⟨hid, hv, hkey⟩ := h₁.told number id sub v hmem
      exact ⟨hid, hv, Or.inr hkey⟩
  toldOnce := by
    rw [toldSubscriptions_append, List.nodup_append']
    refine ⟨h₂.toldOnce, h₁.toldOnce, fun sub hlater hearlier => ?_⟩
    -- the key of the subscription would have been written twice
    obtain ⟨n₂, id₂, v₂, hmem₂⟩ := mem_toldSubscriptions.1 hlater
    obtain ⟨n₁, id₁, v₁, hmem₁⟩ := mem_toldSubscriptions.1 hearlier
    exact h₂.not_written (h₁.holds_of_written (h₁.told n₁ id₁ sub v₁ hmem₁).2.2)
      (h₂.told n₂ id₂ sub v₂ hmem₂).2.2
  reached st st₂ hst hst₂ key hkey entry hentry hlt := by
    obtain ⟨st₁, hst₁, hb₁, -⟩ := h₁.proceeds.stores store st hst
    obtain ⟨st', hst', hb₂, -⟩ := h₂.proceeds.stores store st₁ hst₁
    obtain rfl : st' = st₂ := Option.some.inj (hst'.symm.trans hst₂)
    have hlt₁ : entry.1 < st₁.nextId := Nat.lt_of_lt_of_le hlt hb₁.nextId_le
    rw [toldSubscriptions_append, List.mem_append]
    rw [writtenKeys_append, List.mem_append] at hkey
    rcases hkey with hkey | hkey
    · exact Or.inr (Or.inl
        ((h₂.reached st₁ st' hst₁ hst₂ key hkey entry hentry hlt₁).resolve_left not_false))
    · exact (h₁.reached st st₁ hst hst₁ key hkey entry (hb₂.mem_of_lt hentry hlt₁) hlt).imp_right
        Or.inr
  passed sub hsub := by
    rw [toldSubscriptions_append, List.mem_append] at hsub
    rcases hsub with hsub | hsub
    · obtain ⟨o, hthere, hpassed⟩ := h₂.passed sub hsub
      refine ⟨o, fun st hst hlt => ?_, Or.inr (hpassed.resolve_left not_false)⟩
      obtain ⟨st₁, hst₁, hb₁, -⟩ := h₁.proceeds.stores store st hst
      exact hb₁.mem_of_lt (hthere st₁ hst₁ (Nat.lt_of_lt_of_le hlt hb₁.nextId_le)) hlt
    · obtain ⟨o, hthere, hpassed⟩ := h₁.passed sub hsub
      exact ⟨o, hthere, hpassed.imp_right fun hpassed target hm => h₂.mono (hpassed target hm)⟩

/-- Who is being worked on meanwhile does not matter. -/
theorem busy (h : Spread store value due s new s₁) (nodes : List NodeId) (stores : List StoreId) :
    Spread store value due s new { s₁ with busyNodes := nodes, busyStores := stores } :=
  { h with proceeds := h.proceeds.busy nodes stores }

end Spread

/-- Where nothing is delivered (`Quiet`), no value spreads. -/
theorem Quiet.spread (h : s.Quiet s₁) (hlive : ∃ st, s.world.stores[store]? = some st) :
    ∃ new, Spread.Done store value s new s₁ := by
  obtain ⟨new, hproceeds, hquiet⟩ := h.proceeds
  have hwritten := writtenKeys_of_quiet hquiet
  have htold := toldSubscriptions_of_quiet hquiet
  refine ⟨new, hlive, hproceeds, ?_, hwritten ▸ List.nodup_nil, ?_, htold ▸ List.nodup_nil, ?_, ?_⟩
  · intro number id key v hmem
    exact absurd (hquiet _ hmem) (by simp [delivery?])
  · intro number id sub v hmem
    exact absurd (hquiet _ hmem) (by simp [delivery?])
  · intro st st' _ _ key hkey
    rw [hwritten] at hkey
    exact absurd hkey List.not_mem_nil
  · intro sub hsub
    rw [htold] at hsub
    exact absurd hsub List.not_mem_nil

/-! ## Deliveries -/

/-- Where the delivery of the value of a key stands that has got as far as `rest`, where `new` happened
since before the write. -/
structure Spreading (store : StoreId) (value : Value) (key : String)
    (rest : List (Nat × Observer Client)) (s : Session) (new : List Happening) (s₁ : Session) :
    Prop where
  spread : Spread store value (fun k entry => k = key ∧ entry ∈ rest) s new s₁
  begun : key ∈ writtenKeys new
  there : ∀ st : Store Client, s.world.stores[store]? = some st → rest ⊆ st.observersOf key
  /-- Who was told of the key subscribed before those who are still to be told. -/
  ahead : ∀ sub ∈ toldSubscriptions new, sub.key = key → ∀ entry ∈ rest, sub.id < entry.1
  ordered : rest.Pairwise fun a b => a.1 < b.1

variable {st : Store Client} {rest : List (Nat × Observer Client)}

/-- The value is written, and all observers of the key are due (`observersOf`). -/
theorem spreading_write (hst : s.world.stores[store]? = some st) (hsound : st.Sound)
    (hnew : st.holds key value = false) (stores : List StoreId) :
    Spreading store value key (st.observersOf key) s [.wrote s.deliveries store key value]
      { s.write store key value with busyStores := stores } where
  spread :=
    { live := ⟨st, hst⟩
      proceeds := (s.proceeds_write store key value).busy _ _
      wrote := fun number id k v hmem => by
        obtain ⟨-, rfl, rfl, rfl⟩ := Happening.wrote.inj (List.mem_singleton.1 hmem)
        exact ⟨rfl, rfl, (holdsValue_eq hst k v).trans hnew⟩
      once := List.nodup_singleton key
      told := fun number id sub v hmem => absurd (List.mem_singleton.1 hmem) (by simp)
      toldOnce := List.nodup_nil
      reached := fun old st' hold hst' k hk entry hentry _ => by
        obtain rfl : k = key := List.mem_singleton.1 hk
        obtain rfl : old = st := Option.some.inj (hold.symm.trans hst)
        have hst' : (s.world.stores.update store (·.write k value))[store]? = some st' := hst'
        rw [Stores.getElem?_update, hst, Option.map_some, if_pos rfl, Option.some.injEq] at hst'
        rw [← hst', Store.observersOf_write] at hentry
        exact Or.inl ⟨rfl, hentry⟩
      passed := fun sub hsub => absurd hsub List.not_mem_nil }
  begun := List.mem_singleton_self key
  there old hold := by
    obtain rfl : old = st := Option.some.inj (hold.symm.trans hst)
    exact List.Subset.refl _
  ahead sub hsub := absurd hsub List.not_mem_nil
  ordered := hsound.ordered key

/-- One observer more is told, but has yet to pass the value on. -/
theorem Spreading.told {id number : Nat} {o : Observer Client}
    (h : Spreading store value key ((id, o) :: rest) s new s₁) (hnumber : s.deliveries ≤ number) :
    Spread store value (fun k entry => k = key ∧ entry ∈ (id, o) :: rest) s
      (.told number store ⟨id, key⟩ value :: new)
      (s₁.record (.told number store ⟨id, key⟩ value)) where
  live := h.spread.live
  proceeds := h.spread.proceeds.told hnumber store ⟨id, key⟩ value
  wrote m i k v hmem := h.spread.wrote m i k v (List.mem_of_ne_of_mem (by simp) hmem)
  once := h.spread.once
  told m i sub v hmem := by
    rcases List.mem_cons.1 hmem with heq | hmem
    · obtain ⟨-, rfl, rfl, rfl⟩ := Happening.told.inj heq
      exact ⟨rfl, rfl, h.begun⟩
    · exact h.spread.told m i sub v hmem
  toldOnce := by
    have hfresh : (⟨id, key⟩ : Subscription) ∉ toldSubscriptions new := fun hmem =>
      absurd (h.ahead ⟨id, key⟩ hmem rfl (id, o) List.mem_cons_self) (Nat.lt_irrefl _)
    exact List.nodup_cons.2 ⟨hfresh, h.spread.toldOnce⟩
  reached st st' hst hst' k hk entry hentry hlt :=
    (h.spread.reached st st' hst hst' k hk entry hentry hlt).imp_right (List.mem_cons_of_mem _)
  passed sub hsub := by
    rcases List.mem_cons.1 hsub with rfl | hsub
    · exact ⟨o, fun st hst _ => h.there st hst List.mem_cons_self, Or.inl ⟨rfl, List.mem_cons_self⟩⟩
    · exact h.spread.passed sub hsub

/-- **One observer more is told**, and is done with the value (`Spread.Done`). -/
theorem Spreading.tell {id number : Nat} {o : Observer Client}
    (h : Spreading store value key ((id, o) :: rest) s new s₁) (hnumber : s.deliveries ≤ number)
    (hnext : Spread.Done store value (s₁.record (.told number store ⟨id, key⟩ value)) new₂ s₂)
    (hpassed : Passed store value s₂ o) :
    Spreading store value key rest s (new₂ ++ .told number store ⟨id, key⟩ value :: new) s₂ := by
  obtain ⟨hahead, hordered⟩ := List.pairwise_cons.1 h.ordered
  have hholds : (s₁.record (.told number store ⟨id, key⟩ value)).holdsValue store key value = true :=
    h.spread.holds_of_written h.begun
  refine ⟨((h.told hnumber).trans hnext).discharge ?_, ?_, fun st hst => ?_, ?_, hordered⟩
  · rintro k entry ⟨rfl, hentry⟩
    rcases List.mem_cons.1 hentry with rfl | hentry
    · refine Or.inr ⟨?_, hpassed⟩
      rw [toldSubscriptions_append]
      exact List.mem_append_right _ List.mem_cons_self
    · exact Or.inl ⟨rfl, hentry⟩
  · rw [writtenKeys_append]
    exact List.mem_append_right _ h.begun
  · exact List.Subset.trans (List.subset_cons_self _ _) (h.there st hst)
  · intro sub hsub hkey entry hentry
    rw [toldSubscriptions_append, List.mem_append] at hsub
    rcases hsub with hsub | hsub
    · -- what was told meanwhile belongs to other keys
      obtain ⟨m, i, v, hmem⟩ := mem_toldSubscriptions.1 hsub
      have hwritten : key ∈ writtenKeys new₂ := hkey ▸ (hnext.told m i sub v hmem).2.2
      exact absurd hwritten (hnext.not_written hholds)
    · rcases List.mem_cons.1 hsub with rfl | hsub
      · exact hahead entry hentry
      · exact h.ahead sub hsub hkey entry (List.mem_cons_of_mem _ hentry)

/-- Where everybody was told, nobody is due. -/
theorem Spreading.done (h : Spreading store value key [] s new s₁) :
    Spread.Done store value s new s₁ :=
  h.spread.discharge fun _ _ hdue => absurd hdue.2 List.not_mem_nil

end Session

end ViewBinding
