import ViewBinding.Proofs.Delivery.Supersession

/-!
# Whom a `set` tells

A `set` that writes takes the observers that the key has and tells them one after the other.  What
they do meanwhile changes the observers of the key, its value, or both, to any depth; it changes
neither whom the delivery goes through nor what it tells them, only whether it gets to its end.

* `Delivered`, `set_delivered` — what a single `set` that writes tells, whatever is nested in it.
* `set_tells_snapshot` — the same for every `set` of every run, with what that says of observers who
  come or go.
-/

namespace ViewBinding

open Json (Value)

namespace Happening

theorem mem_toldBy {number : Nat} {store : StoreId} {sub : Subscription} {value : Value}
    {hs : List Happening} (h : .told number store sub value ∈ hs) : sub.id ∈ toldBy number hs :=
  List.mem_filterMap.2 ⟨_, List.mem_reverse.2 h, by simp [telling?]⟩

end Happening

namespace Session

open Happening

variable {s s₁ s' : Session} {store : StoreId} {key : String} {value : Value} {st : Store Client}
  {new : List Happening}

/-! ## A single delivery -/

/-- What the delivery of a `set` tells that wrote `value` at `s`, where `new` happened during it. -/
structure Delivered (s : Session) (store : StoreId) (key : String) (value : Value)
    (st : Store Client) (new : List Happening) : Prop where
  /-- It tells the first ones of the observers that the key had (`toldBy`). -/
  before : toldBy s.deliveries new <+: (st.observersOf key).map Prod.fst
  /-- It tells them the value. -/
  exact : ∀ id sub v, .told s.deliveries id sub v ∈ new → id = store ∧ sub.key = key ∧ v = value
  /-- Nothing but a write of the key during it keeps it from telling them all. -/
  whole : (∀ number w, .wrote number store key w ∈ new → number = s.deliveries) →
    toldBy s.deliveries new = (st.observersOf key).map Prod.fst

/-- A delivery goes in the order of the subscriptions, and tells nobody twice (`toldBy`). -/
theorem Delivered.ordered (h : s.Delivered store key value st new) (hsound : st.Sound) :
    (toldBy s.deliveries new).Pairwise (· < ·) :=
  (List.pairwise_map.2 (hsound.ordered key)).sublist h.before.sublist

/-- **Every `set` that writes delivers to the observers that the key has at that time**, whatever
they do. -/
theorem set_delivered {depth : Nat} (hst : s.world.stores[store]? = some st)
    (hnew : st.holds key value = false) (h : s.set (invoke depth) store key value = some s') :
    ∃ new, s'.history = new ++ s.history ∧ s.Delivered store key value st new := by
  obtain ⟨rest, new, hp, hend⟩ := set_progress hst hnew h
  refine ⟨new, hp.proceeds.history, ⟨rest.map Prod.fst, hp.told⟩, ?_, fun hnone => ?_⟩
  · intro id sub v hmem
    obtain ⟨later, past, rfl⟩ := List.append_of_mem hmem
    exact (hp.timely id sub v past (List.suffix_append later _)).1
  · -- the value that was written last is the one of the delivery
    obtain ⟨v, hv⟩ := Option.isSome_iff_exists.1 hp.written
    obtain ⟨number, hnumber⟩ := exists_wrote_of_lastWritten? hv
    obtain rfl := hnone number v hnumber
    obtain ⟨-, -, rfl⟩ := hp.own store key v hnumber
    have hcurrent : current store key v new = true := by
      rw [current, hv]
      exact v.same_refl
    rcases hend with rfl | hgone
    · simpa using hp.told
    · rw [hcurrent] at hgone
      exact absurd hgone (by simp)

/-! ## Every `set` of every run -/

/-- **Whom a `set` tells.**  A `set` of the value that is there changes nothing.  Any other tells the
value to the first ones of the observers that the key had when it was written, in the order in which
they subscribed and each once; it tells them all unless a nested `set` writes the key.  So it tells
nobody who subscribes after it began, and nobody whose subscription had ended before. -/
theorem set_tells_snapshot {model : Value} {methods : List (String × Client)} {depth : Nat}
    (hs : Moves (start model methods) s) (hst : s.world.stores[store]? = some st)
    (h : s.set (invoke depth) store key value = some s') :
    (st.holds key value = true → s' = s) ∧
    (st.holds key value = false → ∃ new, s'.history = new ++ s.history ∧
      toldBy s.deliveries new <+: (st.observersOf key).map Prod.fst ∧
      (toldBy s.deliveries new).Pairwise (· < ·) ∧
      (∀ id sub v, .told s.deliveries id sub v ∈ new → id = store ∧ sub.key = key ∧ v = value) ∧
      ((∀ number w, .wrote number store key w ∈ new → number = s.deliveries) →
        toldBy s.deliveries new = (st.observersOf key).map Prod.fst) ∧
      (∀ (s₁ : Session) (st₁ : Store Client), Moves s s₁ → s₁.world.stores[store]? = some st₁ →
        ∀ k, (st₁.nextSubscription k).id ∉ toldBy s.deliveries new) ∧
      ∀ (s₀ : Session) (st₀ : Store Client) (sub : Subscription), Moves s₀ s →
        s₀.world.stores[store]? = some (st₀.unsubscribe sub) → sub.id < st₀.nextId →
        ∀ v, .told s.deliveries store sub v ∉ new) := by
  have hsound := hs.sound.store hst
  refine ⟨fun hheld => ?_, fun hnew => ?_⟩
  · rw [Session.set, hst] at h
    simp only [hheld, if_true] at h
    exact (Option.some.inj h).symm
  · obtain ⟨new, hhistory, hd⟩ := set_delivered hst hnew h
    refine ⟨new, hhistory, hd.before, hd.ordered hsound, hd.exact, hd.whole, ?_, ?_⟩
    · intro s₁ st₁ hlater hst₁ k hmem
      obtain ⟨entry, hentry, hid⟩ := List.mem_map.1 (hd.before.subset hmem)
      obtain ⟨st₂, hst₂, hbecomes⟩ := hlater.becomes hst
      obtain rfl : st₁ = st₂ := Option.some.inj (hst₁.symm.trans hst₂)
      have hlt := hsound.bounded key entry hentry
      rw [hid] at hlt
      exact absurd hbecomes.nextId_le (Nat.not_le.2 hlt)
    · intro s₀ st₀ sub hlater hended hissued v hmem
      have hkey := (hd.exact store sub v hmem).2.1
      have hregistered := hd.before.subset (mem_toldBy hmem)
      rw [← hkey] at hregistered
      have hout := hlater.not_registered hended hst ((st₀.nextId_unsubscribe sub).symm ▸ hissued)
        (st₀.isRegistered_unsubscribe_self sub)
      exact Bool.eq_false_iff.1 hout (Store.isRegistered_iff.2 hregistered)

/-- The client that ends its subscription and lets another one subscribe, while it is told. -/
def leaving : Client := fun _ =>
  .ask (.ending (.unsubscribe "first")) fun _ =>
    .command (.subscribe "late" "n" fun _ => .done .nothing)

/-- A session in which a reader observes a key after a client that leaves. -/
def firstLeaves : Session :=
  ((start (.ofMembers [("n", .int 0)]) []).run
    (.ask (.subscribe "first" "n" leaving) fun _ =>
      .command (.subscribe "second" "n" fun _ => .done .nothing))).2

/-- Both observers of `firstLeaves` that were there are told, and not the one that came meanwhile. -/
theorem both_told_though_first_leaves :
    ∃ st s' new, firstLeaves.world.stores[0]? = some st ∧ st.holds "n" (.int 1) = false ∧
      firstLeaves.set (invoke 3) 0 "n" (.int 1) = some s' ∧ s'.history = new ++ firstLeaves.history ∧
      toldBy 0 new <+: [0, 1] ∧ new.filterMap Happening.telling? = [(0, 1), (0, 0)] ∧
      (s'.world.stores[0]?.map fun st' => (st'.observersOf "n").map Prod.fst) = some [1, 2] ∧
      ∀ (s₁ : Session) (st₁ : Store Client), Moves firstLeaves s₁ → s₁.world.stores[0]? = some st₁ →
        ∀ k, (st₁.nextSubscription k).id ∉ toldBy 0 new := by
  obtain ⟨st, hst⟩ := Option.isSome_iff_exists.1
    (show (firstLeaves.world.stores[0]?).isSome = true by decide)
  obtain ⟨s', hs'⟩ := Option.isSome_iff_exists.1
    (show (firstLeaves.set (invoke 3) 0 "n" (.int 1)).isSome = true by decide)
  have hnew : st.holds "n" (.int 1) = false := by
    rw [← Option.some.inj hst]
    rfl
  have hobservers : (st.observersOf "n").map Prod.fst = [0, 1] := by
    rw [← Option.some.inj hst]
    rfl
  have htold : s'.history.filterMap Happening.telling? = [(0, 1), (0, 0)] := by
    rw [← Option.some.inj hs']
    rfl
  have hempty : firstLeaves.history = [] := rfl
  have hlater : (s'.world.stores[0]?.map fun st' => (st'.observersOf "n").map Prod.fst) =
      some [1, 2] := by
    rw [← Option.some.inj hs']
    rfl
  have hmoves : Moves (start (.ofMembers [("n", .int 0)]) []) firstLeaves := moves_run _ _
  obtain ⟨-, hsnapshot⟩ := set_tells_snapshot hmoves hst hs'
  obtain ⟨new, hhistory, hbefore, -, -, -, hlate, -⟩ := hsnapshot hnew
  rw [hobservers] at hbefore
  rw [hhistory, hempty, List.append_nil] at htold
  exact ⟨st, s', new, hst, hnew, hs', hhistory, hbefore, htold, hlater, hlate⟩

end Session

end ViewBinding
