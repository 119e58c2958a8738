import ViewBinding.Proofs.Session.Induction

/-!
# What a run leaves in the history

The history tells of every write that changed a value and of every observer that was told of one.
`Proceeds` says how a later session follows from an earlier one by what happened in between: the
values of every store are the ones that were written last (`Proceeds.stores`), and deliveries that
began in between have numbers of their own (`Proceeds.numbered`).  Every run proceeds
(`compositional_proceeds`).

A delivery is a loop over the observers of a key; `deliver_exit` is the rule for its invariants.
-/

namespace ViewBinding

open Json (Value)

namespace Happening

/-! ## Reading the history -/

/-- The value that was written last to a key of a store (`Happening.wrote`), where the latest happening
stands first. -/
def lastWritten? (store : StoreId) (key : String) (hs : List Happening) : Option Value :=
  hs.findSome? fun
    | .wrote _ id k value => if id = store ∧ k = key then some value else none
    | _ => none

/-- The value of which the observer of a subscription was told last (`Happening.told`). -/
def lastTold? (store : StoreId) (sub : Subscription) (hs : List Happening) : Option Value :=
  hs.findSome? fun
    | .told _ id sub' value => if id = store ∧ sub' = sub then some value else none
    | _ => none

theorem lastWritten?_append (store : StoreId) (key : String) (later earlier : List Happening) :
    lastWritten? store key (later ++ earlier) =
      (lastWritten? store key later).or (lastWritten? store key earlier) :=
  List.findSome?_append

theorem lastTold?_append (store : StoreId) (sub : Subscription) (later earlier : List Happening) :
    lastTold? store sub (later ++ earlier) =
      (lastTold? store sub later).or (lastTold? store sub earlier) :=
  List.findSome?_append

theorem lastWritten?_wrote (store id : StoreId) (key k : String) (n : Nat) (v : Value) :
    lastWritten? store key [.wrote n id k v] = if id = store ∧ k = key then some v else none := by
  by_cases h : id = store ∧ k = key <;> simp [lastWritten?, h]

theorem lastWritten?_told (store id : StoreId) (key : String) (n : Nat) (sub : Subscription)
    (v : Value) : lastWritten? store key [.told n id sub v] = none := rfl

theorem lastTold?_told (store id : StoreId) (sub sub' : Subscription) (n : Nat) (v : Value) :
    lastTold? store sub [.told n id sub' v] = if id = store ∧ sub' = sub then some v else none := by
  by_cases h : id = store ∧ sub' = sub <;> simp [lastTold?, h]

theorem lastTold?_wrote (store id : StoreId) (sub : Subscription) (n : Nat) (k : String)
    (v : Value) : lastTold? store sub [.wrote n id k v] = none := rfl

/-- Nothing is written and nobody is told where nothing is delivered. -/
theorem lastWritten?_of_quiet {new : List Happening} (h : ∀ x ∈ new, x.delivery? = none)
    (store : StoreId) (key : String) : lastWritten? store key new = none := by
  refine List.findSome?_eq_none_iff.2 fun x hx => ?_
  have hd := h x hx
  cases x <;> first | rfl | exact absurd hd (by simp [delivery?])

theorem lastTold?_of_quiet {new : List Happening} (h : ∀ x ∈ new, x.delivery? = none)
    (store : StoreId) (sub : Subscription) : lastTold? store sub new = none := by
  refine List.findSome?_eq_none_iff.2 fun x hx => ?_
  have hd := h x hx
  cases x <;> first | rfl | exact absurd hd (by simp [delivery?])

/-! ## What was written, and who was told -/

/-- The key that was written. -/
def key? : Happening → Option String
  | .wrote _ _ key _ => some key
  | _ => none

/-- The subscription whose observer was told. -/
def subscription? : Happening → Option Subscription
  | .told _ _ sub _ => some sub
  | _ => none

/-- The keys that were written, the latest first, each as often as it was. -/
def writtenKeys (hs : List Happening) : List String :=
  hs.filterMap key?

/-- The subscriptions whose observers were told, the latest first, each as often as it was. -/
def toldSubscriptions (hs : List Happening) : List Subscription :=
  hs.filterMap subscription?

section

variable {hs later earlier : List Happening} {key : String} {sub : Subscription}

theorem mem_writtenKeys :
    key ∈ writtenKeys hs ↔ ∃ number store value, .wrote number store key value ∈ hs := by
  refine ⟨fun h => ?_, fun ⟨number, store, value, h⟩ => List.mem_filterMap.2 ⟨_, h, rfl⟩⟩
  obtain ⟨x, hx, hkey⟩ := List.mem_filterMap.1 h
  cases x with
  | wrote number store k value => exact ⟨number, store, value, Option.some.inj hkey ▸ hx⟩
  | _ => exact absurd hkey (by simp [key?])

theorem mem_toldSubscriptions :
    sub ∈ toldSubscriptions hs ↔ ∃ number store value, .told number store sub value ∈ hs := by
  refine ⟨fun h => ?_, fun ⟨number, store, value, h⟩ => List.mem_filterMap.2 ⟨_, h, rfl⟩⟩
  obtain ⟨x, hx, hsub⟩ := List.mem_filterMap.1 h
  cases x with
  | told number store s value => exact ⟨number, store, value, Option.some.inj hsub ▸ hx⟩
  | _ => exact absurd hsub (by simp [subscription?])

theorem writtenKeys_append : writtenKeys (later ++ earlier) = writtenKeys later ++ writtenKeys earlier :=
  List.filterMap_append

theorem toldSubscriptions_append :
    toldSubscriptions (later ++ earlier) = toldSubscriptions later ++ toldSubscriptions earlier :=
  List.filterMap_append

theorem writtenKeys_of_quiet (h : ∀ x ∈ hs, x.delivery? = none) : writtenKeys hs = [] := by
  refine List.filterMap_eq_nil_iff.2 fun x hx => ?_
  have hd := h x hx
  cases x <;> first | rfl | exact absurd hd (by simp [delivery?])

theorem toldSubscriptions_of_quiet (h : ∀ x ∈ hs, x.delivery? = none) :
    toldSubscriptions hs = [] := by
  refine List.filterMap_eq_nil_iff.2 fun x hx => ?_
  have hd := h x hx
  cases x <;> first | rfl | exact absurd hd (by simp [delivery?])

end

end Happening

namespace Session

open Happening

/-! ## Proceeding -/

/-- What holds between a session and a later one, where `new` happened in between. -/
structure Proceeds (s : Session) (new : List Happening) (s' : Session) : Prop where
  history : s'.history = new ++ s.history
  deliveries : s.deliveries ≤ s'.deliveries
  numbered : ∀ x ∈ new, ∀ number, x.delivery? = some number → s.deliveries ≤ number
  stores : ∀ (id : StoreId) (st : Store Client), s.world.stores[id]? = some st →
    ∃ st' : Store Client, s'.world.stores[id]? = some st' ∧ st.Becomes st' ∧
      ∀ key, st'.get? key = (lastWritten? id key new).or (st.get? key)

variable {s s₁ s₂ : Session} {new : List Happening}

theorem Quiet.proceeds (h : s.Quiet s₁) : ∃ new, s.Proceeds new s₁ ∧
    ∀ x ∈ new, x.delivery? = none := by
  obtain ⟨new, hnew, hquiet⟩ := h.history
  refine ⟨new, ⟨hnew, h.deliveries, fun x hx n hn => ?_, fun id st hst => ?_⟩, hquiet⟩
  · rw [hquiet x hx] at hn
    exact absurd hn (by simp)
  · obtain ⟨st', hst', hbecomes, hdata⟩ := h.stores.rewired.kept id st hst
    refine ⟨st', hst', hbecomes, fun key => ?_⟩
    rw [lastWritten?_of_quiet hquiet, Option.none_or, Store.get?, hdata, Store.get?]

namespace Proceeds

theorem refl (s : Session) : s.Proceeds [] s where
  history := rfl
  deliveries := Nat.le_refl _
  numbered x hx := absurd hx (by simp)
  stores id st hst := ⟨st, hst, Store.Becomes.refl st, fun _ => rfl⟩

/-- Who is held meanwhile does not matter. -/
theorem busy (h : s.Proceeds new s₁) (nodes : List NodeId) (stores : List StoreId) :
    s.Proceeds new { s₁ with busyNodes := nodes, busyStores := stores } :=
  ⟨h.history, h.deliveries, h.numbered, h.stores⟩

theorem trans {new₂ : List Happening} (h₁ : s.Proceeds new s₁) (h₂ : s₁.Proceeds new₂ s₂) :
    s.Proceeds (new₂ ++ new) s₂ where
  history := by rw [h₂.history, h₁.history, List.append_assoc]
  deliveries := Nat.le_trans h₁.deliveries h₂.deliveries
  numbered x hx number hn := by
    rcases List.mem_append.1 hx with hx | hx
    · exact Nat.le_trans h₁.deliveries (h₂.numbered x hx number hn)
    · exact h₁.numbered x hx number hn
  stores id st hst := by
    obtain ⟨st₁, hst₁, hb₁, hv₁⟩ := h₁.stores id st hst
    obtain ⟨st₂, hst₂, hb₂, hv₂⟩ := h₂.stores id st₁ hst₁
    refine ⟨st₂, hst₂, hb₁.trans hb₂, fun key => ?_⟩
    rw [hv₂, hv₁, lastWritten?_append, Option.or_assoc]

/-- An observer is told of a value whose delivery began after the session. -/
theorem told (h : s.Proceeds new s₁) {number : Nat} (hn : s.deliveries ≤ number) (store : StoreId)
    (sub : Subscription) (value : Value) :
    s.Proceeds (.told number store sub value :: new) (s₁.record (.told number store sub value)) where
  history := by
    show _ :: s₁.history = _
    rw [h.history, List.cons_append]
  deliveries := h.deliveries
  numbered x hx m hm := by
    rcases List.mem_cons.1 hx with rfl | hx
    · exact Option.some.inj hm ▸ hn
    · exact h.numbered x hx m hm
  stores id st hst := by
    obtain ⟨st', hst', hb, hv⟩ := h.stores id st hst
    exact ⟨st', hst', hb, hv⟩

end Proceeds

/-- A write is the first that happens in its delivery (`Session.write`). -/
theorem proceeds_write (s : Session) (store : StoreId) (key : String) (value : Value) :
    s.Proceeds [.wrote s.deliveries store key value] (s.write store key value) where
  history := rfl
  deliveries := Nat.le_succ _
  numbered x hx m hm := by
    rw [List.mem_singleton.1 hx] at hm
    exact Nat.le_of_eq (Option.some.inj hm)
  stores id st hst := by
    refine ⟨if store = id then st.write key value else st, ?_, ?_, fun other => ?_⟩
    · show (s.world.stores.update store _)[id]? = _
      rw [Stores.getElem?_update, hst]
      rfl
    · split
      · exact st.becomes_write key value
      · exact Store.Becomes.refl st
    · rw [lastWritten?_wrote]
      by_cases hid : store = id
      · rw [if_pos hid]
        by_cases hkey : key = other
        · subst hkey
          rw [if_pos ⟨hid, rfl⟩, Store.get?_write_self, Option.some_or]
        · rw [if_neg fun h => hkey h.2, Store.get?_write_of_ne st (Ne.symm hkey), Option.none_or]
      · rw [if_neg hid, if_neg fun h => hid h.1, Option.none_or]

/-! ## The delivery loop -/

/-- Whether a store holds a value under a key (`Store.holds`). -/
def holdsValue (s : Session) (store : StoreId) (key : String) (value : Value) : Bool :=
  s.world.stores[store]?.any (·.holds key value)

/-- **The rule for the invariants of a delivery.**  `I` speaks of the observers that are still to be
told and of the session.  Where a delivery ends, everybody was told, or the store holds another
value. -/
theorem deliver_exit {call : Caller} {number : Nat} {store : StoreId} {key : String}
    {value : Value} {I : List (Nat × Observer Client) → Session → Prop}
    (hstep : ∀ {id observer rest s s'}, I ((id, observer) :: rest) s →
      s.holdsValue store key value = true →
      tell call observer value (s.record (.told number store ⟨id, key⟩ value)) = some s' → I rest s')
    {observers : List (Nat × Observer Client)} {s s' : Session} (hI : I observers s)
    (h : deliver call number store key value observers s = some s') :
    ∃ rest, I rest s' ∧ (rest = [] ∨ s'.holdsValue store key value = false) := by
  induction observers generalizing s with
  | nil => exact ⟨[], Option.some.inj h ▸ hI, Or.inl rfl⟩
  | cons entry rest ih =>
    obtain ⟨id, observer⟩ := entry
    rw [deliver] at h
    split at h
    · next hholds =>
      split at h
      · exact absurd h (by simp)
      · next s₁ hs₁ => exact ih (hstep hI hholds hs₁) h
    · next hholds =>
      rw [← Option.some.inj h]
      exact ⟨_, hI, Or.inr (Bool.not_eq_true _ ▸ hholds)⟩

/-- A `set` does nothing if the value is there already; else it writes and delivers while its store is
held. -/
theorem set_cases {call : Caller} {store : StoreId} {key : String} {value : Value}
    (h : Session.set call store key value s = some s₁) :
    (s₁ = s ∧ ∀ st : Store Client, s.world.stores[store]? = some st → st.holds key value = true) ∨
    ∃ st after, s.world.stores[store]? = some st ∧ st.holds key value = false ∧
      deliver call s.deliveries store key value (st.observersOf key)
        { s.write store key value with busyStores := store :: s.busyStores } = some after ∧
      s₁ = { after with busyNodes := s.busyNodes, busyStores := s.busyStores } := by
  unfold Session.set at h
  split at h
  · next hnone =>
    refine Or.inl ⟨(Option.some.inj h).symm, fun st hst => ?_⟩
    rw [hnone] at hst
    exact absurd hst (by simp)
  · next st hst =>
    split at h
    · next hheld =>
      refine Or.inl ⟨(Option.some.inj h).symm, fun st' hst' => ?_⟩
      rw [Option.some.inj (hst'.symm.trans hst), hheld]
    · next hnew =>
      obtain ⟨after, hafter, rfl⟩ := holding_eq_some h
      exact Or.inr ⟨st, after, hst, Bool.not_eq_true _ ▸ hnew, hafter, rfl⟩

/-! ## Every run proceeds -/

/-- A session that later follows from another one (`Proceeds`). -/
def Proceeding (s s' : Session) : Prop := ∃ new, s.Proceeds new s'

theorem Quiet.proceeding (h : s.Quiet s₁) : s.Proceeding s₁ :=
  let ⟨new, hnew, _⟩ := h.proceeds
  ⟨new, hnew⟩

theorem compositional_proceeds : Compositional Proceeding where
  quiet h := h.proceeding
  trans := fun ⟨new₁, h₁⟩ ⟨new₂, h₂⟩ => ⟨new₂ ++ new₁, h₁.trans h₂⟩
  set {call} hcall {store key value s s'} h := by
    rcases set_cases h with ⟨rfl, -⟩ | ⟨st, after, -, -, hafter, rfl⟩
    · exact ⟨[], Proceeds.refl s'⟩
    · -- whatever was told so far, the session proceeds from the one before the write
      obtain ⟨rest, ⟨new, hnew⟩, -⟩ := deliver_exit
        (I := fun _ s₁ => ∃ new, s.Proceeds new s₁)
        (fun ⟨new, hnew⟩ _ htell => by
          obtain ⟨more, hmore⟩ := hcall.tell (fun hq => hq.proceeding) htell
          exact ⟨_, (hnew.told (Nat.le_refl _) _ _ _).trans hmore⟩)
        ⟨_, (s.proceeds_write store key value).busy _ _⟩ hafter
      exact ⟨new, hnew.busy _ _⟩

end Session

end ViewBinding
