import ViewBinding.Proofs.Compile.Itinerary

/-!
# What a pass plans to subscribe

Whatever a pass subscribes can be told before it starts.  `Compiler.plan` lists the subscriptions
along the stops; one that is not to last, because its element is replaced at the same stop, leaves a
gap, which takes a number all the same.  A store numbers the subscriptions as they come (`numbered`).

`Planned` says what the stores come to when a plan is carried out: the subscriptions that some old
guards stand for end, and the plan is added behind.

* `planned_subscribe`, `planned_endGuards` — the two things that a pass does to a store.
* `Planned.trans` — one plan after the other.
* `Planned.undo` — a plan all of which ends again is a plan of gaps.
-/

namespace ViewBinding

variable {κ : Type}

/-- A subscription that a pass makes: the node that holds it, the key, and who is told. -/
structure Link (κ : Type) where
  node : NodeId
  key : String
  observer : Observer κ

/-! ## The plan of a pass -/

namespace Compiler

variable (c : Compiler κ)

/-- What a directive on a node subscribes: one of `v-text` and one of `v-model` do, the others do not. -/
def link? (id : NodeId) (d : Directive) : Option (Link κ) :=
  match c.strategy? d with
  | some .textSync => some ⟨id, d.key, .content id⟩
  | some .valueSync => some ⟨id, d.key, .field id⟩
  | _ => none

/-- What a text with a marker subscribes (`bind_text`). -/
def markerLink? (id : NodeId) (n : Node κ) : Option (Link κ) :=
  n.payload?.bind fun template =>
    (Marker.find? c.options.delimiters template).map fun marker =>
      ⟨id, marker.key, .marker id template marker⟩

/-- What is subscribed at a stop, in this order: `link?` of each directive, or `markerLink?`. -/
def links (stop : Stop κ) : List (Link κ) :=
  (c.markerLink? stop.node stop.val).toList ++ stop.dispatched.filterMap (c.link? stop.node)

/-- What a pass with the given stops subscribes, with a gap for each subscription that is not to last: that
of an element that is replaced. -/
def plan (stops : List (Stop κ)) : List (Option (Link κ)) :=
  stops.flatMap fun stop =>
    if stop.dispatched.any c.replaces then (c.links stop).map fun _ => none
    else (c.links stop).map some

theorem plan_append (a b : List (Stop κ)) : c.plan (a ++ b) = c.plan a ++ c.plan b :=
  List.flatMap_append

end Compiler

/-! ## Numbers -/

/-- The links of a plan with the numbers that they get from `k` on. -/
def numbered : Nat → List (Option (Link κ)) → List (Nat × Link κ)
  | _, [] => []
  | k, none :: rest => numbered (k + 1) rest
  | k, some l :: rest => (k, l) :: numbered (k + 1) rest

theorem numbered_append (k : Nat) (a b : List (Option (Link κ))) :
    numbered k (a ++ b) = numbered k a ++ numbered (k + a.length) b := by
  induction a generalizing k with
  | nil => rfl
  | cons l rest ih =>
    have hnext : k + (l :: rest).length = k + 1 + rest.length := by
      rw [List.length_cons]
      omega
    cases l with
    | none => rw [List.cons_append, numbered, numbered, ih, hnext]
    | some l => rw [List.cons_append, numbered, numbered, ih, hnext, List.cons_append]

theorem numbered_gaps {α : Type} (k : Nat) (l : List α) :
    numbered k (l.map fun _ => (none : Option (Link κ))) = [] := by
  induction l generalizing k with
  | nil => rfl
  | cons a rest ih => exact ih (k + 1)

theorem bounds_of_mem_numbered {k : Nat} {plan : List (Option (Link κ))} {x : Nat × Link κ}
    (hx : x ∈ numbered k plan) : k ≤ x.1 ∧ x.1 < k + plan.length := by
  induction plan generalizing k with
  | nil => exact absurd hx (by simp [numbered])
  | cons l rest ih =>
    rw [List.length_cons]
    cases l with
    | none =>
      have hbelow := ih hx
      omega
    | some l =>
      rw [numbered, List.mem_cons] at hx
      rcases hx with rfl | hx
      · show k ≤ k ∧ k < k + (rest.length + 1)
        omega
      · have hbelow := ih hx
        omega

theorem mem_of_mem_numbered {k : Nat} {plan : List (Option (Link κ))} {x : Nat × Link κ}
    (hx : x ∈ numbered k plan) : some x.2 ∈ plan := by
  induction plan generalizing k with
  | nil => exact absurd hx (by simp [numbered])
  | cons l rest ih =>
    cases l with
    | none => exact List.mem_cons_of_mem _ (ih hx)
    | some l =>
      rw [numbered, List.mem_cons] at hx
      rcases hx with rfl | hx
      · exact List.mem_cons_self
      · exact List.mem_cons_of_mem _ (ih hx)

theorem pairwise_numbered (k : Nat) (plan : List (Option (Link κ))) :
    (numbered k plan).Pairwise fun x y => x.1 < y.1 := by
  induction plan generalizing k with
  | nil => exact List.Pairwise.nil
  | cons l rest ih =>
    cases l with
    | none => exact ih (k + 1)
    | some l => exact List.pairwise_cons.2 ⟨fun x hx => (bounds_of_mem_numbered hx).1, ih (k + 1)⟩

/-- The subscription of a numbered link (`numbered`). -/
def Link.subscription (x : Nat × Link κ) : Subscription := ⟨x.1, x.2.key⟩

/-- The guard of a numbered link. -/
def Link.guard (store : StoreId) (x : Nat × Link κ) : Guard := ⟨store, subscription x⟩

/-- The observers of a key among some numbered links. -/
def observersFor (key : String) (links : List (Nat × Link κ)) : List (Nat × Observer κ) :=
  (links.filter fun x => x.2.key = key).map fun x => (x.1, x.2.observer)

theorem observersFor_append (key : String) (a b : List (Nat × Link κ)) :
    observersFor key (a ++ b) = observersFor key a ++ observersFor key b := by
  simp [observersFor]

theorem mem_observersFor {key : String} {links : List (Nat × Link κ)} {entry : Nat × Observer κ} :
    entry ∈ observersFor key links ↔
      ∃ x ∈ links, x.2.key = key ∧ entry = (x.1, x.2.observer) := by
  simp [observersFor, eq_comm, and_assoc]

/-! ## Subscriptions that end -/

/-- What is left of the observers of a key of a store when the subscriptions of some guards have ended
(`endGuards`). -/
def remaining (ended : List Guard) (id : StoreId) (key : String) (entries : List (Nat × Observer κ)) :
    List (Nat × Observer κ) :=
  entries.filter fun entry => (⟨id, entry.1, key⟩ : Guard) ∉ ended

section

variable {ended more : List Guard} {id : StoreId} {key : String} {entries : List (Nat × Observer κ)}

@[simp] theorem remaining_nil : remaining [] id key entries = entries := by
  simp [remaining]

theorem mem_remaining {entry : Nat × Observer κ} :
    entry ∈ remaining ended id key entries ↔ entry ∈ entries ∧ ⟨id, entry.1, key⟩ ∉ ended := by
  simp [remaining]

theorem remaining_append (ended : List Guard) (id : StoreId) (key : String)
    (a b : List (Nat × Observer κ)) :
    remaining ended id key (a ++ b) = remaining ended id key a ++ remaining ended id key b :=
  List.filter_append ..

/-- What is left once some subscriptions end, and then others. -/
theorem remaining_remaining : remaining more id key (remaining ended id key entries) =
    remaining (ended ++ more) id key entries := by
  simp only [remaining, List.filter_filter, List.mem_append, not_or]
  refine List.filter_congr fun entry _ => ?_
  by_cases h : (⟨id, entry.1, key⟩ : Guard) ∈ ended <;> simp [h]

/-- Guards that stand for none of the observers end nothing. -/
theorem remaining_eq_self (h : ∀ entry ∈ entries, ⟨id, entry.1, key⟩ ∉ ended) :
    remaining ended id key entries = entries :=
  List.filter_eq_self.2 fun entry hentry => by simpa using h entry hentry

/-- Only those of the guards matter that stand for observers. -/
theorem remaining_congr (h : ∀ entry ∈ entries, (⟨id, entry.1, key⟩ : Guard) ∈ ended ↔
    ⟨id, entry.1, key⟩ ∈ more) : remaining ended id key entries = remaining more id key entries :=
  List.filter_congr fun entry hentry => by simp [h entry hentry]

theorem remaining_eq_nil (h : ∀ entry ∈ entries, ⟨id, entry.1, key⟩ ∈ ended) :
    remaining ended id key entries = [] :=
  List.filter_eq_nil_iff.2 fun entry hentry => by simpa using h entry hentry

end

/-- Ending guards, seen from one key of one store: what is left is `remaining`. -/
theorem observersOf_endGuards (gs : List Guard) {stores : Stores κ} {id : StoreId} {st : Store κ}
    (hst : stores[id]? = some st) : ∃ st' : Store κ, (stores.endGuards gs)[id]? = some st' ∧
      st'.nextId = st.nextId ∧
      ∀ key, st'.observersOf key = remaining gs id key (st.observersOf key) := by
  induction gs generalizing stores st with
  | nil => exact ⟨st, hst, rfl, fun key => remaining_nil.symm⟩
  | cons g gs ih =>
    have hfirst : (stores.endGuard g)[id]? =
        some (if g.store = id then st.unsubscribe g.subscription else st) := by
      rw [Stores.endGuard, Stores.getElem?_update, hst, Option.map_some]
    obtain ⟨st', hst', hnext, hobservers⟩ := ih hfirst
    refine ⟨st', hst', ?_, fun key => ?_⟩
    · rw [hnext]
      split
      · exact st.nextId_unsubscribe _
      · rfl
    · rw [hobservers, ← List.singleton_append, ← remaining_remaining]
      congr 1
      by_cases hstore : g.store = id
      · rw [if_pos hstore]
        by_cases hkey : key = g.subscription.key
        · subst hkey
          rw [Store.observersOf_unsubscribe_self]
          refine List.filter_congr fun entry _ => ?_
          obtain ⟨store, number, key⟩ := g
          simp [← hstore]
        · rw [Store.observersOf_unsubscribe_of_ne _ _ hkey, remaining_eq_self]
          rintro entry - hin
          rw [← List.mem_singleton.1 hin] at hkey
          exact hkey rfl
      · rw [if_neg hstore, remaining_eq_self]
        rintro entry - hin
        rw [← List.mem_singleton.1 hin] at hstore
        exact hstore rfl

/-! ## A plan carried out -/

/-- Whether a store is there, and the next subscription to it gets the number `k`. -/
def Stores.Due (stores : Stores κ) (store : StoreId) (k : Nat) : Prop :=
  ∃ st : Store κ, stores[store]? = some st ∧ st.nextId = k ∧
    ∀ key, ∀ entry ∈ st.observersOf key, entry.1 < k

theorem Store.Sound.due {st : Store κ} (h : st.Sound) {stores : Stores κ} {store : StoreId}
    (hst : stores[store]? = some st) : stores.Due store st.nextId :=
  ⟨st, hst, rfl, h.bounded⟩

/-- What becomes of the stores when a plan is carried out, the numbers of which start at `k`: the
subscriptions of some old guards end, and the plan is added behind. -/
def Planned (store : StoreId) (k : Nat) (plan : List (Option (Link κ))) (ended : List Guard)
    (a b : Stores κ) : Prop :=
  ∀ (id : StoreId) (st : Store κ), a[id]? = some st →
    ∃ st' : Store κ, b[id]? = some st' ∧
      st'.nextId = st.nextId + (if id = store then plan.length else 0) ∧
      ∀ key, st'.observersOf key = remaining ended id key (st.observersOf key) ++
        if id = store then observersFor key (numbered k plan) else []

namespace Planned

variable {store : StoreId} {k : Nat} {plan more : List (Option (Link κ))} {ended others : List Guard}
  {a b d : Stores κ}

theorem refl (store : StoreId) (k : Nat) (a : Stores κ) : Planned store k [] [] a a :=
  fun _ st hst => ⟨st, hst, by simp, by simp [observersFor, numbered]⟩

/-- The order in which guards end is no matter (`Planned`). -/
theorem congr (h : Planned store k plan ended a b) (hsame : ∀ g, g ∈ ended ↔ g ∈ others) :
    Planned store k plan others a b := by
  intro id st hst
  obtain ⟨st', hst', hnext, hobservers⟩ := h id st hst
  refine ⟨st', hst', hnext, fun key => ?_⟩
  rw [hobservers, remaining_congr fun entry _ => hsame _]

/-- After a plan the numbers go on. -/
theorem due (h : Planned store k plan ended a b) (hdue : a.Due store k) :
    b.Due store (k + plan.length) := by
  obtain ⟨st, hst, hnext, hbelow⟩ := hdue
  obtain ⟨st', hst', hnext', hobservers⟩ := h store st hst
  refine ⟨st', hst', by rw [hnext', if_pos rfl, hnext], fun key entry hentry => ?_⟩
  rw [hobservers, if_pos rfl, List.mem_append] at hentry
  rcases hentry with hentry | hentry
  · exact Nat.lt_of_lt_of_le (hbelow key entry (mem_remaining.1 hentry).1) (Nat.le_add_right _ _)
  · obtain ⟨x, hx, -, rfl⟩ := mem_observersFor.1 hentry
    exact (bounds_of_mem_numbered hx).2

/-- Two plans are carried out one after the other; what the second ends is older than both (`Planned`). -/
theorem trans (h₁ : Planned store k plan ended a b)
    (h₂ : Planned store (k + plan.length) more others b d)
    (holder : ∀ g ∈ others, g.store = store → g.subscription.id < k) :
    Planned store k (plan ++ more) (ended ++ others) a d := by
  intro id st hst
  obtain ⟨st₁, hst₁, hnext₁, hobservers₁⟩ := h₁ id st hst
  obtain ⟨st₂, hst₂, hnext₂, hobservers₂⟩ := h₂ id st₁ hst₁
  refine ⟨st₂, hst₂, ?_, fun key => ?_⟩
  · rw [hnext₂, hnext₁, List.length_append]
    split <;> omega
  · rw [hobservers₂, hobservers₁, remaining_append, remaining_remaining, List.append_assoc]
    congr 1
    by_cases hid : id = store
    · subst hid
      rw [if_pos rfl, if_pos rfl, if_pos rfl, numbered_append, observersFor_append]
      congr 1
      -- what the first plan added is too young to end
      refine remaining_eq_self fun entry hentry hin => ?_
      obtain ⟨x, hx, -, rfl⟩ := mem_observersFor.1 hentry
      have hyoung := (bounds_of_mem_numbered hx).1
      have hold := holder _ hin rfl
      exact absurd hold (Nat.not_lt.2 hyoung)
    · simp [hid, remaining]

/-- All that a plan made ends again (`undo`), and with it what some other old guards stand for. -/
theorem undo (h : Planned store k plan ended a b) (hdue : a.Due store k) {gs : List Guard}
    (hall : ∀ x ∈ numbered k plan, Link.guard store x ∈ gs) (hothers : ∀ g ∈ others, g ∈ gs)
    (honly : ∀ g ∈ gs, g ∈ others ∨ g.store = store ∧ k ≤ g.subscription.id) :
    Planned store k (plan.map fun _ => none) (ended ++ others) a (b.endGuards gs) := by
  intro id st hst
  obtain ⟨st₁, hst₁, hnext₁, hobservers₁⟩ := h id st hst
  obtain ⟨st₂, hst₂, hnext₂, hobservers₂⟩ := observersOf_endGuards gs hst₁
  refine ⟨st₂, hst₂, by rw [hnext₂, hnext₁, List.length_map], fun key => ?_⟩
  rw [hobservers₂, hobservers₁, remaining_append, numbered_gaps, remaining_remaining]
  congr 1
  · -- among the old observers only those of old guards end
    refine remaining_congr fun entry hentry => ?_
    simp only [List.mem_append]
    refine or_congr_right ⟨fun hin => (honly _ hin).resolve_right ?_, hothers _⟩
    rintro ⟨rfl, hyoung⟩
    obtain ⟨st', hst', -, hbelow⟩ := hdue
    obtain rfl : st = st' := Option.some.inj (hst.symm.trans hst')
    exact absurd (hbelow key entry hentry) (Nat.not_lt.2 hyoung)
  · split
    · next hid =>
      subst hid
      refine remaining_eq_nil fun entry hentry => ?_
      obtain ⟨x, hx, rfl, rfl⟩ := mem_observersFor.1 hentry
      exact hall x hx
    · simp [remaining]

end Planned

/-- A subscription is a plan of one link. -/
theorem planned_subscribe {stores : Stores κ} {store : StoreId} {k : Nat} (hdue : stores.Due store k)
    (l : Link κ) :
    Planned store k [some l] [] stores (stores.update store (·.subscribe l.key l.observer)) := by
  obtain ⟨now, hnow, hnext, -⟩ := hdue
  intro id st hst
  refine ⟨if store = id then st.subscribe l.key l.observer else st, ?_, ?_, fun key => ?_⟩
  · rw [Stores.getElem?_update, hst, Option.map_some]
  · by_cases hid : id = store
    · rw [if_pos hid.symm, if_pos hid]
      rfl
    · rw [if_neg (Ne.symm hid), if_neg hid, Nat.add_zero]
  · by_cases hid : id = store
    · subst hid
      obtain rfl : now = st := Option.some.inj (hnow.symm.trans hst)
      rw [if_pos rfl, if_pos rfl, Store.observersOf_subscribe, remaining_nil, hnext]
      by_cases hkey : key = l.key
      · simp [observersFor, numbered, hkey]
      · simp [observersFor, numbered, hkey, Ne.symm hkey]
    · rw [if_neg (Ne.symm hid), if_neg hid, remaining_nil, List.append_nil]

/-- Ending old guards (`endGuards`) is a plan without a link. -/
theorem planned_endGuards (store : StoreId) (k : Nat) (gs : List Guard) (stores : Stores κ) :
    Planned store k [] gs stores (stores.endGuards gs) := by
  intro id st hst
  obtain ⟨st', hst', hnext, hobservers⟩ := observersOf_endGuards gs hst
  exact ⟨st', hst', by simp [hnext], fun key => by simp [hobservers, observersFor, numbered]⟩

end ViewBinding
