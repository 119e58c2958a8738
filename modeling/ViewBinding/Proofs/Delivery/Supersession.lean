import ViewBinding.Proofs.Session.Sound

/-!
# Deliveries that are overtaken

A delivery looks, before it tells the next observer, whether its value is still the one that is
there.  So an observer that writes another value ends the delivery that told it.  What is asked for is
the value, though, and not whether anybody wrote: if the value is written back before the observer is
done, the delivery goes on, and tells the others what the nested delivery of the same value has told
them already (`delivery_goes_on_iff_current`, `resumed_delivery_tells_twice`).

Main statement: `delivery_goes_on_iff_current` says for every `set` that writes whom it tells, when
exactly it goes on, and that without a write back nothing is told after a nested write.
-/

namespace ViewBinding

open Json (Value)

namespace Happening

/-! ## Reading the history -/

/-- The number of the delivery that told an observer, and the number of its subscription. -/
def telling? : Happening → Option (Nat × Nat)
  | .told number _ sub _ => some (number, sub.id)
  | _ => none

/-- The subscriptions whose observers a delivery told (`telling?`), in the order in which it did. -/
def toldBy (number : Nat) (hs : List Happening) : List Nat :=
  hs.reverse.filterMap fun x =>
    x.telling?.bind fun (n, id) => if n = number then some id else none

/-- Whether a value is the one that was written last to a key (`lastWritten?`). -/
def current (store : StoreId) (key : String) (value : Value) (hs : List Happening) : Bool :=
  (lastWritten? store key hs).any (·.same value)

theorem toldBy_append (number : Nat) (later earlier : List Happening) :
    toldBy number (later ++ earlier) = toldBy number earlier ++ toldBy number later := by
  rw [toldBy, List.reverse_append, List.filterMap_append]
  rfl

theorem toldBy_cons_self (number : Nat) (store : StoreId) (sub : Subscription) (value : Value)
    (past : List Happening) :
    toldBy number (.told number store sub value :: past) = toldBy number past ++ [sub.id] := by
  rw [← List.singleton_append, toldBy_append]
  simp [toldBy, telling?]

/-- Nobody is told by a delivery of which nothing is heard (`toldBy`). -/
theorem toldBy_eq_nil {number : Nat} {hs : List Happening}
    (h : ∀ x ∈ hs, x.delivery? ≠ some number) : toldBy number hs = [] := by
  refine List.filterMap_eq_nil_iff.2 fun x hx => ?_
  have hx := h x (List.mem_reverse.1 hx)
  cases x with
  | told n store sub value =>
    have hne : n ≠ number := fun heq => hx (congrArg some heq)
    simp [telling?, hne]
  | _ => rfl

/-- A delivery that told somebody of a stretch did so at some time. -/
theorem exists_told_of_toldBy_ne_nil {number : Nat} {hs : List Happening}
    (h : toldBy number hs ≠ []) :
    ∃ later store sub value past, hs = later ++ .told number store sub value :: past := by
  by_contra hnone
  refine h (List.filterMap_eq_nil_iff.2 fun x hx => ?_)
  obtain ⟨later, past, rfl⟩ := List.append_of_mem (List.mem_reverse.1 hx)
  cases x with
  | told n store sub value =>
    have hne : n ≠ number := by
      rintro rfl
      exact hnone ⟨later, store, sub, value, past, rfl⟩
    simp [telling?, hne]
  | _ => rfl

/-- Whether it is the turn of a delivery when a stretch begins: nothing happens any more, or the first
that happens is that the delivery tells somebody. -/
def Turn (number : Nat) (later : List Happening) : Prop :=
  ∀ first ∈ later.getLast?, first.telling?.map Prod.fst = some number

theorem Turn.cases {number : Nat} {later : List Happening} (h : Turn number later) :
    later = [] ∨ ∃ before store sub value, later = before ++ [.told number store sub value] := by
  rcases List.eq_nil_or_concat later with rfl | ⟨before, first, rfl⟩
  · exact Or.inl rfl
  · have hfirst := h first (by simp)
    cases first with
    | told n store sub value =>
      obtain rfl : n = number := Option.some.inj hfirst
      exact Or.inr ⟨before, store, sub, value, List.concat_eq_append⟩
    | _ => exact absurd hfirst (by simp [telling?])

theorem exists_wrote_of_lastWritten? {store : StoreId} {key : String} {hs : List Happening}
    {v : Value} (h : lastWritten? store key hs = some v) :
    ∃ number, .wrote number store key v ∈ hs := by
  obtain ⟨x, hx, hv⟩ := List.exists_of_findSome?_eq_some h
  cases x with
  | wrote number id k value =>
    simp only [Option.ite_none_right_eq_some, Option.some.injEq] at hv
    obtain ⟨⟨rfl, rfl⟩, rfl⟩ := hv
    exact ⟨number, hx⟩
  | _ => exact absurd hv (by simp)

/-- A value that was overwritten and not written back is not `current`. -/
theorem current_eq_false {store : StoreId} {key : String} {value w : Value} {number : Nat}
    {later past : List Happening} (hw : w.same value = false)
    (hback : ∀ m v, .wrote m store key v ∈ later → v.same value = false) :
    current store key value (later ++ .wrote number store key w :: past) = false := by
  rw [current, lastWritten?_append, ← List.singleton_append, lastWritten?_append,
    lastWritten?_wrote, if_pos ⟨rfl, rfl⟩, Option.some_or]
  cases hlater : lastWritten? store key later with
  | none => rw [Option.none_or, Option.any_some, hw]
  | some v =>
    obtain ⟨m, hm⟩ := exists_wrote_of_lastWritten? hlater
    rw [Option.some_or, Option.any_some, hback m v hm]

end Happening

namespace Session

open Happening

/-! ## How far a delivery got -/

variable {s₀ s s' : Session} {store : StoreId} {key : String} {value : Value}
  {observers rest : List (Nat × Observer Client)} {st : Store Client} {new : List Happening}

/-- How far a delivery of the next number got since `s₀`: `rest` of the observers are still to be
told. -/
structure Progress (s₀ : Session) (store : StoreId) (key : String) (value : Value)
    (observers rest : List (Nat × Observer Client)) (new : List Happening) (s : Session) : Prop where
  proceeds : s₀.Proceeds new s
  begun : s₀.deliveries < s.deliveries
  written : (lastWritten? store key new).isSome
  /-- The delivery itself writes its value and nothing else. -/
  own : ∀ id k w, .wrote s₀.deliveries id k w ∈ new → id = store ∧ k = key ∧ w = value
  told : toldBy s₀.deliveries new ++ rest.map Prod.fst = observers.map Prod.fst
  /-- Everybody was told at a time at which the value was there. -/
  timely : ∀ id sub v past, .told s₀.deliveries id sub v :: past <:+ new →
    (id = store ∧ sub.key = key ∧ v = value) ∧ current store key value past = true

/-- Once a key was written, the value that was written last to it is the one that is there (`holdsValue`).
-/
theorem Proceeds.current_eq (h : s₀.Proceeds new s)
    (hst : s₀.world.stores[store]? = some st) (hwritten : (lastWritten? store key new).isSome) :
    current store key value new = s.holdsValue store key value := by
  obtain ⟨st', hst', -, hget⟩ := h.stores store st hst
  obtain ⟨v, hv⟩ := Option.isSome_iff_exists.1 hwritten
  rw [holdsValue, hst', Option.any_some, Store.holds, hget, current, hv, Option.some_or,
    Option.any_some]

theorem progress_write (s₀ : Session) (store : StoreId) (key : String) (value : Value)
    (observers : List (Nat × Observer Client)) (stores : List StoreId) :
    Progress s₀ store key value observers observers
      [.wrote s₀.deliveries store key value]
      { s₀.write store key value with busyStores := stores } where
  proceeds := (s₀.proceeds_write store key value).busy _ _
  begun := Nat.lt_succ_self _
  written := by
    rw [lastWritten?_wrote, if_pos ⟨rfl, rfl⟩]
    rfl
  own id k w hw := by
    obtain ⟨-, rfl, rfl, rfl⟩ := Happening.wrote.inj (List.mem_singleton.1 hw)
    exact ⟨rfl, rfl, rfl⟩
  told := rfl
  timely id sub v past hpast := by
    rcases List.suffix_cons_iff.1 hpast with hpast | hpast
    · exact absurd hpast (by simp)
    · exact absurd (List.suffix_nil.1 hpast) (by simp)

/-- One observer more is told.  Whatever it does is done in deliveries with other numbers. -/
theorem Progress.tell {id : Nat} {observer : Observer Client}
    (h : Progress s₀ store key value observers ((id, observer) :: rest) new s)
    (hst : s₀.world.stores[store]? = some st) (hholds : s.holdsValue store key value = true)
    (htell : (s.record (.told s₀.deliveries store ⟨id, key⟩ value)).Proceeding s') :
    ∃ new, Progress s₀ store key value observers rest new s' := by
  obtain ⟨more, hmore⟩ := htell
  have hother : ∀ x ∈ more, x.delivery? ≠ some s₀.deliveries := by
    intro x hx heq
    have hle : s.deliveries ≤ s₀.deliveries := hmore.numbered x hx _ heq
    exact absurd h.begun (Nat.not_lt.2 hle)
  refine ⟨more ++ .told s₀.deliveries store ⟨id, key⟩ value :: new,
    (h.proceeds.told (Nat.le_refl _) _ _ _).trans hmore,
    Nat.lt_of_lt_of_le h.begun hmore.deliveries, ?_, ?_, ?_, ?_⟩
  · rw [lastWritten?_append, ← List.singleton_append, lastWritten?_append, lastWritten?_told,
      Option.none_or, Option.isSome_or, h.written, Bool.or_true]
  · intro id k w hw
    rcases List.mem_append.1 hw with hw | hw
    · exact absurd rfl (hother _ hw)
    · exact h.own id k w (List.mem_of_ne_of_mem (by simp) hw)
  · rw [toldBy_append, toldBy_eq_nil hother, List.append_nil, toldBy_cons_self, ← h.told]
    simp
  · intro id' sub v past hpast
    -- the telling is none of the nested ones, so it is this one or an earlier one
    have hpast : .told s₀.deliveries id' sub v :: past <:+
        .told s₀.deliveries store ⟨id, key⟩ value :: new := by
      clear hmore
      induction more with
      | nil => exact hpast
      | cons x xs ih =>
        rcases List.suffix_cons_iff.1 hpast with heq | hpast
        · have hx := hother x List.mem_cons_self
          rw [← (List.cons.inj heq).1] at hx
          exact absurd rfl hx
        · exact ih (fun y hy => hother y (List.mem_cons_of_mem x hy)) hpast
    rcases List.suffix_cons_iff.1 hpast with heq | hpast
    · obtain ⟨hhead, rfl⟩ := List.cons.inj heq
      obtain ⟨-, rfl, rfl, rfl⟩ := Happening.told.inj hhead
      exact ⟨⟨rfl, rfl, rfl⟩, (h.proceeds.current_eq hst h.written).trans hholds⟩
    · exact h.timely id' sub v past hpast

/-- A `set` that writes gets to its end or is overtaken. -/
theorem set_progress {depth : Nat} (hst : s.world.stores[store]? = some st)
    (hnew : st.holds key value = false) (h : s.set (invoke depth) store key value = some s') :
    ∃ rest new, Progress s store key value (st.observersOf key) rest new s' ∧
      (rest = [] ∨ current store key value new = false) := by
  rcases set_cases h with ⟨-, hheld⟩ | ⟨st', after, hst', -, hafter, rfl⟩
  · exact absurd (hheld st hst) (by simp [hnew])
  · obtain rfl : st' = st := Option.some.inj (hst'.symm.trans hst)
    have hcall := compositional_proceeds.invoke depth
    obtain ⟨rest, ⟨new, hprogress⟩, hend⟩ := deliver_exit
      (I := fun rest s₁ => ∃ new, Progress s store key value (st'.observersOf key) rest new s₁)
      (fun ⟨_, hI⟩ hholds htell =>
        hI.tell hst hholds (hcall.tell (fun hq => hq.proceeding) htell))
      ⟨_, progress_write s store key value _ _⟩ hafter
    refine ⟨rest, new, ⟨hprogress.proceeds.busy _ _, hprogress.begun, hprogress.written,
      hprogress.own, hprogress.told, hprogress.timely⟩, hend.imp id fun hgone => ?_⟩
    rw [hprogress.proceeds.current_eq hst hprogress.written, hgone]

/-- **When a delivery goes on.**  A `set` writes a value that was not there.  Those whom its delivery
tells of the value are the first ones of the observers that the key had, in their order.  Whenever it
is the turn of the delivery, before it tells anybody and each time an observer is done, it goes on to
the next observer exactly if its value is the one written last.  So after a nested write of another
value it tells nobody any more, unless its value is written back. -/
theorem delivery_goes_on_iff_current {depth : Nat} (hst : s.world.stores[store]? = some st)
    (hnew : st.holds key value = false) (h : s.set (invoke depth) store key value = some s') :
    ∃ new, s'.history = new ++ s.history ∧
      toldBy s.deliveries new <+: (st.observersOf key).map Prod.fst ∧
      (∀ id sub v, .told s.deliveries id sub v ∈ new → id = store ∧ sub.key = key ∧ v = value) ∧
      (∀ later past, new = later ++ past → Turn s.deliveries later →
        toldBy s.deliveries past ≠ (st.observersOf key).map Prod.fst →
        (toldBy s.deliveries later ≠ [] ↔ current store key value past = true)) ∧
      (∀ later number w past, new = later ++ .wrote number store key w :: past →
        w.same value = false → (∀ m v, .wrote m store key v ∈ later → v.same value = false) →
        toldBy s.deliveries later = []) := by
  obtain ⟨rest, new, hp, hend⟩ := set_progress hst hnew h
  refine ⟨new, hp.proceeds.history, ⟨rest.map Prod.fst, hp.told⟩, ?_, ?_, ?_⟩
  · intro id sub v hmem
    obtain ⟨later, past, rfl⟩ := List.append_of_mem hmem
    exact (hp.timely id sub v past (List.suffix_append later _)).1
  · rintro later past rfl hturn hopen
    rcases hturn.cases with rfl | ⟨before, id, sub, v, rfl⟩
    · -- nobody is told any more, though there are observers left
      rcases hend with rfl | hgone
      · exact absurd (by simpa using hp.told) hopen
      · have hnobody : toldBy s.deliveries [] = [] := rfl
        rw [List.nil_append] at hgone
        simp [hnobody, hgone]
    · have htold : toldBy s.deliveries (before ++ [.told s.deliveries id sub v]) ≠ [] := by
        rw [toldBy_append, toldBy_cons_self]
        simp
      have hsuffix : .told s.deliveries id sub v :: past <:+
          before ++ [.told s.deliveries id sub v] ++ past := ⟨before, by simp⟩
      simp [htold, (hp.timely id sub v past hsuffix).2]
  · rintro later number w past rfl hw hback
    by_contra hne
    obtain ⟨mid, id, sub, v, past', rfl⟩ := exists_told_of_toldBy_ne_nil hne
    have hsuffix : .told s.deliveries id sub v :: (past' ++ .wrote number store key w :: past) <:+
        mid ++ .told s.deliveries id sub v :: past' ++ .wrote number store key w :: past :=
      ⟨mid, by simp⟩
    have hcurrent := (hp.timely id sub v _ hsuffix).2
    rw [current_eq_false hw fun m v hv => hback m v (by simp [hv])] at hcurrent
    exact absurd hcurrent (by simp)

/-- The client that ends its subscription, writes two, and writes one back. -/
def wavering : Client := fun _ =>
  .ask (.ending (.unsubscribe "first")) fun _ =>
    .ask (.set "n" (.int 2)) fun _ => .command (.set "n" (.int 1))

/-- A session in which a reader observes a key after a client that writes the key to and fro (`wavering`).
-/
def writtenBack : Session :=
  ((start (.ofMembers [("n", .int 0)]) []).run
    (.ask (.subscribe "first" "n" wavering) fun _ =>
      .command (.subscribe "second" "n" fun _ => .done .nothing))).2

/-- A delivery that was overtaken goes on once its value is written back: after two nested deliveries
the reader hears of the one from the outer delivery as well. -/
theorem resumed_delivery_tells_twice :
    ∃ st s' new, writtenBack.world.stores[0]? = some st ∧ st.holds "n" (.int 1) = false ∧
      writtenBack.set (invoke 3) 0 "n" (.int 1) = some s' ∧ s'.history = new ++ writtenBack.history ∧
      new.filterMap Happening.telling? = [(0, 1), (2, 1), (1, 1), (0, 0)] ∧
      toldBy 0 new <+: (st.observersOf "n").map Prod.fst ∧
      ∀ later past, new = later ++ past → Turn 0 later →
        toldBy 0 past ≠ (st.observersOf "n").map Prod.fst →
        (toldBy 0 later ≠ [] ↔ current 0 "n" (.int 1) past = true) := by
  obtain ⟨st, hst⟩ := Option.isSome_iff_exists.1
    (show (writtenBack.world.stores[0]?).isSome = true by decide)
  obtain ⟨s', hs'⟩ := Option.isSome_iff_exists.1
    (show (writtenBack.set (invoke 3) 0 "n" (.int 1)).isSome = true by decide)
  have hnew : st.holds "n" (.int 1) = false := by
    rw [← Option.some.inj hst]
    rfl
  obtain ⟨new, hnewHistory, hprefix, -, hgoes, -⟩ := delivery_goes_on_iff_current hst hnew hs'
  have htold : s'.history.filterMap Happening.telling? = [(0, 1), (2, 1), (1, 1), (0, 0)] := by
    rw [← Option.some.inj hs']
    rfl
  have hempty : writtenBack.history = [] := rfl
  rw [hnewHistory, hempty, List.append_nil] at htold
  exact ⟨st, s', new, hst, hnew, hs', hnewHistory, htold, hprefix, hgoes⟩

end Session

end ViewBinding
