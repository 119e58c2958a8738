import ViewBinding.Proofs.Delivery.Spreading
import ViewBinding.Proofs.Session.Depth
import Mathlib.Data.Finset.Card

/-!
# Mirrored keys settle

Mirror observers make each other run along the edges of a graph of keys, which may have cycles.  What
ends that is that a write of the value that is there is silent: every nested `set` that writes leaves
one target fewer without the value (`unsettled`), so the nesting is no deeper than there are targets.

* `Mirroring` — what the observers of a store have to be like, as an invariant of sessions.
* `Mirroring.exists_set` — a `set` comes to an end, and leaves nobody due, if the nested ones do.
* `Mirroring.completes` — so every `set` does, by induction on the targets without the value.
-/

namespace ViewBinding

open Json (Value)

namespace Session

open Happening

/-! ## Sessions with mirror observers -/

/-- Whether an observer, told of whatever value in whatever session of a kind (`J`), comes to an end
without having written anything, and leaves a session of this kind. -/
def Silent (J : Session → Prop) (o : Observer Client) : Prop :=
  ∀ value s, J s → ∃ s', Ends (fun depth => tell (invoke depth) o value s) s' ∧ J s' ∧ s.Quiet s'

/-- An invariant of sessions in which all observers of the current store are mirror observers onto some
targets (`Mirrors`), or silent. It does not speak of the values. -/
structure Mirroring (store : StoreId) (targets : Finset String) (J : Session → Prop) : Prop where
  current : ∀ {s}, J s → s.store = store
  live : ∀ {s}, J s → ∃ st, s.world.stores[store]? = some st
  sound : ∀ {s}, J s → s.Sound
  observers : ∀ {s st}, J s → s.world.stores[store]? = some st → ∀ key, ∀ entry ∈ st.observersOf key,
    (∃ target, entry.2.Mirrors target) ∨ Silent J entry.2
  targeted : ∀ {s st}, J s → s.world.stores[store]? = some st → ∀ key, ∀ entry ∈ st.observersOf key,
    ∀ target, entry.2.Mirrors target → target ∈ targets
  write : ∀ {s : Session} key value, J s → J (s.write store key value)
  record : ∀ {s : Session} h, J s → J (s.record h)
  busy : ∀ {s : Session} nodes stores, J s → J { s with busyNodes := nodes, busyStores := stores }
  sweep : ∀ {s : Session}, J s → J s.sweep

/-- How many targets do not hold a value. -/
def unsettled (store : StoreId) (targets : Finset String) (value : Value) (s : Session) : Nat :=
  (targets.filter fun key => s.holdsValue store key value = false).card

/-- Whether the `set` of a value comes to an end, and leaves nobody due. -/
def Completes (store : StoreId) (value : Value) (J : Session → Prop) (key : String) (s : Session) :
    Prop :=
  ∃ s' new, Ends (fun depth => s.set (invoke depth) store key value) s' ∧
    Spread.Done store value s new s' ∧ J s' ∧ s'.holdsValue store key value = true

variable {store : StoreId} {targets : Finset String} {J : Session → Prop} {value : Value}
  {key target : String} {s s₁ s' : Session} {new : List Happening} {st : Store Client} {m : Nat}

/-- A target that is without the value at last was without it before. -/
theorem Spread.unsettled_subset {due : String → Nat × Observer Client → Prop}
    (h : Spread store value due s new s') (targets : Finset String) :
    (targets.filter fun key => s'.holdsValue store key value = false) ⊆
      targets.filter fun key => s.holdsValue store key value = false := by
  refine Finset.monotone_filter_right targets fun key _ hnot => ?_
  by_contra hholds
  exact absurd (hnot.symm.trans (h.mono (Bool.not_eq_false _ ▸ hholds))) (by simp)

theorem Spread.unsettled_le {due : String → Nat × Observer Client → Prop}
    (h : Spread store value due s new s') (targets : Finset String) :
    unsettled store targets value s' ≤ unsettled store targets value s :=
  Finset.card_le_card (h.unsettled_subset targets)

/-- A target that came to hold the value makes a difference. -/
theorem Spread.unsettled_lt {due : String → Nat × Observer Client → Prop}
    (h : Spread store value due s new s') (htarget : target ∈ targets)
    (hbefore : s.holdsValue store target value = false)
    (hafter : s'.holdsValue store target value = true) :
    unsettled store targets value s' < unsettled store targets value s := by
  refine Finset.card_lt_card ((Finset.ssubset_iff_of_subset (h.unsettled_subset targets)).2
    ⟨target, Finset.mem_filter.2 ⟨htarget, hbefore⟩, fun hmem => ?_⟩)
  exact absurd ((Finset.mem_filter.1 hmem).2.symm.trans hafter) (by simp)

/-! ## What a mirror observer does -/

/-- An action comes to an end, however deep clients may make each other run, if the commands that it
asks do. -/
theorem exists_act_of_asks {p : Command Client → Bool} {scope : Option StoreId}
    (hsweep : ∀ {s : Session}, J s → J s.sweep)
    (hperform : ∀ c s, p c = true → J s → ∃ reply s', (∀ call,
      s.perform call scope c = some (reply, s')) ∧ J s' ∧ s.Quiet s') : ∀ (a : Action)
    {s : Session}, a.Asks p → J s → ∃ reply s', (∀ call,
      act call scope a s = some (reply, s')) ∧ J s' ∧ s.Quiet s'
  | .done reply, s, _, hs => ⟨reply, s, fun _ => rfl, hs, Quiet.refl s⟩
  | .ask c next, s, hasks, hs => by
    obtain ⟨reply, s₁, hfirst, hs₁, hquiet₁⟩ := hperform c s hasks.1 hs
    obtain ⟨last, s', hact, hs', hquiet'⟩ :=
      exists_act_of_asks hsweep hperform (next reply) (hasks.2 reply) (hsweep hs₁)
    refine ⟨last, s', fun call => ?_, hs', (hquiet₁.trans (quiet_sweep s₁)).trans hquiet'⟩
    rw [act, hfirst]
    exact hact call

namespace Mirroring

theorem quiet (hJ : Mirroring store targets J) (hs : J s) (h : s.Quiet s') :
    ∃ new, Spread.Done store value s new s' :=
  h.spread (hJ.live hs)

/-- An idle command comes to an end, however deep clients may make each other run. -/
theorem exists_perform_of_idle (hJ : Mirroring store targets J) {scope : Option StoreId}
    (c : Command Client) (s : Session) (hc : c.isIdle = true) (hs : J s) : ∃ reply s', (∀ call,
      s.perform call scope c = some (reply, s')) ∧ J s' ∧ s.Quiet s' := by
  cases c with
  | query q => exact ⟨_, s, fun _ => rfl, hs, Quiet.refl s⟩
  | note text => exact ⟨_, _, fun _ => rfl, hJ.record _ hs, s.quiet_record rfl⟩
  | enter name seen => exact ⟨_, _, fun _ => rfl, hJ.record _ hs, s.quiet_record rfl⟩
  | _ => exact absurd hc (by simp [Command.isIdle])

/-- An action that sets a target comes to an end if the `set` does. -/
theorem exists_act_of_mirrors (hJ : Mirroring store targets J)
    (hset : ∀ s, J s → unsettled store targets value s < m → Completes store value J target s) :
    ∀ (a : Action) {s : Session}, a.Mirrors target value → J s →
      unsettled store targets value s < m → ∃ reply s' new,
        Ends (fun depth => act (invoke depth) none a s) (reply, s') ∧
          Spread.Done store value s new s' ∧ J s' ∧ s'.holdsValue store target value = true
  | .done _, s, h, _, _ => h.elim
  | .ask c next, s, h, hs, hlt => by
    rcases h with ⟨rfl, hidle⟩ | ⟨hc, hnext⟩
    · obtain ⟨s₁, new₁, hends, hspread, hs₁, hholds⟩ := hset s hs hlt
      obtain ⟨last, s', hact, hs', hquiet⟩ := exists_act_of_asks (J := J) hJ.sweep
        (hJ.exists_perform_of_idle) (next .nothing) (hidle .nothing) (hJ.sweep hs₁)
      obtain ⟨new₂, hrest⟩ := hJ.quiet hs₁ ((quiet_sweep s₁).trans hquiet)
      refine ⟨last, s', new₂ ++ new₁, hends.of_eq fun depth hdepth => ?_, hspread.trans hrest, hs',
        hrest.mono hholds⟩
      have hperform : s.perform (Session.invoke depth) none (.set target value) =
          some (.nothing, s₁) := by
        show (s.set (Session.invoke depth) s.store target value).map _ = _
        rw [hJ.current hs, hdepth]
        rfl
      rw [act, hperform]
      exact hact _
    · obtain ⟨reply, s₁, hperform, hs₁, hquiet⟩ :=
        hJ.exists_perform_of_idle c s hc hs
      obtain ⟨new₁, hfirst⟩ := hJ.quiet hs (hquiet.trans (quiet_sweep s₁))
      obtain ⟨last, s', new₂, hends, hspread, hs', hholds⟩ := hJ.exists_act_of_mirrors hset
        (next reply) (hnext reply) (hJ.sweep hs₁) (Nat.lt_of_le_of_lt (hfirst.unsettled_le _) hlt)
      refine ⟨last, s', new₂ ++ new₁, hends.of_eq fun depth hdepth => ?_, hfirst.trans hspread, hs',
        hholds⟩
      rw [act, hperform]
      exact hdepth

/-! ## What a delivery comes to -/

/-- **Telling an observer** comes to an end, and the observer is done with the value, if the `set` of
every target comes to an end. -/
theorem exists_tell (hJ : Mirroring store targets J)
    (hset : ∀ target ∈ targets, ∀ s, J s → unsettled store targets value s < m →
      Completes store value J target s)
    {o : Observer Client} (ho : (∃ target, o.Mirrors target) ∨ Silent J o)
    (htargeted : ∀ target, o.Mirrors target → target ∈ targets) (hs : J s)
    (hlt : unsettled store targets value s < m) :
    ∃ s' new, Ends (fun depth => tell (invoke depth) o value s) s' ∧
      Spread.Done store value s new s' ∧ J s' ∧ Passed store value s' o := by
  by_cases hm : ∃ target, o.Mirrors target
  · obtain ⟨target, hmirrors⟩ := hm
    have hcode : ∀ code : Client, code.Mirrors target → ∃ s' new,
        Ends (fun depth => Session.invoke depth none code value s) s' ∧
          Spread.Done store value s new s' ∧ J s' ∧ s'.holdsValue store target value = true := by
      intro code hcode
      obtain ⟨reply, s', new, hends, hspread, hs', hholds⟩ := hJ.exists_act_of_mirrors
        (hset target (htargeted target hmirrors)) (code value) (hcode value) hs hlt
      exact ⟨s', new, hends.invoke, hspread, hs', hholds⟩
    have htold : ∃ s' new, Ends (fun depth => tell (Session.invoke depth) o value s) s' ∧
        Spread.Done store value s new s' ∧ J s' ∧ s'.holdsValue store target value = true := by
      cases o with
      | client code => exact hcode code hmirrors
      | retained code => exact hcode code hmirrors
      | _ => exact hmirrors.elim
    obtain ⟨s', new, hends, hspread, hs', hholds⟩ := htold
    exact ⟨s', new, hends, hspread, hs', fun other hother => hother.target_eq hmirrors ▸ hholds⟩
  · obtain ⟨s', hends, hs', hquiet⟩ := ho.resolve_left hm value s hs
    obtain ⟨new, hspread⟩ := hJ.quiet hs hquiet
    exact ⟨s', new, hends, hspread, hs', fun target hmirrors => absurd ⟨target, hmirrors⟩ hm⟩

/-- **A delivery** comes to an end, and tells everybody (`Session.deliver`). -/
theorem exists_deliver (hJ : Mirroring store targets J)
    (hset : ∀ target ∈ targets, ∀ s, J s → unsettled store targets value s < m →
      Completes store value J target s) :
    ∀ (rest : List (Nat × Observer Client)) {s₁ : Session} {new : List Happening},
      (∀ entry ∈ rest, ((∃ target, entry.2.Mirrors target) ∨ Silent J entry.2) ∧
        ∀ target, entry.2.Mirrors target → target ∈ targets) →
      Spreading store value key rest s new s₁ → J s₁ → unsettled store targets value s₁ < m →
      ∃ s' new', Ends (fun depth =>
          deliver (invoke depth) s.deliveries store key value rest s₁) s' ∧
        Spreading store value key [] s new' s' ∧ J s'
  | [], s₁, new, _, h, hs₁, _ => ⟨s₁, new, .of_forall fun _ => rfl, h, hs₁⟩
  | (id, o) :: rest, s₁, new, hall, h, hs₁, hlt => by
    obtain ⟨hfirst, hrest⟩ := List.forall_mem_cons.1 hall
    obtain ⟨s₂, new₂, htell, hspread, hs₂, hpassed⟩ :=
      hJ.exists_tell (o := o) hset hfirst.1 hfirst.2
        (hJ.record (.told s.deliveries store ⟨id, key⟩ value) hs₁) hlt
    obtain ⟨s', new', hdeliver, hdone, hs'⟩ := hJ.exists_deliver hset rest hrest
      (h.tell (Nat.le_refl _) hspread hpassed) hs₂
      (Nat.lt_of_le_of_lt (hspread.unsettled_le targets) hlt)
    refine ⟨s', new', htell.andThen hdeliver fun depth hdepth => ?_, hdone, hs'⟩
    have hholds : s₁.world.stores[store]?.any (·.holds key value) = true :=
      h.spread.holds_of_written h.begun
    rw [deliver, if_pos hholds, hdepth]

/-- **A `set`** comes to an end, and leaves nobody due, if after the write every `set` of a target
does. -/
theorem exists_set (hJ : Mirroring store targets J)
    (hset : ∀ target ∈ targets, ∀ s, J s → unsettled store targets value s < m →
      Completes store value J target s) (hs : J s)
    (hlt : s.holdsValue store key value = false →
      unsettled store targets value (s.write store key value) < m) :
    Completes store value J key s := by
  obtain ⟨st, hst⟩ := hJ.live hs
  cases hholds : st.holds key value with
  | true =>
    obtain ⟨new, hspread⟩ := hJ.quiet hs (Quiet.refl s)
    refine ⟨s, new, .of_forall fun depth => ?_, hspread, hs, (holdsValue_eq hst key value).trans hholds⟩
    rw [Session.set, hst]
    exact if_pos hholds
  | false =>
    have hwritten := spreading_write hst ((hJ.sound hs).store hst) hholds (store :: s.busyStores)
    obtain ⟨after, new, hdeliver, hspreading, hafter⟩ := hJ.exists_deliver hset (st.observersOf key)
      (fun entry hentry => ⟨hJ.observers hs hst key entry hentry,
        hJ.targeted hs hst key entry hentry⟩)
      hwritten (hJ.busy s.busyNodes (store :: s.busyStores) (hJ.write key value hs))
      (hlt ((holdsValue_eq hst key value).trans hholds))
    refine ⟨_, new, hdeliver.of_eq fun depth hdepth => ?_,
      hspreading.done.busy s.busyNodes s.busyStores, hJ.busy _ _ hafter,
      hspreading.spread.holds_of_written hspreading.begun⟩
    rw [Session.set, hst]
    simp only [hholds, Bool.false_eq_true, if_false]
    show (deliver (Session.invoke depth) s.deliveries store key value (st.observersOf key)
      { s.write store key value with busyStores := store :: s.busyStores }).map _ = _
    rw [hdepth]
    rfl

/-- A write that is not silent leaves one target fewer without the value. -/
theorem unsettled_write_lt (hJ : Mirroring store targets J) (htarget : target ∈ targets) (hs : J s)
    (hnew : s.holdsValue store target value = false) :
    unsettled store targets value (s.write store target value) <
      unsettled store targets value s := by
  obtain ⟨st, hst⟩ := hJ.live hs
  have hspreading := spreading_write hst ((hJ.sound hs).store hst)
    ((holdsValue_eq hst target value).symm.trans hnew) (s.write store target value).busyStores
  exact hspreading.spread.unsettled_lt htarget hnew
    (hspreading.spread.holds_of_written hspreading.begun)

/-- The `set` of a target comes to an end, by induction on how many targets are without the value. -/
theorem completes_target (hJ : Mirroring store targets J) (m : Nat) : ∀ target ∈ targets, ∀ s, J s →
    unsettled store targets value s < m → Completes store value J target s := by
  induction m with
  | zero => exact fun _ _ _ _ hlt => absurd hlt (Nat.not_lt_zero _)
  | succ m ih =>
    intro target htarget s hs hlt
    refine hJ.exists_set ih hs fun hnew => ?_
    exact Nat.lt_of_lt_of_le (hJ.unsettled_write_lt htarget hs hnew) (Nat.le_of_lt_succ hlt)

/-- **Every `set` comes to an end**, and leaves nobody due. -/
theorem completes (hJ : Mirroring store targets J) (key : String) (value : Value) (hs : J s) :
    Completes store value J key s :=
  hJ.exists_set (hJ.completes_target _) hs fun _ => Nat.lt_succ_self _

end Mirroring

end Session

end ViewBinding
