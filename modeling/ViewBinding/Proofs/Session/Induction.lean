import ViewBinding.Proofs.Session.Steps

/-!
# Induction over runs

Clients make each other run without a bound on the nesting, so a property of runs is proved by one
induction only, made here.  A relation between sessions is `Runwise` if every step that leaves the
history alone keeps it and every note that belongs to no delivery does, if it composes, and if a `set`
and the firing of an event keep it provided that the clients which they make run do.  Such a relation
holds across every action (`Runwise.act`), however deep clients make each other run
(`Runwise.invoke`).

A relation that every step keeps is `Stepwise`, and as such runwise (`Stepwise.runwise`).  One that all
quiet commands keep is `Compositional`, and as such stepwise.
-/

namespace ViewBinding

open Json (Value)

/-- Whether a relation holds across everything that a caller runs: what there is to know of the code of
clients. -/
def Caller.Respects (call : Caller) (P : Session → Session → Prop) : Prop :=
  ∀ scope code seen s s', call scope code seen s = some s' → P s s'

/-- What a caller respects, and a node that shows a new value keeps, holds across telling an
observer. -/
theorem Caller.Respects.tell_of_refresh {call : Caller} {P : Session → Session → Prop}
    (hcall : call.Respects P)
    (hrefresh : ∀ (s : Session) o value, P s { s with world := s.world.refresh o value }.sweep)
    {observer : Observer Client} {value : Value} {s s' : Session}
    (h : Session.tell call observer value s = some s') : P s s' := by
  cases observer with
  | client code => exact hcall none code value s s' h
  | retained code => exact hcall none code value s s' h
  | content n => exact Option.some.inj h ▸ hrefresh s (.content n) value
  | field n => exact Option.some.inj h ▸ hrefresh s (.field n) value
  | marker n template m => exact Option.some.inj h ▸ hrefresh s (.marker n template m) value

/-- What a caller respects, and quiet commands keep, holds across telling an observer. -/
theorem Caller.Respects.tell {call : Caller} {P : Session → Session → Prop}
    (hcall : call.Respects P) (hquiet : ∀ {s s' : Session}, s.Quiet s' → P s s')
    {observer : Observer Client} {value : Value} {s s' : Session}
    (h : Session.tell call observer value s = some s') : P s s' :=
  hcall.tell_of_refresh
    (fun s o v => hquiet ((s.quiet_refresh o v).trans (Session.quiet_sweep _))) h

/-- The delivery, of a value or of an event, to which a happening belongs. -/
def Happening.number? : Happening → Option Nat
  | .noted _ => none
  | .called .. => none
  | .wrote number _ _ _ => some number
  | .told number _ _ _ => some number
  | .fired number _ _ => some number
  | .heard number _ _ => some number

theorem Happening.delivery?_of_number? {h : Happening} (hnumber : h.number? = none) :
    h.delivery? = none := by
  cases h with
  | noted text => rfl
  | called name seen => rfl
  | _ => exact absurd hnumber (by simp [number?])

namespace Session

/-- What has to be shown of a relation between sessions for it to hold across whatever a value sets going
(`Session.set`). -/
structure Enduring (P : Session → Session → Prop) : Prop where
  busy : ∀ (s : Session) nodes stores, P s { s with busyNodes := nodes, busyStores := stores }
  trans : ∀ {s s₁ s₂}, P s s₁ → P s₁ s₂ → P s s₂
  set : ∀ {call : Caller}, call.Respects P → ∀ {store key value s s'},
    Session.set call store key value s = some s' → P s s'

/-- What has to be shown of a relation between sessions for it to hold across every run (`Session.act`). -/
structure Runwise (P : Session → Session → Prop) : Prop extends Enduring P where
  step : ∀ {s s'}, Step s s' → s'.course = s.course → P s s'
  note : ∀ (s : Session) h, h.number? = none → P s (s.record h)
  fire : ∀ {call : Caller}, call.Respects P → ∀ {node event s s' reply},
    Session.fire call node event s = some (reply, s') → P s s'

/-- What has to be shown of a relation that every `Step` keeps. -/
structure Stepwise (P : Session → Session → Prop) : Prop extends Enduring P where
  step : ∀ {s s'}, Step s s' → P s s'

/-- What has to be shown of a relation that all quiet commands keep (`Quiet`). -/
structure Compositional (P : Session → Session → Prop) : Prop where
  quiet : ∀ {s s'}, s.Quiet s' → P s s'
  trans : ∀ {s s₁ s₂}, P s s₁ → P s₁ s₂ → P s s₂
  set : ∀ {call : Caller}, call.Respects P → ∀ {store key value s s'},
    Session.set call store key value s = some s' → P s s'

/-- What a session in which some nodes and stores are held comes to, apart from that. -/
theorem holding_eq_some {nodes : List NodeId} {stores : List StoreId} {s s' : Session}
    {f : Session → Option Session} (h : s.holding nodes stores f = some s') :
    ∃ after, f { s with busyNodes := nodes ++ s.busyNodes, busyStores := stores ++ s.busyStores } =
      some after ∧ s' = { after with busyNodes := s.busyNodes, busyStores := s.busyStores } := by
  obtain ⟨after, hafter, hs'⟩ := Option.map_eq_some_iff.1 h
  exact ⟨after, hafter, hs'.symm⟩

theorem quiet_busy (s : Session) (nodes : List NodeId) (stores : List StoreId) :
    s.Quiet { s with busyNodes := nodes, busyStores := stores } :=
  Quiet.of_world rfl rfl (World.Advances.refl _)

namespace Enduring

variable {P : Session → Session → Prop}

theorem refl (hP : Enduring P) (s : Session) : P s s :=
  hP.busy s s.busyNodes s.busyStores

theorem holding (hP : Enduring P) {nodes : List NodeId} {stores : List StoreId}
    {s s' : Session} {f : Session → Option Session} (hf : ∀ {a b}, f a = some b → P a b)
    (h : s.holding nodes stores f = some s') : P s s' := by
  obtain ⟨after, hafter, rfl⟩ := holding_eq_some h
  exact hP.trans (hP.busy s _ _) (hP.trans (hf hafter) (hP.busy after _ _))

theorem hear (hP : Enduring P) {call : Caller} (hcall : call.Respects P) {event : String}
    {listener : Listener Client} {s s' : Session}
    (h : Session.hear call event listener s = some s') : P s s' := by
  cases listener with
  | input node store key =>
    simp only [Session.hear] at h
    split at h
    · exact Option.some.inj h ▸ hP.refl s
    · exact hP.set hcall h
  | method store code => exact hcall _ code _ s s' h
  | client code => exact hcall none code _ s s' h

end Enduring

namespace Runwise

variable {P : Session → Session → Prop}

/-- The relation holds across every command if it holds across what clients do. -/
theorem perform (hP : Runwise P) {call : Caller} (hcall : call.Respects P)
    {scope : Option StoreId} {command : Command Client} {s s' : Session} {reply : Reply}
    (h : s.perform call scope command = some (reply, s')) : P s s' := by
  have hstep : ∀ {r : Reply × Session}, Step s r.2 → r.2.course = s.course →
      some r = some (reply, s') → P s s' := by
    intro r hr hcourse heq
    rw [Option.some.inj heq] at hr hcourse
    exact hP.step hr hcourse
  have hsame : ∀ {r : Reply}, some (r, s) = some (reply, s') → P s s' := by
    intro r heq
    rw [← (Prod.mk.inj (Option.some.inj heq)).2]
    exact hP.refl s
  have hnote : ∀ {r : Reply} {x : Happening}, x.number? = none →
      some (r, s.record x) = some (reply, s') → P s s' := by
    intro r x hx heq
    rw [← (Prod.mk.inj (Option.some.inj heq)).2]
    exact hP.note s x hx
  cases command with
  | set key value =>
    obtain ⟨after, hafter, heq⟩ := Option.map_eq_some_iff.1 h
    exact (Prod.mk.inj heq).2 ▸ hP.set hcall hafter
  | fire node event => exact hP.fire hcall h
  | call name event =>
    simp only [Session.perform] at h
    split at h
    · exact hsame h
    · obtain ⟨after, hafter, heq⟩ := Option.map_eq_some_iff.1 h
      exact (Prod.mk.inj heq).2 ▸ hP.holding (hcall _ _ _ _ _) hafter
  | subscribe name key code =>
    exact hstep (.subscribe s scope name key code) (s.course_subscribe scope name key code) h
  | listen node event name code =>
    exact hstep (.listen s node event name code) (s.course_listen node event name code) h
  | retain node key code =>
    exact hstep (.retain s scope node key code) (s.course_retain scope node key code) h
  | query q => exact hsame h
  | handle x => exact hstep (.handle s x) (s.course_handle x) h
  | edit e => exact hstep (.edit s e) (s.course_edit e) h
  | ending e => exact hstep (.finish s scope e) (s.course_finish scope e) h
  | bind b => exact hstep (.bind s b) (s.course_bind b) h
  | newStore value => exact hstep (.newStore s value) rfl h
  | note text => exact hnote rfl h
  | enter name seen => exact hnote rfl h

theorem act (hP : Runwise P) {call : Caller} (hcall : call.Respects P)
    {scope : Option StoreId} : ∀ (a : Action) {s s' : Session} {reply : Reply},
      Session.act call scope a s = some (reply, s') → P s s'
  | .done r, s, s', reply, h => by
    simp only [Session.act, Option.some.injEq, Prod.mk.injEq] at h
    exact h.2 ▸ hP.refl s
  | .ask command next, s, s', reply, h => by
    rw [Session.act] at h
    split at h
    · exact absurd h (by simp)
    · next r s₁ hs₁ =>
      -- the recursion is on what the action does in view of the reply
      have hnext := hP.act hcall (next r) h
      exact hP.trans (hP.perform hcall hs₁) (hP.trans (hP.step (.sweep s₁) rfl) hnext)

/-- **Induction over runs.** A `Runwise` relation holds across the code of a client, however deep clients
make each other run. -/
theorem invoke (hP : Runwise P) (depth : Nat) : (Session.invoke depth).Respects P := by
  induction depth with
  | zero => intro _ _ _ _ _ h; exact absurd h (by simp [Session.invoke])
  | succ depth ih =>
    intro scope code seen s s' h
    obtain ⟨result, hresult, heq⟩ := Option.map_eq_some_iff.1 h
    exact hP.act ih (code seen) (by rw [hresult, ← heq])

end Runwise

namespace Stepwise

variable {P : Session → Session → Prop}

theorem hearAll (hP : Stepwise P) {call : Caller} (hcall : call.Respects P) {number : Nat}
    {node : NodeId} {event : String} {listeners : List (Registered Client)} {s s' : Session}
    (h : Session.hearAll call number node event listeners s = some s') : P s s' := by
  induction listeners generalizing s with
  | nil => exact Option.some.inj h ▸ hP.refl s
  | cons r rest ih =>
    rw [Session.hearAll] at h
    split at h
    · exact absurd h (by simp)
    · next s₁ hs₁ =>
      have hrecord : P s (s.record (.heard number node r.id)) := hP.step (.record s _ rfl)
      exact hP.trans (hP.trans hrecord (hP.hear hcall hs₁)) (ih h)

theorem fire (hP : Stepwise P) {call : Caller} (hcall : call.Respects P)
    {node event : String} {s s' : Session} {reply : Reply}
    (h : s.fire call node event = some (reply, s')) : P s s' := by
  unfold Session.fire at h
  split at h
  · simp only [Option.some.injEq, Prod.mk.injEq] at h
    exact h.2 ▸ hP.refl s
  · next t _ =>
    obtain ⟨after, hafter, heq⟩ := Option.map_eq_some_iff.1 h
    have hbegin : P s (s.begin fun number => .fired number t.id event) :=
      hP.step (.begin s _ rfl)
    rw [← (Prod.mk.inj heq).2]
    exact hP.trans hbegin (hP.holding (hP.hearAll hcall) hafter)

/-- A relation that every step keeps is kept by what consists of steps. -/
theorem runwise (hP : Stepwise P) : Runwise P where
  toEnduring := hP.toEnduring
  step h _ := hP.step h
  note s h hnumber := hP.step (.record s h (Happening.delivery?_of_number? hnumber))
  fire hcall _ _ _ _ _ h := hP.fire hcall h

/-- A stepwise relation holds across every action. -/
theorem act (hP : Stepwise P) {call : Caller} (hcall : call.Respects P)
    {scope : Option StoreId} (a : Action) {s s' : Session} {reply : Reply}
    (h : Session.act call scope a s = some (reply, s')) : P s s' :=
  hP.runwise.act hcall a h

/-- A stepwise relation holds across the code of a client, however deep clients make each other run. -/
theorem invoke (hP : Stepwise P) (depth : Nat) : (Session.invoke depth).Respects P :=
  hP.runwise.invoke depth

end Stepwise

namespace Compositional

variable {P : Session → Session → Prop}

theorem stepwise (hP : Compositional P) : Stepwise P where
  busy s _ _ := hP.quiet (s.quiet_busy _ _)
  trans := hP.trans
  set := hP.set
  step h := hP.quiet h.quiet

/-- A compositional relation holds across every action. -/
theorem act (hP : Compositional P) {call : Caller} (hcall : call.Respects P)
    {scope : Option StoreId} (a : Action) {s s' : Session} {reply : Reply}
    (h : Session.act call scope a s = some (reply, s')) : P s s' :=
  hP.stepwise.act hcall a h

/-- A compositional relation holds across the code of a client, however deep clients make each other
run. -/
theorem invoke (hP : Compositional P) (depth : Nat) : (Session.invoke depth).Respects P :=
  hP.stepwise.invoke depth

end Compositional

end Session

end ViewBinding
