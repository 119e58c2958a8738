import ViewBinding.Proofs.Store.Rewiring
import ViewBinding.Session.Run

/-!
# Quiet commands

A command that neither writes a value nor tells an observer is quiet: it may subscribe, release, bind
and rearrange views as it likes (`Quiet`).  All commands are quiet but the three that make clients run
(`quiet_bind`, `quiet_finish`, `quiet_edit` and their like), and so is letting go of nodes
(`quiet_sweep`).  Three families leave a session as it is but for its names and its world
(`handle_cases`, `edit_eq`, `bind_eq`), and what binding does to the world follows by the induction
of `World.Settlewise` (`settlewise_bind`).
-/

namespace ViewBinding

open Json (Value)

/-- The delivery of a value (by `set`) to which a happening belongs. -/
def Happening.delivery? : Happening → Option Nat
  | .wrote number _ _ _ => some number
  | .told number _ _ _ => some number
  | _ => none

namespace Session

/-- What holds between a session and a later one if nothing was delivered in between. -/
structure Quiet (s s' : Session) : Prop where
  history : ∃ new, s'.history = new ++ s.history ∧ ∀ h ∈ new, h.delivery? = none
  deliveries : s.deliveries ≤ s'.deliveries
  world : s.world.Advances s'.world

namespace Quiet

variable {s s₁ s₂ : Session}

theorem stores (h : s.Quiet s₁) : s.world.stores.Changes s₁.world.stores :=
  Wiring.Advances.stores h.world

/-- No number of a node is given out twice. -/
theorem next (h : s.Quiet s₁) : s.world.next ≤ s₁.world.next :=
  Wiring.Advances.next h.world

theorem refl (s : Session) : s.Quiet s :=
  ⟨⟨[], rfl, by simp⟩, Nat.le_refl _, World.Advances.refl _⟩

theorem trans (h₁ : s.Quiet s₁) (h₂ : s₁.Quiet s₂) : s.Quiet s₂ := by
  obtain ⟨new₁, hnew₁, hquiet₁⟩ := h₁.history
  obtain ⟨new₂, hnew₂, hquiet₂⟩ := h₂.history
  refine ⟨⟨new₂ ++ new₁, by rw [hnew₂, hnew₁, List.append_assoc], ?_⟩,
    Nat.le_trans h₁.deliveries h₂.deliveries, h₁.world.trans h₂.world⟩
  intro h hh
  rcases List.mem_append.1 hh with hh | hh
  · exact hquiet₂ h hh
  · exact hquiet₁ h hh

/-- A change that leaves history and deliveries alone is quiet if it writes no value. -/
theorem of_world (hhistory : s₁.history = s.history) (hdeliveries : s₁.deliveries = s.deliveries)
    (hworld : s.world.Advances s₁.world) : s.Quiet s₁ :=
  ⟨⟨[], hhistory, by simp⟩, Nat.le_of_eq hdeliveries.symm, hworld⟩

end Quiet

/-! ## Parts of commands -/

theorem quiet_sweep (s : Session) : s.Quiet s.sweep :=
  Quiet.of_world rfl rfl (s.world.advances_sweep s.holdsNode)

theorem quiet_record (s : Session) {h : Happening} (hh : h.delivery? = none) :
    s.Quiet (s.record h) :=
  ⟨⟨[h], rfl, by simpa using hh⟩, Nat.le_refl _, World.Advances.refl _⟩

theorem quiet_begin (s : Session) {h : Nat → Happening}
    (hh : (h s.deliveries).delivery? = none) : s.Quiet (s.begin h) :=
  ⟨⟨[h s.deliveries], rfl, by simpa using hh⟩, Nat.le_succ _, World.Advances.refl _⟩

theorem quiet_changeStores (s : Session) {f : Stores Client → Stores Client}
    (hf : s.world.stores.Changes (f s.world.stores)) : s.Quiet (s.changeStores f) :=
  Quiet.of_world rfl rfl (.of_stores hf rfl)

theorem quiet_refresh (s : Session) (observer : Observer Client) (value : Value) :
    s.Quiet { s with world := s.world.refresh observer value } :=
  Quiet.of_world rfl rfl (s.world.advances_refresh observer value)

/-- What holds of a session, and of what a change makes of it at the node of a name, holds after the
change, whether there is such a node or not. -/
theorem changeAt_rule {p : Session → Prop} {s : Session} {name : String}
    {f : View Client → Reply × Session} (hs : p s) (hf : ∀ t, s.view? name = some t → p (f t).2) :
    p (s.changeAt name f).2 := by
  unfold changeAt
  split
  · exact hs
  · next t ht => exact hf t ht

theorem quiet_changeAt {s : Session} {name : String} {f : View Client → Reply × Session}
    (hf : ∀ t, s.Quiet (f t).2) : s.Quiet (s.changeAt name f).2 :=
  changeAt_rule (Quiet.refl s) fun t _ => hf t

/-! ## Families of commands -/

/-- **Giving and taking names** does no more than that, but for a new view that it may build (`Handle`). -/
theorem handle_cases (s : Session) (h : Handle) :
    ∃ nodes, (s.handle h).2 = { s with nodes := nodes } ∨
      ∃ m, (s.handle h).2 = { s with world := s.world.build m, nodes := nodes } := by
  have hassign : ∀ (s' : Session) (name : String) (n : Option NodeId),
      ∃ nodes, (s'.assign? name n).2 = { s' with nodes := nodes } := by
    intro s' name n
    cases n with
    | none => exact ⟨s'.nodes, rfl⟩
    | some n => exact ⟨s'.nodes.insert name n, rfl⟩
  have hbuild : ∀ name m, ∃ nodes,
      (s.build name m).2 = { s with world := s.world.build m, nodes := nodes } := fun name m =>
    hassign _ name _
  have hname : ∀ (node name : String) (f : View Client → Option NodeId), ∃ nodes,
      (s.changeAt node fun t => s.assign? name (f t)).2 = { s with nodes := nodes } :=
    fun node name f =>
      changeAt_rule (p := fun s' => ∃ nodes, s' = { s with nodes := nodes }) ⟨s.nodes, rfl⟩
        fun t _ => hassign s name (f t)
  cases h with
  | build name m =>
    obtain ⟨nodes, heq⟩ := hbuild name m
    exact ⟨nodes, Or.inr ⟨m, heq⟩⟩
  | parse name markup =>
    simp only [handle]
    split
    · next m _ =>
      obtain ⟨nodes, heq⟩ := hbuild name m
      exact ⟨nodes, Or.inr ⟨m, heq⟩⟩
    · exact ⟨s.nodes, Or.inl rfl⟩
  | child name node index =>
    obtain ⟨nodes, heq⟩ := hname node name _
    exact ⟨nodes, Or.inl heq⟩
  | find name node tag nth =>
    obtain ⟨nodes, heq⟩ := hname node name _
    exact ⟨nodes, Or.inl heq⟩
  | parent name node =>
    obtain ⟨nodes, heq⟩ := hname node name _
    exact ⟨nodes, Or.inl heq⟩
  | drop name => exact ⟨s.nodes.erase name, Or.inl rfl⟩

theorem changeAt_eq {s : Session} {name : String} {f : View Client → Reply × Session}
    (hf : ∀ t, (f t).2 = { s with world := (f t).2.world }) :
    (s.changeAt name f).2 = { s with world := (s.changeAt name f).2.world } :=
  changeAt_rule (p := fun s' => s' = { s with world := s'.world }) rfl fun t _ => hf t

/-- **Changing a view** (`Edit`) changes the world and nothing else. -/
theorem edit_eq (s : Session) (e : Edit) :
    (s.edit e).2 = { s with world := (s.edit e).2.world } := by
  cases e with
  | append node child => exact changeAt_eq fun t => changeAt_eq fun c => rfl
  | insertBefore node child reference =>
    exact changeAt_eq fun t => changeAt_eq fun c => changeAt_eq fun r => rfl
  | remove node child => exact changeAt_eq fun t => changeAt_eq fun c => rfl
  | unlisten node name =>
    refine changeAt_eq fun t => ?_
    split <;> rfl
  | _ => exact changeAt_eq fun t => rfl

/-- **Binding a view** (`Bind`) changes the world and nothing else. -/
theorem bind_eq (s : Session) (b : Bind) :
    (s.bind b).2 = { s with world := (s.bind b).2.world } := by
  cases b with
  | compile node options registry =>
    refine changeAt_eq fun t => ?_
    split <;> rfl
  | dispatch node name value options registry =>
    refine changeAt_eq fun t => ?_
    split <;> rfl
  | apply node strategy key modifier name value options => exact changeAt_eq fun t => rfl
  | text node delimiters => exact changeAt_eq fun t => rfl

/-- **Binding a view** (`Bind`) satisfies what settling what was worked on does. -/
theorem settlewise_bind
    {P : Forest (Node Client) → Wiring Client → Forest (Node Client) → Wiring Client → Prop}
    {Q : World Client → World Client → Prop} (hQ : World.Settlewise P Q) (s : Session) (b : Bind) :
    Q s.world (s.bind b).2.world := by
  have hchange : ∀ {name : String} {f : View Client → Reply × Session},
      (∀ t, Q s.world (f t).2.world) → Q s.world (s.changeAt name f).2.world := fun hf =>
    changeAt_rule (p := fun s' => Q s.world s'.world) (hQ.same s.world) fun t _ => hf t
  cases b with
  | compile node options registry =>
    refine hchange fun t => ?_
    split
    · exact hQ.same s.world
    · next hc => exact hQ.compile s.world hc
  | dispatch node name value options registry =>
    refine hchange fun t => ?_
    split
    · exact hQ.same s.world
    · exact hQ.applyAt s.world _ fun hasParent t w => hQ.dispatch _ _ hasParent t w
  | apply node strategy key modifier name value options =>
    exact hchange fun t => hQ.applyAt s.world _ fun hasParent t w =>
      hQ.apply strategy _ _ hasParent t w
  | text node delimiters => exact hchange fun t => hQ.bindText s.world s.store delimiters t.id

theorem quiet_handle (s : Session) (h : Handle) : s.Quiet (s.handle h).2 := by
  obtain ⟨nodes, heq | ⟨m, heq⟩⟩ := s.handle_cases h
  · exact heq ▸ Quiet.of_world rfl rfl (World.Advances.refl _)
  · exact heq ▸ Quiet.of_world rfl rfl (s.world.advances_build m)

theorem quiet_edit (s : Session) (e : Edit) : s.Quiet (s.edit e).2 := by
  have hforest : ∀ f, s.Quiet (s.changeForest f) := fun _ =>
    Quiet.of_world rfl rfl (World.Advances.refl _)
  have hnode : ∀ n f, s.Quiet (s.changeNode n f) := fun _ _ =>
    Quiet.of_world rfl rfl (World.Advances.refl _)
  cases e with
  | setAttribute node name value => exact quiet_changeAt fun t => hnode _ _
  | append node child => exact quiet_changeAt fun t => quiet_changeAt fun c => hforest _
  | insertBefore node child reference =>
    exact quiet_changeAt fun t => quiet_changeAt fun c => quiet_changeAt fun r => hforest _
  | remove node child => exact quiet_changeAt fun t => quiet_changeAt fun c => hforest _
  | detach node => exact quiet_changeAt fun t => hforest _
  | setPayload node text => exact quiet_changeAt fun t => hnode _ _
  | setValue node text => exact quiet_changeAt fun t => hnode _ _
  | setText node text =>
    exact quiet_changeAt fun t =>
      Quiet.of_world rfl rfl (World.settlewise_advances.setText s.world t.id text)
  | unlisten node name =>
    refine quiet_changeAt fun t => ?_
    split
    · exact Quiet.refl s
    · exact hnode _ _
  | clearListeners node => exact quiet_changeAt fun t => hnode _ _
  | visit node includingRoot v =>
    refine quiet_changeAt fun t => Quiet.of_world rfl rfl ?_
    have hkeeps := Visit.preserves_advances s.world
    cases includingRoot with
    | true => exact hkeeps.node v t (World.Advances.refl _)
    | false => exact hkeeps.rowOf v t.children (World.Advances.refl _)

theorem quiet_bind (s : Session) (b : Bind) : s.Quiet (s.bind b).2 := by
  rw [bind_eq]
  exact Quiet.of_world rfl rfl (settlewise_bind World.settlewise_advances s b)

theorem quiet_observe (s : Session) (id : StoreId) (key : String) (observer : Observer Client) :
    s.Quiet (s.observe id key observer) :=
  s.quiet_changeStores (Stores.changes_subscribe key observer)

theorem quiet_subscribe (s : Session) (scope : Option StoreId) (name key : String)
    (code : Client) : s.Quiet (s.subscribe scope name key code).2 := by
  unfold Session.subscribe
  simp only
  split
  · exact Quiet.refl s
  · exact (s.quiet_observe _ key (.client code)).trans
      (Quiet.of_world rfl rfl (World.Advances.refl _))

theorem quiet_listen (s : Session) (node event name : String) (code : Client) :
    s.Quiet (s.listen node event name code).2 :=
  quiet_changeAt fun _ => Quiet.of_world rfl rfl (World.Advances.refl _)

theorem quiet_retain (s : Session) (scope : Option StoreId) (node key : String) (code : Client) :
    s.Quiet (s.retain scope node key code).2 := by
  simp only [Session.retain]
  split
  · exact s.quiet_observe _ key (.client code)
  · exact Quiet.of_world rfl rfl (World.settlewise_advances.retain s.world _ key code _)

theorem quiet_cancel (s : Session) (scope : Option StoreId) (sub : Subscription) :
    s.Quiet (s.cancel scope sub).2 :=
  s.quiet_changeStores (Stores.changes_unsubscribe _ _ sub)

theorem quiet_finish (s : Session) (scope : Option StoreId) (e : Ending) :
    s.Quiet (s.finish scope e).2 := by
  cases e with
  | unsubscribe name =>
    simp only [finish]
    split
    · exact Quiet.refl s
    · exact s.quiet_cancel scope _
  | cancel sub => exact s.quiet_cancel scope sub
  | take node name =>
    exact quiet_changeAt fun t =>
      Quiet.of_world rfl rfl (.of_stores (Stores.changes_endGuards (s.guardsOf name) s.world.stores) rfl)
  | releaseGuards name =>
    refine Quiet.of_world rfl rfl (.of_stores ?_ rfl)
    simp only [finish, World.stores_giveUp]
    exact Stores.changes_endGuards (s.guardsOf name) s.world.stores
  | dropGuards name =>
    exact Quiet.of_world rfl rfl
      (.of_stores (Stores.changes_endGuards (s.guardsOf name) s.world.stores) rfl)
  | release node =>
    exact quiet_changeAt fun t =>
      Quiet.of_world rfl rfl (s.world.advances_release s.holdsStore t.id)

theorem quiet_newStore (s : Session) (value : Value) :
    s.Quiet { s.changeStores (· ++ [Store.ofValue value]) with store := s.world.stores.length } :=
  Quiet.of_world rfl rfl (.of_stores (Stores.changes_append s.world.stores value) rfl)

end Session

end ViewBinding
