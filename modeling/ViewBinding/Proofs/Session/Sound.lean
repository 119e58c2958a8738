import ViewBinding.Proofs.Session.Invariants

/-!
# Sessions in good order

A session is sound if all its stores are.  A session that starts is sound (`sound_start`), and every
action leaves it so (`Sound.run`), whatever clients do.
-/

namespace ViewBinding

open Json (Value)

namespace Session

/-- A session all stores of which are in good order (`Store.Sound`). -/
def Sound (s : Session) : Prop := ∀ st ∈ s.world.stores, Store.Sound st

theorem Sound.store {s : Session} (h : s.Sound) {id : StoreId} {st : Store Client}
    (hst : s.world.stores[id]? = some st) : st.Sound :=
  h st (List.mem_iff_getElem?.2 ⟨id, hst⟩)

theorem sound_start (model : Value) (methods : List (String × Client)) :
    (start model methods).Sound := by
  intro st hst
  rw [List.mem_singleton.1 hst]
  exact Store.sound_ofValue model

theorem Sound.write {s : Session} (h : s.Sound) (store : StoreId) (key : String) (value : Value) :
    (s.write store key value).Sound := by
  intro st hst
  obtain ⟨id, hid⟩ := List.mem_iff_getElem?.1 hst
  have hid : (s.world.stores.update store (·.write key value))[id]? = some st := hid
  rw [Stores.getElem?_update, Option.map_eq_some_iff] at hid
  obtain ⟨old, hold, rfl⟩ := hid
  split
  · exact (h.store hold).write key value
  · exact h.store hold

theorem compositional_sound : Compositional fun s s' => s.Sound → s'.Sound where
  quiet hq := hq.stores.rewired.sound
  trans h₁ h₂ h := h₂ (h₁ h)
  set {call} hcall {store key value s s'} h hs := by
    rcases set_cases h with ⟨rfl, -⟩ | ⟨st, after, -, -, hafter, rfl⟩
    · exact hs
    · have hstart : Session.Sound
          { s.write store key value with busyStores := store :: s.busyStores } :=
        hs.write store key value
      obtain ⟨rest, hrest, -⟩ := deliver_exit (I := fun _ s₁ => s₁.Sound)
        (fun hI _ htell => hcall.tell (fun hq => hq.stores.rewired.sound) htell hI) hstart hafter
      exact hrest

/-- Every single `Move` leaves a sound session sound. -/
theorem Sound.move {s s' : Session} (hmove : Move s s') (h : s.Sound) : s'.Sound := by
  cases hmove with
  | step hstep => exact hstep.quiet.stores.rewired.sound h
  | busy nodes stores => exact h
  | write store key value => exact h.write store key value
  | told number store sub value => exact h
  | forget => exact h

/-- All that can be reached from the `start` is sound. -/
theorem Moves.sound {model : Value} {methods : List (String × Client)} {s : Session}
    (h : Moves (start model methods) s) : s.Sound :=
  h.invariant (fun hmove hs => hs.move hmove) (sound_start model methods)

/-- Every action leaves a sound session sound. -/
theorem Sound.run {s : Session} (h : s.Sound) (a : Action) : (s.run a).2.Sound := by
  unfold Session.run
  simp only
  split
  · next reply after hact =>
    exact compositional_sound.act (compositional_sound.invoke depth) a hact h
  · exact h

end Session

end ViewBinding
