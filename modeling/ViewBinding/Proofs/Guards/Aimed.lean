import ViewBinding.Proofs.Guards.Sessions

/-!
# Where observers show their values

Every observer that shows its value at a node shows it at one that has its number already
(`Moves.target_lt`), so a new node is nobody's place.  For the observers whose guards nodes hold this is
among the accounts of a session; guards that were taken from a node keep the place that they had there
(`Aimed`).
-/

namespace ViewBinding

namespace Session

variable {s s' : Session}

/-- A session in good order (`Accounted`) in which the guards of every kept list belong to observers that
show their values, if anywhere, at nodes that have their numbers. -/
structure Aimed (s : Session) : Prop where
  accounted : s.Accounted
  kept : ∀ g ∈ s.keptGuards, ∃ i < s.world.next, s.world.stores.Aims i g

/-- The guards that a step leaves in lists (`keptGuards`) were there before, at a node or in a list. -/
theorem Step.keptGuards_subset (hs : s.Accounted) (h : Step s s') : s'.keptGuards ⊆ s.allGuards := by
  have hsame : ∀ {s' : Session}, s'.guards = s.guards → s'.keptGuards ⊆ s.allGuards := fun heq g hg =>
    List.mem_append_right _ (by rwa [keptGuards, heq] at hg)
  have hat : ∀ {name} {f : View Client → Reply × Session}, (∀ t, (f t).2.guards = s.guards) →
      (s.changeAt name f).2.keptGuards ⊆ s.allGuards := fun hf =>
    hsame (changeAt_rule (p := fun s' => s'.guards = s.guards) rfl fun t _ => hf t)
  have hforget : ∀ (s' : Session) {name : String}, s'.guards = s.guards.erase name →
      s'.keptGuards ⊆ s.allGuards := fun s' name heq g hg => by
    refine List.mem_append_right _ ((hs.keptGuards_perm name).symm.subset ?_)
    rw [keptGuards, heq] at hg
    exact List.mem_append_right _ hg
  cases h with
  | handle h =>
    obtain ⟨nodes, heq | ⟨m, heq⟩⟩ := s.handle_cases h <;> exact hsame (by rw [heq])
  | edit e => exact hsame (by rw [edit_eq])
  | finish scope e =>
    cases e with
    | unsubscribe name =>
      simp only [Session.finish]
      split <;> exact hsame rfl
    | cancel sub => exact hsame rfl
    | take node name =>
      refine changeAt_rule (p := fun s' => s'.keptGuards ⊆ s.allGuards) (hsame rfl) fun t ht g hg => ?_
      -- the list holds what the node held, and the other lists are as before
      rcases List.mem_append.1 ((hs.guards.perm_insert name t.val.guards).flatMap_right Prod.snd
        |>.subset hg) with htaken | hkept
      · have hroot : (t.id, t.val) ∈ Forest.nodes s.world.forest :=
          Forest.mem_nodes_of_find? (view?_eq_some ht).2
        refine List.mem_append_left _ (List.mem_flatMap.2 ⟨(t.id, t.val.guards), ?_, htaken⟩)
        exact List.mem_map.2 ⟨_, hroot, rfl⟩
      · exact hforget { s with guards := s.guards.erase name } rfl hkept
    | releaseGuards name => exact hforget _ rfl
    | dropGuards name => exact hforget _ rfl
    | release node => exact hat fun t => rfl
  | bind b => exact hsame (by rw [bind_eq])
  | subscribe scope name key code =>
    simp only [Session.subscribe]
    split <;> exact hsame rfl
  | listen node event name code => exact hat fun t => rfl
  | retain scope node key code =>
    simp only [Session.retain]
    split <;> exact hsame rfl
  | _ => exact hsame rfl

namespace Aimed

/-- Every guard that there is (`allGuards`) belongs to an observer that shows its value, if anywhere, at a
node that has its number. -/
theorem all (h : s.Aimed) : ∀ g ∈ s.allGuards, ∃ i < s.world.next, s.world.stores.Aims i g := by
  intro g hg
  rcases List.mem_append.1 hg with hnode | hkept
  · obtain ⟨x, hx, hgx⟩ := List.mem_flatMap.1 hnode
    exact ⟨x.1, h.accounted.world.below x hx, h.accounted.world.aimed x hx g hgx⟩
  · exact h.kept g hkept

/-- Lists that hold no guard that was not there keep their aims. -/
theorem of_last (h : s.Aimed) (haccounted : s'.Accounted) (hsubset : s'.keptGuards ⊆ s.allGuards)
    (hlast : s.world.stores.Last s'.world.stores) (hnext : s.world.next ≤ s'.world.next) : s'.Aimed := by
  refine ⟨haccounted, fun g hg => ?_⟩
  obtain ⟨i, hi, haims⟩ := h.all g (hsubset hg)
  exact ⟨i, Nat.lt_of_lt_of_le hi hnext, h.accounted.world.owned.aims hlast (hsubset hg) haims⟩

theorem step (h : s.Aimed) (hstep : Step s s') : s'.Aimed :=
  h.of_last (h.accounted.step hstep) (hstep.keptGuards_subset h.accounted)
    hstep.quiet.stores.rewired.last hstep.quiet.next

/-- Only the world, and the names of nodes and lists, matter. -/
theorem of_eq (h : s.Aimed) (hworld : s'.world = s.world) (hnodes : s'.nodes = s.nodes)
    (hguards : s'.guards = s.guards) : s'.Aimed := by
  refine ⟨h.accounted.of_eq hworld hnodes hguards, ?_⟩
  rw [keptGuards, hworld, hguards]
  exact h.kept

theorem write (h : s.Aimed) (store : StoreId) (key : String) (value : Json.Value) :
    (s.changeStores (·.update store (·.write key value))).Aimed := by
  have hlast := Stores.last_update s.world.stores store fun st => st.becomes_write key value
  exact h.of_last (h.accounted.changeStores hlast fun howned => howned.write store key value)
    (fun g hg => List.mem_append_right _ hg) hlast (Nat.le_refl _)

theorem move (hmove : Move s s') (h : s.Aimed) : s'.Aimed := by
  cases hmove with
  | step hstep => exact h.step hstep
  | busy nodes stores => exact h.of_eq rfl rfl rfl
  | write store key value => exact (h.write store key value).of_eq rfl rfl rfl
  | told number store sub value => exact h.of_eq rfl rfl rfl
  | forget => exact h.of_eq rfl rfl rfl

/-- **A new node is nobody's place**: whoever shows a value shows it at a node that has its number already
(`target?`). -/
theorem target_lt (h : s.Aimed) {st : Store Client} (hst : st ∈ s.world.stores) {key : String}
    {entry : Nat × Observer Client} (hentry : entry ∈ st.observersOf key) {n : NodeId}
    (hn : entry.2.target? = some n) : n < s.world.next := by
  obtain ⟨id, hid⟩ := List.mem_iff_getElem?.1 hst
  have hheld := h.accounted.world.owned.held id st hid key entry hentry (Observer.isClient_of_target? hn)
  obtain ⟨i, hi, haims⟩ := h.all _ hheld
  exact haims st hid entry hentry rfl n hn ▸ hi

end Aimed

/-- Whatever ran, nobody shows a value at a node to come (`Aimed`). -/
theorem Moves.aimed {model : Json.Value} {methods : List (String × Client)}
    (h : Moves (start model methods) s) : s.Aimed :=
  h.invariant (fun hmove hs => hs.move hmove)
    ⟨accounted_start model methods, fun g hg => absurd hg (by simp [start, keptGuards])⟩

end Session

end ViewBinding
