import ViewBinding.Proofs.Listeners.Worlds

/-!
# The tables of listeners in a session

Every single move leaves a session whose nodes are those of the session before, each with a table that
only changed as tables do, or new ones (`Move.continues`).  So a node that is still there after any
number of moves has become what it is by such changes (`Moves.becomes_node`), and every table began
empty (`Moves.born`).
-/

namespace ViewBinding

namespace Session

variable {s s' : Session}

/-! ## One step -/

theorem continues_changeAt {name : String} {f : View Client → Reply × Session}
    (hf : ∀ t, s.view? name = some t → s.world.Continues (f t).2.world) :
    s.world.Continues (s.changeAt name f).2.world :=
  changeAt_rule (p := fun s' => s.world.Continues s'.world) (.refl _) hf

theorem continues_handle (s : Session) (h : Handle) : s.world.Continues (s.handle h).2.world := by
  obtain ⟨nodes, heq | ⟨m, heq⟩⟩ := s.handle_cases h
  · exact heq ▸ .refl s.world
  · exact heq ▸ .build s.world m

theorem continues_edit (hs : s.Accounted) (e : Edit) : s.world.Continues (s.edit e).2.world := by
  have hd := hs.world.distinct
  cases e with
  | setAttribute node name value =>
    exact continues_changeAt fun t _ => .updateNode hd _ fun m => .setAttribute m _ _
  | append node child =>
    exact continues_changeAt fun t _ => continues_changeAt fun c _ =>
      .of_perm (Forest.nodes_append_child hd t.id c.id)
  | insertBefore node child reference =>
    exact continues_changeAt fun t _ => continues_changeAt fun c _ => continues_changeAt fun r _ =>
      .of_perm (Forest.nodes_insertBefore hd t.id c.id r.id)
  | remove node child =>
    exact continues_changeAt fun t _ => continues_changeAt fun c _ =>
      .of_perm (Forest.nodes_remove hd t.id c.id)
  | detach node => exact continues_changeAt fun t _ => .of_perm (Forest.nodes_detach hd t.id)
  | setPayload node text =>
    exact continues_changeAt fun t _ => .updateNode hd _ fun m => .setPayload m _
  | setValue node text =>
    exact continues_changeAt fun t _ => .updateNode hd _ fun m => .setValue m _
  | setText node text =>
    exact continues_changeAt fun t _ => World.settlewise_continues.setText s.world t.id text hd
  | unlisten node name =>
    refine continues_changeAt fun t _ => ?_
    split
    · exact .refl _
    · exact .updateNode hd _ fun m => ⟨_, .remove m _⟩
  | clearListeners node =>
    exact continues_changeAt fun t _ => .updateNode hd _ fun m => ⟨_, .clear m⟩
  | visit node includingRoot v =>
    refine continues_changeAt fun t _ => ?_
    have hkeeps := Visit.preserves_continues s.world s.keptGuards
    cases includingRoot with
    | true => exact (hkeeps.node v t ⟨.refl _, hs.world⟩).1
    | false => exact (hkeeps.rowOf v t.children ⟨.refl _, hs.world⟩).1

theorem continues_finish (hs : s.Accounted) (scope : Option StoreId) (e : Ending) :
    s.world.Continues (s.finish scope e).2.world := by
  have hd := hs.world.distinct
  cases e with
  | unsubscribe name =>
    simp only [finish]
    split <;> exact .of_forest rfl rfl
  | take node name =>
    refine continues_changeAt fun t _ => ?_
    have hcleared : s.world.Continues (s.world.updateNode t.id (·.clearGuards)) :=
      .updateNode hd t.id fun m => .same rfl rfl
    exact hcleared.trans (.of_forest rfl rfl)
  | release node => exact continues_changeAt fun t _ => .release hd s.holdsStore t.id
  | _ => exact .of_forest rfl rfl

/-- **One step** leaves every table to itself, but for listeners that are added or removed
(`Node.Becomes`). -/
theorem Step.continues (h : Step s s') (hs : s.Accounted) : s.world.Continues s'.world := by
  have hd := hs.world.distinct
  cases h with
  | handle h => exact continues_handle s h
  | edit e => exact continues_edit hs e
  | finish scope e => exact continues_finish hs scope e
  | bind b => exact settlewise_bind World.settlewise_continues s b hd
  | subscribe scope name key code =>
    simp only [Session.subscribe]
    split <;> exact .of_forest rfl rfl
  | listen node event name code =>
    exact continues_changeAt fun t _ => .updateNode hd t.id fun m => ⟨_, .add m event _⟩
  | retain scope node key code =>
    simp only [Session.retain]
    split
    · exact .of_forest rfl rfl
    · exact World.settlewise_continues.retain s.world _ key code _ hd
  | newStore value => exact .of_forest rfl rfl
  | refresh observer value => exact World.settlewise_continues.refresh s.world observer value hd
  | sweep => exact .sweep s.world s.holdsNode
  | record x hx => exact .refl _
  | begin x hx => exact .refl _

/-! ## Any number of moves -/

theorem Move.continues (h : Move s s') (hs : s.Accounted) : s.world.Continues s'.world := by
  cases h with
  | step hstep => exact hstep.continues hs
  | _ => exact .of_forest rfl rfl

theorem Moves.continues (h : Moves s s') (hs : s.Accounted) : s.world.Continues s'.world := by
  refine (h.invariant (J := fun s' => s'.Accounted ∧ s.world.Continues s'.world)
    (fun hmove ⟨haccounted, hcontinues⟩ => ?_) ⟨hs, .refl _⟩).2
  exact ⟨haccounted.move hmove, hcontinues.trans (hmove.continues haccounted)⟩

/-- **Every table began empty**, whatever ran (`Node.Born`). -/
theorem Moves.born {model : Json.Value} {methods : List (String × Client)}
    (h : Moves (start model methods) s) : ∀ x ∈ Forest.nodes s.world.forest, x.2.Born := by
  intro x hx
  rcases (h.continues (accounted_start model methods)).nodes x hx with ⟨y, hy, -, -⟩ | ⟨-, hborn⟩
  · exact absurd hy (by simp [start, Forest.nodes])
  · exact hborn

/-- **A node at a later time** has become what it is by changes of its table (`Node.Becomes`). -/
theorem Moves.becomes_node (h : Moves s s') (hs : s.Accounted) {n : NodeId} {t t' : View Client}
    (ht : s.world.forest.find? n = some t) (ht' : s'.world.forest.find? n = some t') :
    t.val.Becomes t'.val := by
  have hid := Forest.find?_id ht
  have hid' := Forest.find?_id ht'
  have hroot := Forest.mem_nodes_of_find? ht
  rcases (h.continues hs).nodes _ (Forest.mem_nodes_of_find? ht') with
    ⟨x, hx, hxid, hbecomes⟩ | ⟨hnew, -⟩
  · -- only one node has the number
    obtain rfl : x = (t.id, t.val) :=
      List.inj_on_of_nodup_map hs.world.distinct hx hroot (hxid.trans (hid'.trans hid.symm))
    exact hbecomes
  · have hold : t.id < s.world.next := hs.world.lt_next (List.mem_map_of_mem hroot)
    exact absurd hnew (Nat.not_le.2 (hid'.trans hid.symm ▸ hold))

end Session

end ViewBinding
