import ViewBinding.Proofs.Guards.Sessions
import ViewBinding.Proofs.Tree.Relinking

/-!
# Parents and children agree

Five commands move nodes: they append a node, insert it before another one, remove it, detach it,
or set a text content, which puts a new text in the place of a row.  Run one after the other on the
nodes of a world they keep the links of its nodes consistent, and what is stored link by link is what
the forest has in its shape.

* `World.Accounted.links_rearrange` — one command.
* `links_stay_consistent` — any number of commands, in any session.
-/

namespace ViewBinding

open List Relation

theorem View.rootIds_textRow {κ : Type} (fresh : NodeId) (text : String) :
    Forest.rootIds (View.textRow fresh text : Forest (Node κ)) =
      if text = "" then [] else [fresh] := by
  unfold View.textRow
  split <;> rfl

/-- A text that was put in the place of a row is new, with nothing below it. -/
theorem View.leaf_of_mem_textRow {κ : Type} {fresh i : NodeId} {text : String}
    (hi : i ∈ Forest.ids (View.textRow fresh text : Forest (Node κ))) :
    i = fresh ∧ Forest.row i (View.textRow fresh text : Forest (Node κ)) = [] := by
  unfold View.textRow at hi ⊢
  split at hi
  · simp at hi
  · next htext =>
    have heq : i = fresh := by simpa using hi
    rw [if_neg htext, heq]
    exact ⟨rfl, by simp [Forest.row, Forest.children, Forest.find?, Tree.find?, Tree.children,
      Forest.rootIds]⟩

/-- A change that moves nodes, as `append_child` and its like make it. -/
inductive Rearrangement where
  | append (parent child : NodeId)
  | insertBefore (parent child reference : NodeId)
  | remove (parent child : NodeId)
  | detach (node : NodeId)
  | setText (node : NodeId) (text : String)

namespace World

variable {κ : Type}

/-- The world after a change. -/
def rearrange (w : World κ) : Rearrangement → World κ
  | .append p c => { w with forest := w.forest.append p c }
  | .insertBefore p c r => { w with forest := w.forest.insertBefore p c r }
  | .remove p c => { w with forest := w.forest.remove p c }
  | .detach n => { w with forest := w.forest.detach n }
  | .setText n text => (w.setText n text).2

/-- Whether a node may be put below another one: both are there, and it is neither that node nor above it
(`movable?`). -/
def MayStandBelow (w : World κ) (parent child : NodeId) : Prop :=
  parent ∈ w.forest.ids ∧ child ∈ w.forest.ids ∧ parent ≠ child ∧
    parent ∉ w.forest.descendants child

/-- Whether a change puts no node below itself. -/
def Permits (w : World κ) : Rearrangement → Prop
  | .append p c => w.MayStandBelow p c
  | .insertBefore p c _ => w.MayStandBelow p c
  | _ => True

/-- Whether setting a text content puts another row in the place of the children (`set_text_content` does
not where the text is shown already). -/
def replacesRow (w : World κ) (n : NodeId) (text : String) : Bool :=
  match w.forest.find? n with
  | some t => t.val.isElement && !View.showsAlready text t.children
  | none => false

/-- The world after changes one after the other. -/
def rearrangeAll (w : World κ) : List Rearrangement → World κ
  | [] => w
  | e :: es => (w.rearrange e).rearrangeAll es

/-- Whether no change of several, one after the other, puts a node below itself. -/
def PermitsAll (w : World κ) : List Rearrangement → Prop
  | [] => True
  | e :: es => w.Permits e ∧ (w.rearrange e).PermitsAll es

instance (w : World κ) (parent child : NodeId) : Decidable (w.MayStandBelow parent child) :=
  inferInstanceAs (Decidable (_ ∧ _ ∧ _ ∧ _))

instance (w : World κ) : (e : Rearrangement) → Decidable (w.Permits e)
  | .append p c => inferInstanceAs (Decidable (w.MayStandBelow p c))
  | .insertBefore p c _ => inferInstanceAs (Decidable (w.MayStandBelow p c))
  | .remove _ _ => inferInstanceAs (Decidable True)
  | .detach _ => inferInstanceAs (Decidable True)
  | .setText _ _ => inferInstanceAs (Decidable True)

instance decidablePermitsAll : (w : World κ) → (es : List Rearrangement) →
    Decidable (w.PermitsAll es)
  | _, [] => inferInstanceAs (Decidable True)
  | w, e :: es =>
    have := decidablePermitsAll (w.rearrange e) es
    inferInstanceAs (Decidable (w.Permits e ∧ (w.rearrange e).PermitsAll es))

end World

namespace Links

variable {κ : Type}

/-- The stored links after a change in a world, made step by step as the links are stored: each operation
on `Links` unlinks first and links then. -/
def rearrange (w : World κ) (l : Links) : Rearrangement → Links
  | .append p c => l.append p c
  | .insertBefore p c r => l.insertBefore p c r
  | .remove p c => l.remove p c
  | .detach n => l.detach n
  | .setText n text =>
    if w.replacesRow n text then l.replace n (if text = "" then [] else [w.next]) else l

/-- The stored links after changes one after the other. -/
def rearrangeAll (w : World κ) (l : Links) : List Rearrangement → Links
  | [] => l
  | e :: es => rearrangeAll (w.rearrange e) (l.rearrange w e) es

/-- Whether a node is the old or the new parent of what a change moves. -/
def IsParentIn (l : Links) (p : NodeId) : Rearrangement → Prop
  | .append q c => p = q ∨ l.parent c = some p
  | .insertBefore q c _ => p = q ∨ l.parent c = some p
  | .remove _ c => l.parent c = some p
  | .detach n => l.parent n = some p
  | .setText n _ => p = n

/-- **No change makes the two kinds of links differ** (`Consistent`). -/
theorem Consistent.rearrange (w : World κ) {l : Links} (hl : l.Consistent) (e : Rearrangement) :
    (l.rearrange w e).Consistent := by
  cases e with
  | append p c => exact hl.append p c
  | insertBefore p c r => exact hl.insertBefore p c r
  | remove p c => exact hl.remove p c
  | detach n => exact hl.detach n
  | setText n text =>
    rw [Links.rearrange]
    split
    · exact hl.replace n _
    · exact hl

/-- **A change leaves all rows as they are but those of the old and the new parent.** -/
theorem Consistent.children_rearrange (w : World κ) {l : Links} (hl : l.Consistent)
    (hnext : ∀ p, w.next ∉ l.children p) {e : Rearrangement} {q : NodeId}
    (hq : ¬ l.IsParentIn q e) : (l.rearrange w e).children q = l.children q := by
  have hstays : ∀ {c}, ¬ l.parent c = some q → (l.children q).erase c = l.children q :=
    fun hc => List.erase_of_not_mem fun hin => hc ((hl.linked q _).1 hin)
  cases e with
  | append p c =>
    rw [IsParentIn, not_or] at hq
    rw [Links.rearrange, hl.children_append, if_neg hq.1, hstays hq.2]
  | insertBefore p c r =>
    rw [IsParentIn, not_or] at hq
    rw [Links.rearrange, hl.children_insertBefore, if_neg hq.1, hstays hq.2]
  | remove p c =>
    rw [Links.rearrange, children_remove, hstays hq, ite_self]
  | detach n => rw [Links.rearrange, hl.children_detach, hstays hq]
  | setText n text =>
    rw [Links.rearrange]
    split
    · have hne : ¬ q = n := hq
      rw [hl.children_replace n q (by split <;> simp) fun k hk p => ?_, if_neg hne]
      split at hk
      · simp at hk
      · rw [List.mem_singleton.1 hk]
        exact hnext p
    · rfl

end Links

namespace World.Accounted

variable {κ : Type} {w : World κ} {kept : List Guard}

theorem rearrange (h : w.Accounted kept) (e : Rearrangement) : (w.rearrange e).Accounted kept := by
  have hd := h.distinct
  cases e with
  | append p c => exact h.of_perm (Forest.nodes_append_child hd p c)
  | insertBefore p c r => exact h.of_perm (Forest.nodes_insertBefore hd p c r)
  | remove p c => exact h.of_perm (Forest.nodes_remove hd p c)
  | detach n => exact h.of_perm (Forest.nodes_detach hd n)
  | setText n text => exact h.setText n text

theorem exists_movable {p c : NodeId} (hpc : w.MayStandBelow p c) :
    ∃ t, w.forest.movable? p c = some t := by
  obtain ⟨hp, hc, hne, hnot⟩ := hpc
  obtain ⟨s, hs⟩ := Forest.exists_find? hp
  obtain ⟨t, ht⟩ := Forest.exists_find? hc
  have hout : p ∉ t.ids := by
    have hwhole : w.forest.descendants c = t.children.ids := by
      rw [Forest.descendants, Forest.children, ht]
    have hid := Forest.find?_id ht
    obtain ⟨m, a, us⟩ := t
    rw [Tree.ids_node, List.mem_cons, not_or]
    exact ⟨fun heq => hne (heq.trans hid), hwhole ▸ hnot⟩
  refine ⟨t, ?_⟩
  rw [Forest.movable?, hs, ht]
  exact if_neg (by simpa using hout)

/-- Setting a text content, link by link. -/
theorem links_setText (h : w.Accounted kept) (n : NodeId) (text : String) :
    Links.of (w.setText n text).2.forest = (Links.of w.forest).rearrange w (.setText n text) := by
  have hd := h.distinct
  have hl := Links.consistent_of hd
  have hnext : w.next ∉ w.forest.ids := fun hin => Nat.lt_irrefl _ (h.lt_next hin)
  refine (Links.consistent_of (h.setText n text).distinct).ext (hl.rearrange w _) fun q => ?_
  rw [Links.rearrange, replacesRow, World.setText]
  cases ht : w.forest.find? n with
  | none => simp
  | some t =>
    have hid := Forest.find?_id ht
    obtain ⟨m, a, us⟩ := t
    have heq : m = n := hid
    subst heq
    dsimp only
    rw [View.setText]
    cases helement : a.isElement with
    | false =>
      -- a text only changes its payload
      simp only [Tree.val, helement, Bool.not_false, if_true, Bool.false_and, Bool.false_eq_true,
        if_false, List.append_nil]
      exact Forest.row_revalued hd ht q
    | true =>
      simp only [Tree.val, Tree.children, helement, Bool.not_true, Bool.false_eq_true, if_false,
        Bool.true_and]
      cases hshown : View.showsAlready text us with
      | true =>
        simp only [if_true, List.append_nil, Bool.not_true, Bool.false_eq_true, if_false]
        exact Forest.row_revalued hd ht q
      | false =>
        simp only [Bool.false_eq_true, if_false, Bool.not_false, if_true]
        rw [hl.children_replace m q (by split <;> simp) fun k hk p hin => ?_]
        · refine (Forest.row_replaced hd ht (fun i hi => ?_) q).trans ?_
          · obtain ⟨rfl, hrow⟩ := View.leaf_of_mem_textRow hi
            exact ⟨hnext, hrow⟩
          · rw [View.rootIds_textRow]
            rfl
        · split at hk
          · simp at hk
          · rw [List.mem_singleton.1 hk] at hin
            exact hnext (Forest.mem_ids_of_parent? ((hl.linked p _).1 hin))

/-- **Every change of a world is the change of the stored links**: `Links.of` reads from a forest what was
stored. -/
theorem links_rearrange (h : w.Accounted kept) {e : Rearrangement} (he : w.Permits e) :
    Links.of (w.rearrange e).forest = (Links.of w.forest).rearrange w e := by
  have hd := h.distinct
  cases e with
  | append p c =>
    obtain ⟨t, ht⟩ := exists_movable he
    exact Links.of_append hd ht
  | insertBefore p c r =>
    obtain ⟨t, ht⟩ := exists_movable he
    exact Links.of_insertBefore hd ht r
  | remove p c => exact Links.of_remove hd p c
  | detach n => exact Links.of_detach hd n
  | setText n text => exact h.links_setText n text

theorem rearrangeAll (h : w.Accounted kept) (es : List Rearrangement) :
    (w.rearrangeAll es).Accounted kept := by
  induction es generalizing w with
  | nil => exact h
  | cons e es ih => exact ih (h.rearrange e)

/-- Changes one after the other are those of the stored links. -/
theorem links_rearrangeAll (h : w.Accounted kept) {es : List Rearrangement}
    (hes : w.PermitsAll es) :
    Links.of (w.rearrangeAll es).forest = (Links.of w.forest).rearrangeAll w es := by
  induction es generalizing w with
  | nil => rfl
  | cons e es ih =>
    rw [World.rearrangeAll, Links.rearrangeAll, ih (h.rearrange e) hes.2, h.links_rearrange hes.1]

end World.Accounted

/-! ## Sessions -/

namespace Session

/-- The change that a command makes which moves nodes. -/
def rearrangement? (s : Session) : Edit → Option Rearrangement
  | .append node child => do
    return .append (← s.view? node).id (← s.view? child).id
  | .insertBefore node child reference => do
    return .insertBefore (← s.view? node).id (← s.view? child).id (← s.view? reference).id
  | .remove node child => do
    return .remove (← s.view? node).id (← s.view? child).id
  | .detach node => do
    return .detach (← s.view? node).id
  | .setText node text => do
    return .setText (← s.view? node).id text
  | _ => none

/-- The commands that move nodes change the world as said (`rearrange`). -/
theorem world_edit {s : Session} {e : Edit} {r : Rearrangement} (h : s.rearrangement? e = some r) :
    (s.edit e).2.world = s.world.rearrange r := by
  cases e with
  | append node child =>
    simp only [rearrangement?, Option.pure_def, Option.bind_eq_bind, Option.bind_eq_some_iff,
      Option.some.injEq] at h
    obtain ⟨t, ht, c, hc, rfl⟩ := h
    simp only [edit, changeAt, ht, hc]
    rfl
  | insertBefore node child reference =>
    simp only [rearrangement?, Option.pure_def, Option.bind_eq_bind, Option.bind_eq_some_iff,
      Option.some.injEq] at h
    obtain ⟨t, ht, c, hc, u, hu, rfl⟩ := h
    simp only [edit, changeAt, ht, hc, hu]
    rfl
  | remove node child =>
    simp only [rearrangement?, Option.pure_def, Option.bind_eq_bind, Option.bind_eq_some_iff,
      Option.some.injEq] at h
    obtain ⟨t, ht, c, hc, rfl⟩ := h
    simp only [edit, changeAt, ht, hc]
    rfl
  | detach node =>
    simp only [rearrangement?, Option.pure_def, Option.bind_eq_bind, Option.bind_eq_some_iff,
      Option.some.injEq] at h
    obtain ⟨t, ht, rfl⟩ := h
    simp only [edit, changeAt, ht]
    rfl
  | setText node text =>
    simp only [rearrangement?, Option.pure_def, Option.bind_eq_bind, Option.bind_eq_some_iff,
      Option.some.injEq] at h
    obtain ⟨t, ht, rfl⟩ := h
    simp only [edit, changeAt, ht]
    rfl
  | _ => exact absurd h (by simp [rearrangement?])

/-- **Parents and children agree.** In every session, after any of the commands that move nodes, one
after the other, none of which puts a node below itself, the links that were stored step by step are
those of the forest: a node stands in the row below its parent, in no other, and there once;
below a node is, once, what leads to it upward; and one more command changes no row but those of the
old and the new parent. The commands of a session are among these (`rearrangement?`). -/
theorem links_stay_consistent {model : Json.Value} {methods : List (String × Client)} {s : Session}
    (hs : Moves (start model methods) s) {es : List Rearrangement} (hes : s.world.PermitsAll es) :
    let w := s.world.rearrangeAll es
    let l := (Links.of s.world.forest).rearrangeAll s.world es
    l = Links.of w.forest ∧
      (∀ p c, c ∈ l.children p ↔ l.parent c = some p) ∧
      (∀ p, (l.children p).Nodup) ∧
      (∀ r, (w.forest.descendants r).Nodup ∧
        w.forest.descendants r = (l.children r).flatMap (fun c => c :: w.forest.descendants c) ∧
        ∀ n, n ∈ w.forest.descendants r ↔ TransGen (fun c p => l.parent c = some p) n r) ∧
      (∀ e, w.Permits e → Links.of (w.rearrange e).forest = l.rearrange w e ∧
        ∀ p, ¬ l.IsParentIn p e → (l.rearrange w e).children p = l.children p) ∧
      ∀ (e : Edit) r, s.rearrangement? e = some r → (s.edit e).2.world = s.world.rearrange r := by
  intro w l
  have hw : w.Accounted s.keptGuards := hs.accounted.world.rearrangeAll es
  have hl : Links.of w.forest = l := hs.accounted.world.links_rearrangeAll hes
  have hconsistent : l.Consistent := hl ▸ Links.consistent_of hw.distinct
  have hnext : ∀ p, w.next ∉ l.children p := fun p hin => by
    rw [← hl] at hin
    have hparent := (Forest.mem_row_iff hw.distinct).1 hin
    exact Nat.lt_irrefl _ (hw.lt_next (Forest.mem_ids_of_parent? hparent))
  refine ⟨hl.symm, hconsistent.linked, hconsistent.nodup, fun r => ⟨?_, ?_, fun n => ?_⟩,
    fun e he => ⟨?_, fun p => hconsistent.children_rearrange w hnext⟩, fun e r => world_edit⟩
  · exact Forest.nodup_descendants hw.distinct r
  · rw [← hl]
    exact Forest.descendants_eq hw.distinct r
  · rw [← hl]
    exact Forest.mem_descendants_iff hw.distinct
  · rw [← hl]
    exact hw.links_rearrange he

/-- A session with a list of three items, the second one with a text in it. -/
def threeItems : Session :=
  (start (.ofMembers []) []).runs [.command (.handle (.build "list" (.element "ul" []
    [.element "li" [] [], .element "li" [] [.text "tea"], .element "li" [] []])))]

/-- The first of `threeItems` moves to the end, in front of the third and into the second; a removal fails.
-/
def itemMoves : List Rearrangement :=
  [.append 0 1, .insertBefore 0 1 4, .setText 2 "milk", .append 2 1, .remove 0 1, .detach 5]

theorem item_moves_keep_links :
    threeItems.world.PermitsAll itemMoves ∧
      (∀ p c, c ∈ ((Links.of threeItems.world.forest).rearrangeAll threeItems.world itemMoves).children p ↔
        ((Links.of threeItems.world.forest).rearrangeAll threeItems.world itemMoves).parent c = some p) ∧
      ((Links.of threeItems.world.forest).rearrangeAll threeItems.world itemMoves).children 0 = [2, 4] := by
  have hreachable : Moves _ threeItems := moves_runs _ _
  have hpermitted : threeItems.world.PermitsAll itemMoves := by decide +kernel
  obtain ⟨-, hlinked, -⟩ := links_stay_consistent hreachable hpermitted
  refine ⟨hpermitted, hlinked, ?_⟩
  decide +kernel

end Session

end ViewBinding
