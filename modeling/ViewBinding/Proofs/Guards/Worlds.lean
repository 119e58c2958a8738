import ViewBinding.Proofs.Guards.Wiring
import ViewBinding.Proofs.World.Induction
import ViewBinding.World

/-!
# The accounts of a world

A world is accounted for if its forest, together with the guards in some lists, accounts for all
subscriptions (`World.Accounted`).  Every function that works on a world keeps it so: what is bound
(`settlewise_accounted`), moved (`Accounted.of_perm`), visited (`Visit.preserves_accounted`), released
(`Accounted.release`) and swept away.  Nodes that die take their subscriptions with them
(`Accounted.sweep`).
-/

namespace ViewBinding

open Json (Value)
open List

variable {κ : Type}

/-- Whether the forest of a world, together with the guards in some lists, accounts for all subscriptions
(`View.ledger`). -/
def World.Accounted (w : World κ) (kept : List Guard) : Prop :=
  ViewBinding.Accounted (View.ledger w.forest) kept w.stores w.next

namespace World

/-! ## What is swept away -/

mutual

theorem ledger_sweepTree (held : NodeId → Bool) : ∀ t : View κ, ∃ dead : Ledger,
    View.ledger [t] ~ dead ++ View.ledger (sweepTree held t).1 ∧
      (sweepTree held t).2 = dead.guards
  | .node id n row => by
    rw [sweepTree]
    split
    · exact ⟨[], Perm.refl _, rfl⟩
    · obtain ⟨dead, hledger, hguards⟩ := ledger_sweepRow held row
      refine ⟨(id, n.guards) :: dead, ?_, ?_⟩
      · simpa using hledger
      · simp [hguards]

/-- A row is what `sweepRow` leaves of it and the nodes that died, whose guards are answered. -/
theorem ledger_sweepRow (held : NodeId → Bool) : ∀ ts : Forest (Node κ), ∃ dead : Ledger,
    View.ledger ts ~ dead ++ View.ledger (sweepRow held ts).1 ∧
      (sweepRow held ts).2 = dead.guards
  | [] => ⟨[], by simp [sweepRow], by simp [sweepRow]⟩
  | t :: ts => by
    obtain ⟨dead, hledger, hguards⟩ := ledger_sweepTree held t
    obtain ⟨more, hmore, hothers⟩ := ledger_sweepRow held ts
    refine ⟨dead ++ more, ?_, by simp [sweepRow, hguards, hothers]⟩
    rw [View.ledger_cons, sweepRow, View.ledger_append, perm_iff_count]
    intro x
    have hx := perm_iff_count.1 hledger x
    have hy := perm_iff_count.1 hmore x
    simp only [List.count_append] at hx hy ⊢
    omega

end

/-! ## Everything that is done to a world -/

namespace Accounted

variable {w : World κ} {kept : List Guard} {n : NodeId} {t view : View κ}

theorem distinct (h : w.Accounted kept) : w.forest.Distinct := by
  rw [Forest.Distinct, ← View.ids_ledger]
  exact ViewBinding.Accounted.distinct h

/-- All numbers of nodes are used up. -/
theorem lt_next (h : w.Accounted kept) {i : NodeId} (hi : i ∈ Forest.ids w.forest) : i < w.next := by
  rw [← View.ids_ledger] at hi
  obtain ⟨x, hx, rfl⟩ := List.mem_map.1 hi
  exact ViewBinding.Accounted.below h x hx

theorem owned (h : w.Accounted kept) :
    w.stores.Owned ((View.ledger w.forest).guards ++ kept) :=
  ViewBinding.Accounted.owned h

/-- Nodes that were moved keep what they hold (`append_child`, `insert_before`, `remove_child`). -/
theorem of_perm (h : w.Accounted kept) {forest : Forest (Node κ)}
    (hperm : forest.nodes ~ w.forest.nodes) :
    ({ w with forest := forest } : World κ).Accounted kept :=
  ViewBinding.Accounted.perm h (View.ledger_perm hperm.symm)

/-- Stores that changed, and lists of guards with them. -/
theorem of_stores (h : w.Accounted kept) {stores : Stores κ} {kept' : List Guard}
    (hlast : w.stores.Last stores)
    (howned : stores.Owned ((View.ledger w.forest).guards ++ kept')) :
    ({ w with stores := stores } : World κ).Accounted kept' :=
  ⟨ViewBinding.Accounted.distinct h, ViewBinding.Accounted.below h, howned,
    fun _ hx _ hg => ViewBinding.Accounted.aims h hlast hx hg⟩

/-- Lists of guards that were ended (`endGuards`). -/
theorem endGuards {gs : List Guard} (h : w.Accounted (gs ++ kept)) :
    ({ w with stores := w.stores.endGuards gs } : World κ).Accounted kept := by
  refine h.of_stores (Stores.rewired_endGuards gs w.stores).last (Stores.Owned.endGuards ?_)
  refine h.owned.perm ?_
  rw [← List.append_assoc, ← List.append_assoc]
  exact perm_append_comm.append_right _

/-- A view was worked on, and stands in its place (`World.settle`). -/
theorem settle (h : w.Accounted kept) (ht : w.forest.find? n = some t) {wiring : Wiring κ}
    (hkeeps : Keeps [t] w.wiring [view] wiring) : (w.settle n view wiring).Accounted kept := by
  have hbefore : View.ledger w.forest ~
      View.ledger [t] ++ View.ledger w.wiring.removed ++ View.ledger (w.forest.erase n) := by
    rw [show w.wiring.removed = [] from rfl, View.ledger_nil, List.append_nil]
    exact View.ledger_of_find? h.distinct ht
  refine (hkeeps _ kept (ViewBinding.Accounted.perm h hbefore)).perm ?_
  have hafter := View.ledger_expand h.distinct ht fun _ => [view]
  rw [World.settle, View.ledger_append]
  rw [List.append_assoc]
  refine (perm_append_comm.append_left _).trans ?_
  rw [← List.append_assoc]
  exact hafter.symm.append_right _

theorem build (h : w.Accounted kept) (m : Markup) : (w.build m).Accounted kept := by
  have hnew := w.wiring.keeps_ofMarkup m (View.ledger w.forest) kept h
  rw [show View.ledger (w.wiring.removed) = [] from View.ledger_nil, List.append_nil] at hnew
  refine hnew.perm ?_
  rw [World.build, View.ledger_append]
  exact perm_append_comm

theorem updateNode (h : w.Accounted kept) (n : NodeId) {f : Node κ → Node κ}
    (hf : ∀ m, (f m).guards = m.guards) : (w.updateNode n f).Accounted kept := by
  rcases hfound : w.forest.find? n with _ | t
  · rw [World.updateNode, Forest.update, Forest.expand_of_not_mem (Forest.not_mem_of_find? hfound)]
    exact h
  · have hroot : View.ledger [t.mapRoot f] = View.ledger [t] := by
      obtain ⟨id, m, row⟩ := t
      simp [Tree.mapRoot, hf]
    have hafter := View.ledger_expand h.distinct hfound fun s => [s.mapRoot f]
    rw [hroot] at hafter
    exact ViewBinding.Accounted.perm h
      ((View.ledger_of_find? h.distinct hfound).trans hafter.symm)

/-- The guards of a node were moved to a list (`take_subscriptions`). -/
theorem take (h : w.Accounted kept) (ht : w.forest.find? n = some t) :
    (w.updateNode n (·.clearGuards)).Accounted (t.val.guards ++ kept) := by
  obtain ⟨id, m, row⟩ := t
  have hbefore := ViewBinding.Accounted.perm h (View.ledger_of_find? h.distinct ht)
  have hafter := View.ledger_expand h.distinct ht fun s => [s.mapRoot (·.clearGuards)]
  rw [Tree.mapRoot, View.ledger_node, View.ledger_nil, List.append_nil] at hafter
  rw [View.ledger_node, View.ledger_nil, List.append_nil] at hbefore
  have hmoved : ViewBinding.Accounted
      ((id, []) :: (View.ledger row ++ View.ledger (w.forest.erase n))) (m.guards ++ kept) w.stores
      w.next := by
    refine ⟨hbefore.distinct, fun x hx => ?_, hbefore.owned.perm ?_, fun x hx g hg => ?_⟩
    · rcases List.mem_cons.1 hx with rfl | hx
      · exact hbefore.below (id, m.guards) List.mem_cons_self
      · exact hbefore.below x (List.mem_cons_of_mem _ hx)
    · simp only [List.cons_append, Ledger.guards_cons, List.nil_append, List.append_assoc]
      exact perm_append_comm_assoc _ _ _
    · rcases List.mem_cons.1 hx with rfl | hx
      · exact absurd hg List.not_mem_nil
      · exact hbefore.aimed x (List.mem_cons_of_mem _ hx) g hg
  exact hmoved.perm hafter.symm

/-- A view was released: nothing in it holds a guard any more (`release_subtree`). -/
theorem release (h : w.Accounted kept) (held : StoreId → Bool) (n : NodeId) :
    (w.release held n).2.Accounted kept := by
  unfold World.release
  split
  · exact h
  · next t ht =>
    have hparts := ViewBinding.Accounted.perm h (View.ledger_of_find? h.distinct ht)
    have hcleared : View.ledger [View.released t] = (View.ledger [t]).cleared := by
      rw [← View.ledger_released]
      simp [View.released, Forest.map]
    have hafter := View.ledger_expand h.distinct ht fun s => [View.released s]
    have hguards : (t.nodes.map Prod.snd).flatMap (·.guards) = (View.ledger [t]).guards := by
      rw [View.guards_ledger, View.guards, List.flatMap_map]
    have hclear := hparts.clear
    rw [← hguards, ← stores_releaseNodes
      (fun id => held id || View.keepsStore id (w.forest.erase n)), ← hcleared] at hclear
    exact hclear.perm hafter.symm

/-- Nodes that nobody holds take their subscriptions with them (`World.sweep`). -/
theorem sweep (h : w.Accounted kept) (held : NodeId → Bool) : (w.sweep held).Accounted kept := by
  obtain ⟨dead, hledger, hguards⟩ := ledger_sweepRow held w.forest
  have hdrop := (ViewBinding.Accounted.perm h hledger).drop
  rw [← hguards] at hdrop
  exact hdrop

end Accounted

/-- **Whatever is bound in a world**, from `setText` to `compile`, it stays accounted for. -/
theorem settlewise_accounted :
    Settlewise (Keeps (κ := κ)) fun w w' => ∀ kept, w.Accounted kept → w'.Accounted kept where
  toBindwise := Wiring.bindwise_keeps
  same _ _ h := h
  settle ht hkeeps _ h := h.settle ht hkeeps
  showField _ n value _ h := h.updateNode n fun m => m.guards_setValue value
  showText _ n text _ h := h.updateNode n fun m => m.guards_setPayload text

theorem Accounted.setText {w : World κ} {kept : List Guard} (h : w.Accounted kept) (n : NodeId)
    (text : String) : (w.setText n text).2.Accounted kept :=
  settlewise_accounted.setText w n text kept h

end World

/-! ## Visits -/

namespace Visit

/-- A visit keeps the accounts, whatever the client's visitor does (`Visit.change`). -/
theorem preserves_accounted (kept : List Guard) :
    Preserves fun w : World κ => w.Accounted kept where
  detach id h := h.of_perm (Forest.nodes_detach h.distinct id)
  add parent m h := (h.build m).of_perm (Forest.nodes_append_child (h.build m).distinct parent _)

end Visit

end ViewBinding
