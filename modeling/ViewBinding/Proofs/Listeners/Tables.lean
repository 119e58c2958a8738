import ViewBinding.View.Node
import Mathlib.Tactic.Common

/-!
# The table of listeners of a node

Whatever happens to a node, its table only changes in that a listener is added, one is removed, or all
are cleared (`Node.Life`).  A life tells the numbers that it issues.  They follow one another without a
gap and none is issued twice, however the table was emptied in between (`Life.issued_eq`), the table
stays in the order of the numbers (`Life.orderly`), and what was removed does not come back
(`Life.sublist`).
-/

namespace ViewBinding

namespace Node

variable {κ : Type}

/-- How the table of a node changed, with the numbers that were issued meanwhile, in their order:
`add_event_listener` issues one, nothing else does. -/
inductive Life : Node κ → List Nat → Node κ → Prop
  /-- The table is the same; anything else may have changed. -/
  | same {n m : Node κ} (hlisteners : m.listeners = n.listeners)
      (hnext : m.nextListener = n.nextListener) : Life n [] m
  /-- A listener was added. -/
  | add (n : Node κ) (event : String) (listener : Listener κ) :
      Life n [n.nextListener] (n.addListener event listener)
  /-- A listener was removed, if it was there. -/
  | remove (n : Node κ) (id : Nat) : Life n [] (n.removeListener id)
  /-- All listeners were removed. -/
  | clear (n : Node κ) : Life n [] n.clearListeners
  /-- One change after the other. -/
  | trans {n m o : Node κ} {issued later : List Nat} (h₁ : Life n issued m) (h₂ : Life m later o) :
      Life n (issued ++ later) o

/-- Whether the listeners stand in the order of their numbers, all of which have been issued. -/
structure Orderly (n : Node κ) : Prop where
  ordered : (n.listeners.map (·.id)).Pairwise (· < ·)
  issued : ∀ r ∈ n.listeners, r.id < n.nextListener

/-- Whether a node becomes another one by changes of its table (`Life`). -/
def Becomes (n m : Node κ) : Prop := ∃ issued, Life n issued m

/-- Whether a node began with an empty table, from which no number had been issued. -/
def Born (n : Node κ) : Prop :=
  ∃ first : Node κ, first.listeners = [] ∧ first.nextListener = 0 ∧ first.Becomes n

namespace Life

variable {n m : Node κ} {issued : List Nat}

/-- **No number is issued twice**: the numbers that are issued follow the earlier ones (`nextListener`)
without a gap. -/
theorem issued_eq (h : Life n issued m) :
    issued = List.range' n.nextListener issued.length ∧
      m.nextListener = n.nextListener + issued.length := by
  induction h with
  | same hlisteners hnext => exact ⟨rfl, hnext⟩
  | add n event listener => exact ⟨rfl, rfl⟩
  | remove n id => exact ⟨rfl, rfl⟩
  | clear n => exact ⟨rfl, rfl⟩
  | trans h₁ h₂ ih₁ ih₂ =>
    obtain ⟨hfirst, hmiddle⟩ := ih₁
    obtain ⟨hlater, hlast⟩ := ih₂
    rw [hmiddle] at hlater hlast
    rw [List.length_append]
    refine ⟨?_, by omega⟩
    conv_lhs => rw [hfirst, hlater]
    rw [List.range'_append_1]

theorem nextListener_le (h : Life n issued m) : n.nextListener ≤ m.nextListener := by
  rw [h.issued_eq.2]
  exact Nat.le_add_right _ _

/-- The table stays in order (`Orderly`). -/
theorem orderly (h : Life n issued m) (hn : n.Orderly) : m.Orderly := by
  induction h with
  | same hlisteners hnext => exact ⟨hlisteners ▸ hn.ordered, by rw [hlisteners, hnext]; exact hn.issued⟩
  | add n event listener =>
    refine ⟨?_, fun r hr => ?_⟩
    · rw [addListener, List.map_append, List.pairwise_append]
      refine ⟨hn.ordered, List.pairwise_singleton _ _, fun i hi j hj => ?_⟩
      obtain ⟨r, hr, rfl⟩ := List.mem_map.1 hi
      rw [List.map_singleton, List.mem_singleton] at hj
      exact hj ▸ hn.issued r hr
    · rcases List.mem_append.1 hr with hr | hr
      · exact Nat.lt_succ_of_lt (hn.issued r hr)
      · rw [List.mem_singleton.1 hr]
        exact Nat.lt_succ_self _
  | remove n id =>
    exact ⟨hn.ordered.sublist (List.filter_sublist.map _),
      fun r hr => hn.issued r (List.mem_filter.1 hr).1⟩
  | clear n => exact ⟨List.Pairwise.nil, fun r hr => absurd hr List.not_mem_nil⟩
  | trans h₁ h₂ ih₁ ih₂ => exact ih₂ (ih₁ hn)

/-- **What was removed does not come back**: of the listeners that have an old number there are some,
in their order, and no others. -/
theorem sublist (h : Life n issued m) :
    (m.listeners.filter fun r => r.id < n.nextListener).Sublist n.listeners := by
  induction h with
  | same hlisteners hnext => exact hlisteners ▸ List.filter_sublist
  | add n event listener =>
    have hold : (n.addListener event listener).listeners.filter (fun r => r.id < n.nextListener) =
        n.listeners.filter fun r => r.id < n.nextListener := by
      simp [addListener]
    exact hold ▸ List.filter_sublist
  | remove n id => exact List.filter_sublist.trans List.filter_sublist
  | clear n => exact List.nil_sublist _
  | @trans n m o issued later h₁ h₂ ih₁ ih₂ =>
    -- what is old for the first node is old for the second
    have hle := h₁.nextListener_le
    have hsame : (o.listeners.filter fun r => r.id < m.nextListener).filter
        (fun r => r.id < n.nextListener) = o.listeners.filter fun r => r.id < n.nextListener := by
      rw [List.filter_filter]
      refine List.filter_congr fun r _ => ?_
      grind
    rw [← hsame]
    exact (ih₂.filter _).trans ih₁

end Life

namespace Becomes

variable {n m o : Node κ}

theorem same (hlisteners : m.listeners = n.listeners) (hnext : m.nextListener = n.nextListener) :
    n.Becomes m :=
  ⟨_, .same hlisteners hnext⟩

theorem refl (n : Node κ) : n.Becomes n := .same rfl rfl

theorem trans : n.Becomes m → m.Becomes o → n.Becomes o := fun ⟨_, h₁⟩ ⟨_, h₂⟩ => ⟨_, h₁.trans h₂⟩

theorem setPayload (n : Node κ) (text : String) : n.Becomes (n.setPayload text) := by
  unfold Node.setPayload
  split <;> exact .same rfl rfl

theorem setValue (n : Node κ) (value : String) : n.Becomes (n.setValue value) := by
  unfold Node.setValue
  split <;> exact .same rfl rfl

theorem setAttribute (n : Node κ) (name value : String) : n.Becomes (n.setAttribute name value) := by
  unfold Node.setAttribute
  split <;> exact .same rfl rfl

/-- A node that is released loses its listeners; the next number stays (`nextListener`). -/
theorem release (n : Node κ) : n.Becomes n.release :=
  ⟨_, (Life.clear n).trans (.same rfl rfl)⟩

end Becomes

namespace Born

variable {n m : Node κ}

theorem of_unbound (hlisteners : n.listeners = []) (hnext : n.nextListener = 0) : n.Born :=
  ⟨n, hlisteners, hnext, .refl n⟩

theorem becomes (h : n.Born) (hm : n.Becomes m) : m.Born := by
  obtain ⟨first, hempty, hzero, hfirst⟩ := h
  exact ⟨first, hempty, hzero, hfirst.trans hm⟩

theorem orderly (h : n.Born) : n.Orderly := by
  obtain ⟨first, hempty, -, issued, hlife⟩ := h
  exact hlife.orderly ⟨by rw [hempty]; exact List.Pairwise.nil, by simp [hempty]⟩

end Born

/-! ## Removing -/

/-- What the table of an orderly node is after a listener was removed (`remove_event_listener`): the one of
that number is gone, if there was one, and the others stand as they stood. -/
theorem Orderly.removeListener_cases {n : Node κ} (h : n.Orderly) (id : Nat) :
    (n.hasListener id = false ∧ id ∉ n.listeners.map (·.id) ∧
        (n.removeListener id).listeners = n.listeners) ∨
      ∃ before r after, n.hasListener id = true ∧ r.id = id ∧
        n.listeners = before ++ r :: after ∧ (n.removeListener id).listeners = before ++ after := by
  cases hfound : n.hasListener id with
  | false =>
    rw [hasListener, List.any_eq_false] at hfound
    have hnone : ∀ r ∈ n.listeners, r.id ≠ id := fun r hr => by simpa using hfound r hr
    refine Or.inl ⟨rfl, fun hid => ?_, List.filter_eq_self.2 fun r hr => by simpa using hnone r hr⟩
    obtain ⟨r, hr, heq⟩ := List.mem_map.1 hid
    exact hnone r hr heq
  | true =>
    obtain ⟨r, hr, hid⟩ := List.any_eq_true.1 hfound
    obtain ⟨before, after, hsplit⟩ := List.append_of_mem hr
    obtain rfl : r.id = id := by simpa using hid
    have hordered := h.ordered
    rw [hsplit, List.map_append, List.map_cons, List.pairwise_append, List.pairwise_cons] at hordered
    obtain ⟨-, ⟨hafter, -⟩, hbefore⟩ := hordered
    refine Or.inr ⟨before, r, after, rfl, rfl, hsplit, ?_⟩
    have hkeepBefore : ∀ r' ∈ before, r'.id ≠ r.id := fun r' hr' =>
      Nat.ne_of_lt (hbefore _ (List.mem_map_of_mem hr') _ List.mem_cons_self)
    have hkeepAfter : ∀ r' ∈ after, r'.id ≠ r.id := fun r' hr' =>
      Nat.ne_of_gt (hafter _ (List.mem_map_of_mem hr'))
    rw [removeListener, hsplit, List.filter_append, List.filter_cons_of_neg (by simp),
      List.filter_eq_self.2 fun r' hr' => by simpa using hkeepBefore r' hr',
      List.filter_eq_self.2 fun r' hr' => by simpa using hkeepAfter r' hr']

end Node

end ViewBinding
