import Mathlib.Data.List.Nodup
import Mathlib.Logic.Function.Basic

/-!
# Links

The links of nodes as they are stored: the parent of every node and the row of its children, each
for itself.  What moves a node changes both, in several steps: it takes the node out of the row where
it stands, looks up the place in the row where it goes, and only then writes the two new links.

* `Consistent.remove`, `Consistent.detach`, `Consistent.append`, `Consistent.insertBefore`,
  `Consistent.replace` — no change makes the two kinds of links differ.
* `Consistent.children_append` and its like — only the rows of the old and the new parent change.
-/

namespace ViewBinding

open List

/-- The links of nodes, named by numbers: upward and downward, stored apart from each other. -/
structure Links where
  parent : Nat → Option Nat
  children : Nat → List Nat

namespace Links

/-! ## Changes -/

/-- The links with the `parent` of a node changed, and no row. -/
def setParent (l : Links) (n : Nat) (parent : Option Nat) : Links :=
  { l with parent := Function.update l.parent n parent }

/-- The links with the row below a node changed, and no `parent`. -/
def setChildren (l : Links) (n : Nat) (row : List Nat) : Links :=
  { l with children := Function.update l.children n row }

/-- Takes `child` out of the row below `parent`, if it stands there. -/
def remove (parent child : Nat) (l : Links) : Links :=
  if child ∈ l.children parent then
    (l.setChildren parent ((l.children parent).erase child)).setParent child none
  else l

/-- Takes a node out of the row in which it stands, and then its parent from it (`detach`). -/
def detach (n : Nat) (l : Links) : Links :=
  match l.parent n with
  | some parent => l.remove parent n
  | none => l

/-- Puts `child` at the end of the row below `parent`. -/
def append (parent child : Nat) (l : Links) : Links :=
  let l := l.detach child
  (l.setParent child (some parent)).setChildren parent (l.children parent ++ [child])

/-- A row with a node right in front of another one, or at the end if that is not there (`index_of`). -/
def putBefore (child reference : Nat) (row : List Nat) : List Nat :=
  match row.idxOf? reference with
  | some i => row.insertIdx i child
  | none => row ++ [child]

/-- Puts `child` into the row below `parent`, right in front of `reference` if that stands there once
`child` is taken out of its place. -/
def insertBefore (parent child reference : Nat) (l : Links) : Links :=
  let l := l.detach child
  (l.setParent child (some parent)).setChildren parent
    (putBefore child reference (l.children parent))

/-- Takes all nodes out of the row below a node, as `set_text_content` does first. -/
def clear (n : Nat) (l : Links) : Links where
  parent c := if c ∈ l.children n then none else l.parent c
  children := Function.update l.children n []

/-- Puts new nodes in the place of the row below a node, one after the other. -/
def replace (n : Nat) (fresh : List Nat) (l : Links) : Links :=
  fresh.foldl (fun l k => l.append n k) (l.clear n)

/-! ## Consistency -/

/-- Whether both kinds of links say the same, and no row has a node twice. -/
structure Consistent (l : Links) : Prop where
  /-- A node stands in the row below its parent, and in no other. -/
  linked : ∀ p c, c ∈ l.children p ↔ l.parent c = some p
  /-- It stands there once. -/
  nodup : ∀ p, (l.children p).Nodup

variable {l : Links}

theorem Consistent.ext {k : Links} (hl : l.Consistent) (hk : k.Consistent)
    (h : ∀ p, l.children p = k.children p) : l = k := by
  have hparent : l.parent = k.parent := funext fun c => Option.ext fun p => by
    rw [← hl.linked, ← hk.linked, h]
  have hchildren : l.children = k.children := funext h
  cases l
  cases k
  simp_all

theorem children_setParent (n : Nat) (parent : Option Nat) (p : Nat) :
    (l.setParent n parent).children p = l.children p := rfl

theorem children_setChildren (n : Nat) (row : List Nat) (p : Nat) :
    (l.setChildren n row).children p = if p = n then row else l.children p := by
  simp only [setChildren, Function.update_apply]

theorem parent_setParent (n : Nat) (parent : Option Nat) (c : Nat) :
    (l.setParent n parent).parent c = if c = n then parent else l.parent c := by
  simp only [setParent, Function.update_apply]

theorem parent_setChildren (n : Nat) (row : List Nat) (c : Nat) :
    (l.setChildren n row).parent c = l.parent c := rfl

/-- A node that is taken out of the row below its parent is in no row, and the links are `Consistent`
again. -/
theorem Consistent.cut (hl : l.Consistent) {p c : Nat} (hc : l.parent c = some p) :
    ((l.setChildren p ((l.children p).erase c)).setParent c none).Consistent where
  linked q d := by
    rw [children_setParent, children_setChildren, parent_setParent, parent_setChildren]
    by_cases hd : d = c
    · -- the node was in the row of `p` only
      rw [if_pos hd, hd]
      refine ⟨fun hin => ?_, fun h => absurd h (by simp)⟩
      split at hin
      · exact absurd hin (hl.nodup p).not_mem_erase
      · next hq =>
        rw [hl.linked, hc] at hin
        exact absurd (Option.some.inj hin).symm hq
    · rw [if_neg hd, ← hl.linked]
      split
      · next hq => rw [hq, List.mem_erase_of_ne hd]
      · rfl
  nodup q := by
    rw [children_setParent, children_setChildren]
    split
    · exact (hl.nodup p).erase c
    · exact hl.nodup q

/-- A node without a parent that is put into a row leaves the links `Consistent`. -/
theorem Consistent.put (hl : l.Consistent) {p c : Nat} (hc : l.parent c = none) {row : List Nat}
    (hrow : row ~ c :: l.children p) :
    ((l.setParent c (some p)).setChildren p row).Consistent where
  linked q d := by
    rw [children_setChildren, parent_setChildren, parent_setParent, children_setParent]
    by_cases hd : d = c
    · rw [if_pos hd, hd]
      split
      · next hq => simp [hrow.mem_iff, hq]
      · next hq =>
        rw [hl.linked, hc]
        simpa using Ne.symm hq
    · rw [if_neg hd, ← hl.linked]
      split
      · next hq => simp [hrow.mem_iff, hq, hd]
      · rfl
  nodup q := by
    rw [children_setChildren, children_setParent]
    split
    · rw [hrow.nodup_iff, List.nodup_cons, hl.linked, hc]
      exact ⟨by simp, hl.nodup p⟩
    · exact hl.nodup q

theorem Consistent.remove (hl : l.Consistent) (p c : Nat) : (l.remove p c).Consistent := by
  unfold Links.remove
  split
  · next hc => exact hl.cut ((hl.linked p c).1 hc)
  · exact hl

theorem Consistent.detach (hl : l.Consistent) (n : Nat) : (l.detach n).Consistent := by
  unfold Links.detach
  split
  · exact hl.remove _ n
  · exact hl

theorem children_remove (p c q : Nat) :
    (l.remove p c).children q = if q = p then (l.children q).erase c else l.children q := by
  unfold Links.remove
  split
  · rw [children_setParent, children_setChildren]
    split
    · next hq => rw [hq]
    · rfl
  · next hc =>
    split
    · next hq => rw [hq, List.erase_of_not_mem hc]
    · rfl

/-- A detached node is in no row; `detach` leaves the others in their order. -/
theorem Consistent.children_detach (hl : l.Consistent) (n q : Nat) :
    (l.detach n).children q = (l.children q).erase n := by
  unfold Links.detach
  split
  · next p hp =>
    rw [children_remove]
    split
    · rfl
    · next hq =>
      rw [List.erase_of_not_mem]
      rw [hl.linked, hp]
      simpa using Ne.symm hq
  · next hp =>
    rw [List.erase_of_not_mem]
    rw [hl.linked, hp]
    simp

/-- A detached node has no parent. -/
theorem Consistent.parent_detach (hl : l.Consistent) (n : Nat) : (l.detach n).parent n = none := by
  rw [Option.eq_none_iff_forall_ne_some]
  intro p hp
  rw [← (hl.detach n).linked, hl.children_detach] at hp
  exact (hl.nodup p).not_mem_erase hp

theorem putBefore_perm (child reference : Nat) (row : List Nat) :
    putBefore child reference row ~ child :: row := by
  unfold putBefore
  split
  · next i hi =>
    have hlength : i ≤ row.length := Nat.le_of_lt (List.idxOf?_eq_some_iff.1 hi).1
    exact List.perm_insertIdx child row hlength
  · exact List.perm_append_singleton child row

theorem Consistent.append (hl : l.Consistent) (p c : Nat) : (l.append p c).Consistent :=
  (hl.detach c).put (hl.parent_detach c) (List.perm_append_singleton c _)

theorem Consistent.insertBefore (hl : l.Consistent) (p c r : Nat) :
    (l.insertBefore p c r).Consistent :=
  (hl.detach c).put (hl.parent_detach c) (putBefore_perm c r _)

theorem children_clear (n p : Nat) :
    (l.clear n).children p = if p = n then [] else l.children p := by
  simp only [Links.clear, Function.update_apply]

theorem parent_clear (n c : Nat) :
    (l.clear n).parent c = if c ∈ l.children n then none else l.parent c := rfl

theorem Consistent.clear (hl : l.Consistent) (n : Nat) : (l.clear n).Consistent where
  linked p c := by
    rw [children_clear, parent_clear]
    by_cases hc : c ∈ l.children n
    · -- the node was in the row of `n` only
      rw [if_pos hc]
      refine ⟨fun hin => ?_, fun h => absurd h (by simp)⟩
      split at hin
      · exact absurd hin (by simp)
      · next hp =>
        rw [hl.linked, (hl.linked n c).1 hc] at hin
        exact absurd (Option.some.inj hin).symm hp
    · rw [if_neg hc, ← hl.linked]
      split
      · next hp => simp [hp, hc]
      · rfl
  nodup p := by
    rw [children_clear]
    split
    · exact List.nodup_nil
    · exact hl.nodup p

theorem Consistent.replace (hl : l.Consistent) (n : Nat) (fresh : List Nat) :
    (l.replace n fresh).Consistent := by
  have happended : ∀ k : Links, k.Consistent →
      (fresh.foldl (fun k c => k.append n c) k).Consistent := by
    induction fresh with
    | nil => exact fun k hk => hk
    | cons c fresh ih => exact fun k hk => ih _ (hk.append n c)
  exact happended _ (hl.clear n)

/-! ## What stays -/

theorem Consistent.children_append (hl : l.Consistent) (p c q : Nat) :
    (l.append p c).children q =
      if q = p then (l.children q).erase c ++ [c] else (l.children q).erase c := by
  rw [Links.append, children_setChildren, children_setParent, hl.children_detach,
    hl.children_detach]
  split
  · next hq => rw [hq]
  · rfl

theorem Consistent.children_insertBefore (hl : l.Consistent) (p c r q : Nat) :
    (l.insertBefore p c r).children q =
      if q = p then putBefore c r ((l.children q).erase c) else (l.children q).erase c := by
  rw [Links.insertBefore, children_setChildren, children_setParent, hl.children_detach,
    hl.children_detach]
  split
  · next hq => rw [hq]
  · rfl

/-- The rows when new nodes were put in the place of one (`replace`), at most one of them. -/
theorem Consistent.children_replace (hl : l.Consistent) (n q : Nat) {fresh : List Nat}
    (hfresh : fresh.length ≤ 1) (hnew : ∀ k ∈ fresh, ∀ p, k ∉ l.children p) :
    (l.replace n fresh).children q = if q = n then fresh else l.children q := by
  match fresh, hfresh, hnew with
  | [], _, _ => rw [Links.replace, List.foldl_nil, children_clear]
  | [k], _, hnew =>
    have hk := hnew k List.mem_cons_self q
    rw [Links.replace, List.foldl_cons, List.foldl_nil, (hl.clear n).children_append,
      children_clear]
    split
    · rfl
    · rw [List.erase_of_not_mem hk]

end Links

end ViewBinding
