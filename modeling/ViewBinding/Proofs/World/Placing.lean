import ViewBinding.Proofs.World.Relinking

/-!
# Where a node is put

What is put in front of another node is first taken out of the row where it stands, be that the same
row or another one; only then is the place looked for.  The row may be shorter by that time, but it is
a node that is looked for and no number, so a node that moves within its own row, to the left or to
the right, comes to stand right where it should.  A node that is put in front of itself is not
there any more when it is looked for, and goes to the end.

* `Links.putBefore_of_mem` — the place in a row.
* `Forest.row_insertBefore` — all rows after a node was put somewhere.
* `insertBefore_places` — where the node stands then, and what else changed.
-/

namespace ViewBinding

open List

/-- A node that is put in front of another one stands right there (`putBefore`). -/
theorem Links.putBefore_of_mem (c : Nat) {r : Nat} {row : List Nat} (hd : row.Nodup) (hr : r ∈ row) :
    ∃ xs ys, row = xs ++ r :: ys ∧ putBefore c r row = xs ++ c :: r :: ys := by
  obtain ⟨xs, ys, rfl⟩ := List.append_of_mem hr
  obtain ⟨-, htail, hdisjoint⟩ := List.nodup_append.1 hd
  have hxs : r ∉ xs := fun hin => hdisjoint r hin r List.mem_cons_self rfl
  have hys : r ∉ ys := (List.nodup_cons.1 htail).1
  refine ⟨xs, ys, rfl, ?_⟩
  rw [putBefore_eq_flatMap c r hd hr, List.flatMap_append, List.flatMap_cons, if_pos rfl,
    Forest.flatMap_ite_of_not_mem hxs, Forest.flatMap_ite_of_not_mem hys]
  rfl

/-- Without the node that was put there, the row is what it was (`putBefore`). -/
theorem Links.erase_putBefore {c : Nat} (r : Nat) {row : List Nat} (hd : row.Nodup) (hc : c ∉ row) :
    (putBefore c r row).erase c = row := by
  by_cases hr : r ∈ row
  · obtain ⟨xs, ys, hold, hnew⟩ := putBefore_of_mem c hd hr
    have hxs : c ∉ xs := fun hin => hc (hold ▸ List.mem_append_left _ hin)
    rw [hnew, List.erase_append_right _ hxs, List.erase_cons_head, ← hold]
  · rw [putBefore_of_not_mem c r hr, List.erase_append_right _ hc, List.erase_cons_head,
      List.append_nil]

/-- A member that goes to the end leaves the row as it is just if it stands there already. -/
theorem erase_concat_eq_self_iff {c : Nat} {row : List Nat} (hd : row.Nodup) :
    row.erase c ++ [c] = row ↔ row.getLast? = some c := by
  constructor
  · intro hsame
    rw [← hsame, List.getLast?_concat]
  · intro hend
    obtain ⟨xs, rfl⟩ := List.getLast?_eq_some_iff.1 hend
    obtain ⟨-, -, hdisjoint⟩ := List.nodup_append.1 hd
    have hnot : c ∉ xs := fun hin => hdisjoint c hin c List.mem_cons_self rfl
    rw [List.erase_append_right _ hnot, List.erase_cons_head, List.append_nil]

namespace Forest

variable {α : Type} {ts : Forest α} {p c r : Nat}

/-- All rows after a node was put in front of another one: `insert_before` appends it if the other one is
not there, or is the node itself. -/
theorem row_insertBefore (hd : ts.Distinct) {t : Tree α} (ht : ts.movable? p c = some t)
    (r q : Nat) : (ts.insertBefore p c r).row q =
      if q = p then Links.putBefore c r ((ts.row q).erase c) else (ts.row q).erase c := by
  have hrow := congrArg (fun l => Links.children l q) (Links.of_insertBefore hd ht r)
  exact hrow.trans ((Links.consistent_of hd).children_insertBefore p c r q)

end Forest

namespace Session

/-- **Where a node is put.**  In every session, a node that is neither `p` nor above it is put
into the row of `p` in front of a node that stands there.  If that is another node, it comes to stand,
once, right in front of it, wherever it was before: earlier or later in the row, in another row, or in
none.  If it is the node itself, it goes to the end of the row, so that the row is the same only if it
was the last one already.  Either way the other nodes of the row keep their order, every other row loses
just the node, and all nodes are what they were. -/
theorem insertBefore_places {model : Json.Value} {methods : List (String × Client)} {s : Session}
    (hs : Moves (start model methods) s) {p c r : NodeId} (hr : r ∈ s.world.forest.row p)
    (hc : s.world.MayStandBelow p c) :
    let before := s.world.forest
    let after := before.insertBefore p c r
    (after.row p).count c = 1 ∧
      (after.row p).erase c = (before.row p).erase c ∧
      (c ≠ r → ∃ xs ys, after.row p = xs ++ c :: r :: ys ∧ (before.row p).erase c = xs ++ r :: ys) ∧
      (c = r → after.row p = (before.row p).erase c ++ [c] ∧
        (after.row p = before.row p ↔ (before.row p).getLast? = some c)) ∧
      after.parent? c = some p ∧
      (∀ q ≠ p, after.row q = (before.row q).erase c) ∧
      after.nodes ~ before.nodes := by
  intro before after
  have hd : before.Distinct := hs.accounted.world.distinct
  obtain ⟨t, ht⟩ := World.Accounted.exists_movable hc
  have hnodes : after.nodes ~ before.nodes := Forest.nodes_insertBefore hd p c r
  have hafter : after.Distinct := hd.of_perm hnodes
  have hbefore : (before.row p).Nodup := Forest.nodup_row hd p
  -- the row without the node, in which the place is looked for
  have hgone : c ∉ (before.row p).erase c := hbefore.not_mem_erase
  have hrow : after.row p = Links.putBefore c r ((before.row p).erase c) := by
    have hall := Forest.row_insertBefore hd ht r p
    rwa [if_pos rfl] at hall
  have hperm : after.row p ~ c :: (before.row p).erase c := hrow ▸ Links.putBefore_perm c r _
  have hin : c ∈ after.row p := hperm.symm.subset List.mem_cons_self
  have hplaced : c ≠ r → ∃ xs ys, after.row p = xs ++ c :: r :: ys ∧
      (before.row p).erase c = xs ++ r :: ys := by
    intro hne
    obtain ⟨xs, ys, hold, hnew⟩ := Links.putBefore_of_mem c (hbefore.erase c)
      ((List.mem_erase_of_ne (Ne.symm hne)).2 hr)
    exact ⟨xs, ys, hrow.trans hnew, hold⟩
  have hlast : c = r → after.row p = (before.row p).erase c ++ [c] := by
    rintro rfl
    exact hrow.trans (Links.putBefore_of_not_mem c c hgone)
  refine ⟨?_, ?_, hplaced, fun heq => ⟨hlast heq, ?_⟩, ?_, fun q hq => ?_, hnodes⟩
  · exact List.count_eq_one_of_mem (Forest.nodup_row hafter p) hin
  · rw [hrow]
    exact Links.erase_putBefore r (hbefore.erase c) hgone
  · rw [hlast heq]
    exact erase_concat_eq_self_iff hbefore
  · exact (Forest.mem_row_iff hafter).1 hin
  · have hall := Forest.row_insertBefore hd ht r q
    rwa [if_neg hq] at hall

/-- The last of `threeItems` is put in front of the second; the first one is put in front of itself, and is
the last one then. -/
theorem item_before_itself_goes_last :
    let ts := threeItems.world.forest
    ts.row 0 = [1, 2, 4] ∧
      (∃ xs ys, (ts.insertBefore 0 4 2).row 0 = xs ++ 4 :: 2 :: ys ∧ [1, 2] = xs ++ 2 :: ys) ∧
      (ts.insertBefore 0 1 1).row 0 = [2, 4, 1] ∧ (ts.insertBefore 0 1 1).row 0 ≠ ts.row 0 := by
  intro ts
  have hreachable : Moves (start (.ofMembers []) []) threeItems := moves_runs _ _
  have hrow : ts.row 0 = [1, 2, 4] := by decide +kernel
  have hsecond : 2 ∈ ts.row 0 := by simp [hrow]
  have hfirst : 1 ∈ ts.row 0 := by simp [hrow]
  obtain ⟨-, -, hmoved, -⟩ :=
    insertBefore_places hreachable (p := 0) (c := 4) hsecond (by decide +kernel)
  obtain ⟨-, -, -, hself, -⟩ :=
    insertBefore_places hreachable (p := 0) (c := 1) hfirst (by decide +kernel)
  obtain ⟨xs, ys, hnew, hold⟩ := hmoved (by decide)
  obtain ⟨hend, hsame⟩ := hself rfl
  rw [hrow] at hold hend
  refine ⟨hrow, ⟨xs, ys, hnew, hold⟩, hend, fun heq => ?_⟩
  have hlast := hsame.1 heq
  rw [hrow] at hlast
  exact absurd hlast (by decide)

end Session

end ViewBinding
