import ViewBinding.Table
import Mathlib.Tactic.Common

/-!
# Tables in order

A table in the order of its names has each name once, so that looking a name up finds all there is
under it.  Inserting and erasing keep the order; what they make of the entries is said up to the order
(`Ordered.perm_insert`, `Ordered.perm_of_get?`).
-/

namespace ViewBinding

namespace Table

variable {α : Type}

/-- Whether the entries of a table stand in the order of their names. -/
def Ordered (table : Table α) : Prop := table.Pairwise fun a b => a.1 < b.1

theorem ordered_nil : Ordered ([] : Table α) := List.Pairwise.nil

variable {table : Table α} {name : String} {value : α}

theorem mem_erase {entry : String × α} :
    entry ∈ table.erase name ↔ entry ∈ table ∧ entry.1 ≠ name := by
  simp [Table.erase]

theorem erase_eq_self (h : ∀ entry ∈ table, entry.1 ≠ name) : table.erase name = table :=
  List.filter_eq_self.2 fun entry hentry => by simpa using h entry hentry

theorem Ordered.erase (h : table.Ordered) (name : String) : (table.erase name).Ordered :=
  h.sublist List.filter_sublist

/-- What `get?` finds is an entry. -/
theorem mem_of_get? (h : table.get? name = some value) : (name, value) ∈ table := by
  induction table with
  | nil => exact absurd h (by simp)
  | cons entry rest ih =>
    rw [get?] at h
    split at h
    · next heq =>
      obtain rfl := Option.some.inj h
      exact heq ▸ List.mem_cons_self
    · exact List.mem_cons_of_mem _ (ih h)

/-- In a table in order every entry is found (`get?`). -/
theorem Ordered.get?_of_mem (h : table.Ordered) (hmem : (name, value) ∈ table) :
    table.get? name = some value := by
  induction table with
  | nil => exact absurd hmem (by simp)
  | cons entry rest ih =>
    obtain ⟨hfirst, hrest⟩ := List.pairwise_cons.1 h
    rw [get?]
    rcases List.mem_cons.1 hmem with rfl | hmem
    · rw [if_pos rfl]
    · have hlt : entry.1 < name := hfirst _ hmem
      rw [if_neg (by rintro rfl; exact String.lt_irrefl _ hlt)]
      exact ih hrest hmem

/-- What is found under a name is all that a table in order has there; the rest is what `erase` leaves. -/
theorem Ordered.perm_of_get? (h : table.Ordered) (hget : table.get? name = some value) :
    table.Perm ((name, value) :: table.erase name) := by
  induction table with
  | nil => exact absurd hget (by simp)
  | cons entry rest ih =>
    obtain ⟨k, v⟩ := entry
    obtain ⟨hfirst, hrest⟩ := List.pairwise_cons.1 h
    rw [get?] at hget
    split at hget
    · next heq =>
      obtain rfl := heq
      obtain rfl := Option.some.inj hget
      -- everything that follows has a greater name
      have herase : Table.erase k ((k, v) :: rest) = rest := by
        have hnone : Table.erase k rest = rest := erase_eq_self fun entry hentry heq =>
          String.lt_irrefl k (heq ▸ hfirst entry hentry)
        simpa [Table.erase] using hnone
      rw [herase]
    · next hne =>
      have herase : Table.erase name ((k, v) :: rest) = (k, v) :: Table.erase name rest := by
        simp [Table.erase, hne]
      rw [herase]
      exact ((ih hrest hget).cons (k, v)).trans (List.Perm.swap _ _ _)

theorem erase_of_get?_none (hget : table.get? name = none) : table.erase name = table := by
  refine erase_eq_self fun entry hentry heq => ?_
  induction table with
  | nil => exact absurd hentry (by simp)
  | cons first rest ih =>
    rw [get?] at hget
    split at hget
    · exact absurd hget (by simp)
    · next hne =>
      rcases List.mem_cons.1 hentry with rfl | hentry
      · exact hne heq
      · exact ih hget hentry

/-- The entries after `insert`: the new one, and those of other names. -/
theorem Ordered.perm_insert (h : table.Ordered) (name : String) (value : α) :
    (table.insert name value).Perm ((name, value) :: table.erase name) := by
  induction table with
  | nil => exact List.Perm.refl _
  | cons entry rest ih =>
    obtain ⟨k, v⟩ := entry
    obtain ⟨hfirst, hrest⟩ := List.pairwise_cons.1 h
    rw [Table.insert]
    split
    · next heq =>
      obtain rfl := heq
      have hget : get? name ((name, v) :: rest) = some v := by simp [get?]
      exact ((h.perm_of_get? hget).cons_inv).cons _
    · next hne =>
      split
      · next hlt =>
        have hother : Table.erase name ((k, v) :: rest) = (k, v) :: rest := by
          refine erase_eq_self fun entry hentry heq => ?_
          rcases List.mem_cons.1 hentry with rfl | hentry
          · exact hne heq.symm
          · exact String.lt_irrefl name (String.lt_trans hlt (heq ▸ hfirst entry hentry))
        rw [hother]
      · have herase : Table.erase name ((k, v) :: rest) = (k, v) :: Table.erase name rest := by
          simp [Table.erase, Ne.symm hne]
        rw [herase]
        exact ((ih hrest).cons (k, v)).trans (List.Perm.swap _ _ _)

theorem Ordered.insert (h : table.Ordered) (name : String) (value : α) :
    (table.insert name value).Ordered := by
  induction table with
  | nil => exact List.pairwise_singleton _ _
  | cons entry rest ih =>
    obtain ⟨k, v⟩ := entry
    obtain ⟨hfirst, hrest⟩ := List.pairwise_cons.1 h
    rw [Table.insert]
    split
    · next heq =>
      obtain rfl := heq
      exact List.pairwise_cons.2 ⟨hfirst, hrest⟩
    · next hne =>
      split
      · next hlt =>
        refine List.pairwise_cons.2 ⟨fun entry hentry => ?_, h⟩
        rcases List.mem_cons.1 hentry with rfl | hentry
        · exact hlt
        · exact String.lt_trans hlt (hfirst entry hentry)
      · next hnot =>
        have hlt : k < name := by grind
        refine List.pairwise_cons.2 ⟨fun entry hentry => ?_, ih hrest⟩
        rcases List.mem_cons.1 ((Ordered.perm_insert hrest name value).subset hentry) with rfl | hentry
        · exact hlt
        · exact hfirst entry (mem_erase.1 hentry).1

/-- Inserting what is there already changes nothing. -/
theorem Ordered.insert_eq_self (h : table.Ordered) (hget : table.get? name = some value) :
    table.insert name value = table := by
  induction table with
  | nil => exact absurd hget (by simp)
  | cons entry rest ih =>
    obtain ⟨k, v⟩ := entry
    obtain ⟨hfirst, hrest⟩ := List.pairwise_cons.1 h
    rw [get?] at hget
    rw [Table.insert]
    by_cases heq : k = name
    · rw [if_pos heq] at hget
      rw [if_pos heq.symm, heq, Option.some.inj hget]
    · rw [if_neg heq] at hget
      have hlt : k < name := hfirst _ (mem_of_get? hget)
      rw [if_neg (Ne.symm heq), if_neg (String.lt_asymm hlt), ih hrest hget]

theorem Ordered.perm_foldl : ∀ {entries : List (String × α)} {table : Table α}, table.Ordered →
    (entries.map Prod.fst ++ table.names).Nodup →
    (entries.foldl (fun table entry => table.insert entry.1 entry.2) table).Perm (entries ++ table)
  | [], _, _, _ => List.Perm.refl _
  | (k, v) :: entries, table, h, hnodup => by
    rw [List.map_cons, List.cons_append, List.nodup_cons, List.mem_append, not_or] at hnodup
    obtain ⟨⟨hlater, hnew⟩, hrest⟩ := hnodup
    have hinsert : (table.insert k v).Perm ((k, v) :: table) := by
      have hperm := h.perm_insert k v
      have hother : ∀ entry ∈ table, entry.1 ≠ k := by
        rintro entry hentry rfl
        exact hnew (List.mem_map.2 ⟨entry, hentry, rfl⟩)
      rwa [erase_eq_self hother] at hperm
    have hnames : (entries.map Prod.fst ++ (table.insert k v).names).Nodup := by
      refine ((hinsert.map Prod.fst).append_left _).nodup_iff.2 ?_
      have hnone : k ∉ entries.map Prod.fst ++ table.names := fun hin =>
        (List.mem_append.1 hin).elim hlater hnew
      exact List.perm_middle.nodup_iff.2 (List.nodup_cons.2 ⟨hnone, hrest⟩)
    exact (perm_foldl (h.insert k v) hnames).trans
      ((hinsert.append_left entries).trans List.perm_middle)

/-- The table that `ofList` makes of entries with different names has these entries. -/
theorem perm_ofList {entries : List (String × α)} (h : (entries.map Prod.fst).Nodup) :
    (ofList entries).Perm entries := by
  have hnodup : (entries.map Prod.fst ++ names ([] : Table α)).Nodup := by simpa [names] using h
  have hperm := Ordered.perm_foldl ordered_nil hnodup
  rwa [List.append_nil] at hperm

end Table

end ViewBinding
