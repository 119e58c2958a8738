/-!
# Tables

A table holds values under names, in the order of the names, each name once. `get?_insert_self`,
`get?_insert_of_ne`, `get?_erase_self` and `get?_erase_of_ne` say what looking up finds after a
change.
-/

namespace ViewBinding

/-- Values under names, in the order of the names. What `insert`, `erase` and `ofList` make has each name
once. -/
abbrev Table (α : Type) := List (String × α)

namespace Table

variable {α : Type}

/-- The value under a name, the first one. -/
def get? (name : String) : Table α → Option α
  | [] => none
  | (k, v) :: rest => if k = name then some v else get? name rest

/-- The table with a value under a name: in the place of the value that was there, else before the first
greater name. -/
def insert (name : String) (value : α) : Table α → Table α
  | [] => [(name, value)]
  | (k, v) :: rest =>
    if name = k then (name, value) :: rest
    else if name < k then (name, value) :: (k, v) :: rest
    else (k, v) :: insert name value rest

/-- The table without a value under a name (`get?` finds none then). -/
def erase (name : String) (table : Table α) : Table α :=
  table.filter fun entry => entry.1 ≠ name

/-- The names in a table. -/
def names (table : Table α) : List String :=
  table.map Prod.fst

/-- Whether there is a value under a name (`get?`). -/
def contains (name : String) (table : Table α) : Bool :=
  (table.get? name).isSome

/-- The table of the given entries, the last one of each name (`insert`). -/
def ofList (entries : List (String × α)) : Table α :=
  entries.foldl (fun table entry => table.insert entry.1 entry.2) []

/-! ## Looking up after a change -/

@[simp]
theorem get?_nil (name : String) : get? name ([] : Table α) = none := rfl

theorem get?_insert_self (name : String) (value : α) (table : Table α) :
    get? name (insert name value table) = some value := by
  induction table with
  | nil => simp [insert, get?]
  | cons entry rest ih =>
    obtain ⟨k, v⟩ := entry
    rw [insert]
    split
    · simp [get?]
    · next h =>
      split
      · simp [get?]
      · rw [get?, if_neg (Ne.symm h), ih]

theorem get?_insert_of_ne {name other : String} (h : other ≠ name) (value : α) (table : Table α) :
    get? other (insert name value table) = get? other table := by
  induction table with
  | nil => simp [insert, get?, Ne.symm h]
  | cons entry rest ih =>
    obtain ⟨k, v⟩ := entry
    rw [insert]
    split
    · next hk => simp [get?, ← hk, Ne.symm h]
    · split
      · simp [get?, Ne.symm h]
      · rw [get?, get?, ih]

theorem get?_erase_self (name : String) (table : Table α) :
    get? name (erase name table) = none := by
  induction table with
  | nil => rfl
  | cons entry rest ih =>
    by_cases h : entry.1 = name
    · simpa [erase, h] using ih
    · have : erase name (entry :: rest) = entry :: erase name rest := by simp [erase, h]
      rw [this, get?, if_neg h, ih]

theorem get?_erase_of_ne {name other : String} (h : other ≠ name) (table : Table α) :
    get? other (erase name table) = get? other table := by
  induction table with
  | nil => rfl
  | cons entry rest ih =>
    by_cases hk : entry.1 = name
    · have : erase name (entry :: rest) = erase name rest := by simp [erase, hk]
      rw [this, ih, get?, if_neg (fun hc => h (hc.symm.trans hk))]
    · have : erase name (entry :: rest) = entry :: erase name rest := by simp [erase, hk]
      rw [this, get?, get?, ih]

end Table

end ViewBinding
