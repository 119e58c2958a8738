/-!
# Taking a text apart

A text is cut at a place, at a character, or where its blanks end.

* A place in a text is the number of bytes that the text before it takes in UTF-8.  `takeBytes` and
  `dropBytes` cut there; `takeBytes_append_dropBytes` says that nothing is lost, and `takeBytes_append`
  and `dropBytes_append` that a cut after a whole part gives the part and the rest.
* `dropStart?` gives the text after a given start, `splitAtFirst` the text at the first of a given
  character.  Both lose nothing (`dropStart?_eq_some`, `splitAtFirst_join`), and a text that was put
  together is taken apart at the same place (`dropStart?_append`, `splitAtFirst_append`).
* `trim` takes the characters with the Unicode property White_Space from either end.  A key between
  interpolation delimiters is what it leaves of the text between them.
-/

namespace ViewBinding.Text

/-! ## At a byte -/

/-- The bytes that a text takes in UTF-8. -/
def byteLength : List Char → Nat
  | [] => 0
  | c :: cs => c.utf8Size + byteLength cs

/-- The characters that start before byte `n`. -/
def takeBytes : Nat → List Char → List Char
  | _, [] => []
  | 0, _ :: _ => []
  | n + 1, c :: cs => c :: takeBytes (n + 1 - c.utf8Size) cs

/-- The characters that start at byte `n` or later. -/
def dropBytes : Nat → List Char → List Char
  | _, [] => []
  | 0, c :: cs => c :: cs
  | n + 1, c :: cs => dropBytes (n + 1 - c.utf8Size) cs

@[simp]
theorem byteLength_append (a b : List Char) :
    byteLength (a ++ b) = byteLength a + byteLength b := by
  induction a with
  | nil => simp [byteLength]
  | cons c a ih => simp [byteLength, ih, Nat.add_assoc]

theorem takeBytes_append_dropBytes (n : Nat) (cs : List Char) :
    takeBytes n cs ++ dropBytes n cs = cs := by
  induction cs generalizing n with
  | nil => simp [takeBytes, dropBytes]
  | cons c cs ih =>
    cases n with
    | zero => simp [takeBytes, dropBytes]
    | succ n => simp [takeBytes, dropBytes, ih]

@[simp]
theorem dropBytes_zero (cs : List Char) : dropBytes 0 cs = cs := by
  cases cs <;> rfl

@[simp]
theorem takeBytes_zero (cs : List Char) : takeBytes 0 cs = [] := by
  cases cs <;> rfl

/-- A cut after a whole part leaves the rest: `dropBytes` undoes an append in front. -/
theorem dropBytes_append (a b : List Char) : dropBytes (byteLength a) (a ++ b) = b := by
  induction a with
  | nil => simp [byteLength]
  | cons c a ih =>
    have hc : 0 < c.utf8Size := Char.utf8Size_pos c
    obtain ⟨n, hn⟩ : ∃ n, c.utf8Size + byteLength a = n + 1 := ⟨c.utf8Size + byteLength a - 1, by omega⟩
    rw [byteLength, List.cons_append, hn, dropBytes, ← hn, Nat.add_sub_cancel_left, ih]

/-- A cut after a whole part gives the part: `takeBytes` undoes an append behind. -/
theorem takeBytes_append (a b : List Char) : takeBytes (byteLength a) (a ++ b) = a := by
  have h := takeBytes_append_dropBytes (byteLength a) (a ++ b)
  rw [dropBytes_append] at h
  exact List.append_cancel_right h

/-! ## At a start or a character -/

/-- The text after `start`, if it starts so. -/
def dropStart? : List Char → List Char → Option (List Char)
  | [], cs => some cs
  | _ :: _, [] => none
  | s :: ss, c :: cs => if s = c then dropStart? ss cs else none

/-- The text before the first `separator`, and the text after it if there is one. -/
def splitAtFirst (separator : Char) : List Char → List Char × Option (List Char)
  | [] => ([], none)
  | c :: cs =>
    if c = separator then ([], some cs)
    else
      let (before, after) := splitAtFirst separator cs
      (c :: before, after)

theorem dropStart?_eq_some {start cs rest : List Char} (h : dropStart? start cs = some rest) :
    cs = start ++ rest := by
  induction start generalizing cs with
  | nil => simpa [dropStart?] using h
  | cons s ss ih =>
    cases cs with
    | nil => simp [dropStart?] at h
    | cons c cs =>
      rw [dropStart?] at h
      split at h
      · next hc => rw [hc, ih h]; rfl
      · cases h

theorem dropStart?_append (start rest : List Char) :
    dropStart? start (start ++ rest) = some rest := by
  induction start with
  | nil => rfl
  | cons s ss ih => simp [dropStart?, ih]

theorem splitAtFirst_join (separator : Char) (cs : List Char) :
    cs = (splitAtFirst separator cs).1 ++
      ((splitAtFirst separator cs).2.map (separator :: ·)).getD [] := by
  induction cs with
  | nil => rfl
  | cons c cs ih =>
    rw [splitAtFirst]
    split
    · next hc => simp [hc]
    · simpa using ih

/-- What stands before the first separator (`splitAtFirst`) does not hold it. -/
theorem not_mem_splitAtFirst (separator : Char) (cs : List Char) :
    separator ∉ (splitAtFirst separator cs).1 := by
  induction cs with
  | nil => simp [splitAtFirst]
  | cons c cs ih =>
    rw [splitAtFirst]
    split
    · simp
    · next hc => simp [ih, Ne.symm hc]

/-! ## Where a text is taken apart -/

theorem dropStart?_eq_some_iff {start cs rest : List Char} :
    dropStart? start cs = some rest ↔ cs = start ++ rest :=
  ⟨dropStart?_eq_some, fun h => h ▸ dropStart?_append start rest⟩

theorem splitAtFirst_of_not_mem {separator : Char} {cs : List Char} (h : separator ∉ cs) :
    splitAtFirst separator cs = (cs, none) := by
  induction cs with
  | nil => rfl
  | cons c cs ih =>
    rw [List.mem_cons, not_or] at h
    rw [splitAtFirst, if_neg (Ne.symm h.1), ih h.2]

/-- A separator splits a text if none stands before it. -/
theorem splitAtFirst_append {separator : Char} {before : List Char} (h : separator ∉ before)
    (after : List Char) :
    splitAtFirst separator (before ++ separator :: after) = (before, some after) := by
  induction before with
  | nil => rw [List.nil_append, splitAtFirst, if_pos rfl]
  | cons c cs ih =>
    rw [List.mem_cons, not_or] at h
    rw [List.cons_append, splitAtFirst, if_neg (Ne.symm h.1), ih h.2]

/-! ## At blanks -/

/-- The code points with the property `White_Space`. -/
def blanks : List Nat :=
  [0x9, 0xa, 0xb, 0xc, 0xd, 0x20, 0x85, 0xa0, 0x1680, 0x2000, 0x2001, 0x2002, 0x2003, 0x2004,
    0x2005, 0x2006, 0x2007, 0x2008, 0x2009, 0x200a, 0x2028, 0x2029, 0x202f, 0x205f, 0x3000]

/-- Whether a character is white space (`blanks`). -/
def isBlank (c : Char) : Bool :=
  blanks.contains c.toNat

/-- The text without the blanks in front. -/
def trimStart (cs : List Char) : List Char :=
  cs.dropWhile isBlank

/-- The text without the blanks at its end. -/
def trimEnd : List Char → List Char
  | [] => []
  | c :: cs =>
    match trimEnd cs with
    | [] => if isBlank c then [] else [c]
    | kept => c :: kept

/-- The text without the blanks at either end (`trimStart`, `trimEnd`). -/
def trim (cs : List Char) : List Char :=
  trimEnd (trimStart cs)

theorem trimStart_of_not_blank {c : Char} (h : isBlank c = false) (cs : List Char) :
    trimStart (c :: cs) = c :: cs := by
  simp [trimStart, h]

/-- Trimming at the end leaves nothing exactly of a blank text, that is one in which every character
`isBlank`. -/
theorem trimEnd_eq_nil_iff {cs : List Char} : trimEnd cs = [] ↔ cs.all isBlank = true := by
  induction cs with
  | nil => simp [trimEnd]
  | cons c cs ih =>
    rw [trimEnd, List.all_cons, Bool.and_eq_true, ← ih]
    cases h : trimEnd cs with
    | nil => cases hc : isBlank c <;> simp
    | cons d ds => simp

end ViewBinding.Text
