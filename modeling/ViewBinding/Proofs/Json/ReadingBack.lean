import ViewBinding.Json.Record
import Mathlib.Tactic.Common

/-!
# Reading back what was written

A value in its compact text, with anything behind it, is taken off the front by the scanner of its
shape, and nothing else is.  A scanner that does so for a text `Reads` it.

* `string_escaped` — a string is read back, whatever characters are in it.
* `reads_character`, `reads_pair`, `reads_optional_null`, `reads_optional_some` — the simple shapes.
* `reads_record` — an object is read field by field, in whatever order the fields stand.
-/

namespace ViewBinding.Json

/-- Whether a scanner takes a text off the front of anything that begins with it, and answers `a`. -/
def Reads {α : Type} (scan : Scan α) (cs : List Char) (a : α) : Prop :=
  ∀ rest, scan (cs ++ rest) = .ok (a, rest)

/-- A token is where the text begins, unless that is space (`isSpace`). -/
theorem skipSpace_cons {c : Char} (hc : isSpace c = false) (cs : List Char) :
    skipSpace (c :: cs) = c :: cs := by
  simp [skipSpace, hc]

/-- A text that is read whole (`Reads`) is read. -/
theorem Reads.readWith {α : Type} {scan : Scan α} {cs : List Char} {a : α} (h : Reads scan cs a) :
    Json.readWith scan (String.ofList cs) = .ok a := by
  have hwhole : scan cs = .ok (a, []) := by simpa using h []
  rw [Json.readWith, String.toList_ofList, hwhole]
  rfl

/-! ## Strings -/

theorem escape_short {c d : Char} (hu : c ≠ 'u') (hc : shortEscape? c = some d) (cs : List Char) :
    escape (c :: cs) = .ok (d, cs) := by
  rw [escape]
  · simp only [hc]
  · exact hu

/-- A control character is read back from its number, as `escapeChar` writes it. -/
theorem escape_number {c : Char} (hc : c.toNat < 0x20) (cs : List Char) :
    escape ('u' :: '0' :: '0' :: Nat.digitChar (c.toNat / 16) :: Nat.digitChar (c.toNat % 16) :: cs) =
      .ok (c, cs) := by
  have hdigits : ∀ n < 0x20,
      hexFour? '0' '0' (Nat.digitChar (n / 16)) (Nat.digitChar (n % 16)) = some n ∧
        isLowSurrogate n = false ∧ isHighSurrogate n = false := by
    decide
  obtain ⟨hfour, hlow, hhigh⟩ := hdigits c.toNat hc
  simp [escape, numberEscape, hexFour, hfour, hlow, hhigh, bind, Except.bind]

/-- Each character of a string is read back, escaped or not (`escapeChar`). -/
theorem stringTail_escapeChar (fuel : Nat) (c : Char) (cs : List Char) :
    stringTail (fuel + 1) (escapeChar c ++ cs) =
      (do let (s, rest) ← stringTail fuel cs; .ok (c :: s, rest)) := by
  have hescape : ∀ tail, escape tail = .ok (c, cs) → stringTail (fuel + 1) ('\\' :: tail) =
      (do let (s, rest) ← stringTail fuel cs; .ok (c :: s, rest)) := by
    intro tail htail
    rw [stringTail, htail]
    rfl
  unfold escapeChar
  split
  · next hc =>
    refine hescape _ (escape_short ?_ ?_ _)
    · rintro rfl
      exact absurd hc (by decide)
    · rw [shortEscape?, if_pos (by tauto)]
  next hplain =>
  rw [not_or] at hplain
  split
  · next hc => exact hescape _ (escape_short (by decide) (hc ▸ rfl) _)
  split
  · next hc => exact hescape _ (escape_short (by decide) (hc ▸ rfl) _)
  split
  · next hc => exact hescape _ (escape_short (by decide) (hc ▸ rfl) _)
  split
  · next hc => exact hescape _ (escape_short (by decide) (hc ▸ rfl) _)
  split
  · next hc => exact hescape _ (escape_short (by decide) (hc ▸ rfl) _)
  split
  · next hc => exact hescape _ (escape_number hc _)
  · next hc =>
    rw [List.singleton_append, stringTail, if_neg hc]
    · exact hplain.1
    · exact hplain.2

theorem stringTail_escaped (rest : List Char) : ∀ (s : List Char) (fuel : Nat), s.length < fuel →
    stringTail fuel (s.flatMap escapeChar ++ '"' :: rest) = .ok (s, rest)
  | [], fuel + 1, _ => by rw [List.flatMap_nil, List.nil_append, stringTail]
  | c :: s, fuel + 1, hfuel => by
    rw [List.flatMap_cons, List.append_assoc, stringTail_escapeChar,
      stringTail_escaped rest s fuel (Nat.lt_of_succ_lt_succ hfuel)]
    rfl

theorem length_le_escaped : ∀ s : List Char, s.length ≤ (s.flatMap escapeChar).length
  | [] => Nat.le_refl _
  | c :: s => by
    have hne : escapeChar c ≠ [] := by
      unfold escapeChar
      split_ifs <;> simp
    have hpos := List.length_pos_iff.2 hne
    have ih := length_le_escaped s
    rw [List.flatMap_cons, List.length_append, List.length_cons]
    omega

/-- **Strings survive.** A string is read back from its text, whatever characters are in it and whatever is
behind (`rest`). -/
theorem string_escaped (s : String) (rest : List Char) :
    string (s.toList.flatMap escapeChar ++ '"' :: rest) = .ok (s, rest) := by
  have hlength := length_le_escaped s.toList
  have hfuel : s.toList.length < (s.toList.flatMap escapeChar ++ '"' :: rest).length + 1 := by
    rw [List.length_append]
    omega
  rw [string, stringTail_escaped rest s.toList _ hfuel]
  exact congrArg (fun t => Except.ok (t, rest)) String.ofList_toList

/-! ## Simple shapes -/

/-- The text of a string, with something behind it. -/
theorem stringChars_append (s : String) (rest : List Char) :
    stringChars s ++ rest = '"' :: (s.toList.flatMap escapeChar ++ '"' :: rest) := by
  simp [stringChars]

theorem reads_stringAs (expected s : String) : Reads (stringAs expected) (stringChars s) s := by
  intro rest
  rw [stringChars_append, stringAs, skipSpace_cons rfl]
  exact string_escaped s rest

theorem reads_text (s : String) : Reads text (stringChars s) s := reads_stringAs _ s

theorem reads_character (c : Char) : Reads character (stringChars c.toString) c := by
  intro rest
  have hone : c.toString.toList = [c] := String.toList_singleton c
  simp only [character, reads_stringAs _ c.toString rest, bind, Except.bind, hone]

theorem reads_pair (a b : String) :
    Reads pair (Value.array [.string a, .string b]).chars (a, b) := by
  intro rest
  have hchars : (Value.array [.string a, .string b]).chars ++ rest =
      '[' :: (stringChars a ++ ',' :: (stringChars b ++ ']' :: rest)) := by
    simp [Value.chars, Value.itemsChars]
  have hfirst : nextItem true (stringChars a ++ ',' :: (stringChars b ++ ']' :: rest)) =
      .ok (some (stringChars a ++ ',' :: (stringChars b ++ ']' :: rest))) := by
    rw [stringChars_append, nextItem, skipSpace_cons rfl]
    rfl
  have hsecond : nextItem false (',' :: (stringChars b ++ ']' :: rest)) =
      .ok (some (stringChars b ++ ']' :: rest)) := by
    rw [stringChars_append, nextItem, skipSpace_cons rfl]
    simp only [skipSpace_cons (c := '"') rfl]
    rfl
  have hclose : closeArray (']' :: rest) = .ok ((), rest) := by
    rw [closeArray, skipSpace_cons rfl]
    rfl
  rw [hchars, pair, skipSpace_cons rfl]
  simp only [hfirst, hsecond, hclose, reads_text a _, reads_text b _, bind, Except.bind]

theorem reads_optional_null {α : Type} (scan : Scan α) :
    Reads (optional scan) Value.null.chars none := by
  intro rest
  rw [Value.chars, optional]
  exact rfl

/-- A value that does not start like `null` is read as it is where `null` is allowed. -/
theorem reads_optional_some {α : Type} {scan : Scan α} {c : Char} {cs : List Char} {a : α}
    (hspace : isSpace c = false) (hc : c ≠ 'n') (h : Reads scan (c :: cs) a) :
    Reads (optional scan) (c :: cs) (some a) := by
  intro rest
  have hread := h rest
  rw [List.cons_append] at hread ⊢
  rw [optional, skipSpace_cons hspace]
  split
  · next heq => exact absurd (List.cons.inj heq).1 hc
  · rw [hread]
    rfl

/-! ## Records -/

section

variable {σ α : Type} {draft : List String → σ}

/-- Whether the member of the given key is read into a draft that does not have it yet.  `draft` tells
the draft after the members of some keys. -/
def Fills (slots : List (Slot σ)) (draft : List String → σ) (key : String) (v : Value) : Prop :=
  ∃ slot, slots.find? (fun slot => slot.name = key) = some slot ∧
    ∀ keys, key ∉ keys →
      slot.filled (draft keys) = false ∧ Reads (slot.scan (draft keys)) v.chars (draft (key :: keys))

/-- A field is read if its value is: the slot of that name `Fills` the draft. -/
theorem Fills.of {β : Type} {slots : List (Slot σ)} {key : String} {v : Value}
    {get : σ → Option β} {put : σ → β → σ} {scan : Scan β} {b : β}
    (hslot : slots.find? (fun slot => slot.name = key) = some (.of key get put scan))
    (hget : ∀ keys, key ∉ keys → get (draft keys) = none)
    (hput : ∀ keys, put (draft keys) b = draft (key :: keys)) (hread : Reads scan v.chars b) :
    Fills slots draft key v := by
  refine ⟨_, hslot, fun keys hkey => ⟨?_, fun rest => ?_⟩⟩
  · simp [Slot.of, hget keys hkey]
  · simp only [Slot.of, hread rest, bind, Except.bind, hput keys]

theorem Fills.slotMember {slots : List (Slot σ)} {key : String} {v : Value}
    (h : Fills slots draft key v) {keys : List String} (hkey : key ∉ keys) (rest : List Char) :
    slotMember slots (draft keys) key (':' :: (v.chars ++ rest)) = .ok (draft (key :: keys), rest) := by
  obtain ⟨slot, hslot, hfills⟩ := h
  obtain ⟨hfilled, hread⟩ := hfills keys hkey
  have hcolon : colon (':' :: (v.chars ++ rest)) = .ok ((), v.chars ++ rest) := by
    rw [colon, skipSpace_cons rfl]
    rfl
  simp [Json.slotMember, hslot, hfilled, hcolon, bind, Except.bind, hread rest]

theorem length_lt_membersChars (ms : List (String × Value)) :
    ms.length < (Value.membersChars ms).length := by
  induction ms with
  | nil => exact Nat.zero_lt_one
  | cons member ms ih =>
    obtain ⟨k, v⟩ := member
    rw [Value.membersChars]
    simp only [List.length_cons, List.length_append]
    omega

/-- A member and those behind it are read in turn. -/
theorem members_membersChars {slots : List (Slot σ)} (rest : List Char) :
    ∀ {ms : List (String × Value)} {keys : List String} {fuel : Nat},
      (∀ x ∈ ms, Fills slots draft x.1 x.2) → (ms.map Prod.fst ++ keys).Nodup → ms.length < fuel →
      members (slotMember slots) fuel false (draft keys) (Value.membersChars ms ++ rest) =
        .ok (draft ((ms.map Prod.fst).reverse ++ keys), rest)
  | [], keys, fuel + 1, _, _, _ => by
    rw [Value.membersChars, List.singleton_append, members, skipSpace_cons rfl]
    rfl
  | (k, v) :: ms, keys, fuel + 1, hfills, hnodup, hfuel => by
    obtain ⟨hfirst, hrest⟩ := List.forall_mem_cons.1 hfills
    rw [List.map_cons, List.cons_append, List.nodup_cons, List.mem_append, not_or] at hnodup
    have hlater : (ms.map Prod.fst ++ k :: keys).Nodup :=
      List.perm_middle.nodup_iff.2 (List.nodup_cons.2 ⟨by simp [hnodup.1], hnodup.2⟩)
    have ih := members_membersChars rest hrest hlater (Nat.lt_of_succ_lt_succ hfuel)
    have hchars : Value.membersChars ((k, v) :: ms) ++ rest = ',' :: '"' ::
        (k.toList.flatMap escapeChar ++ '"' :: ':' :: (v.chars ++ (Value.membersChars ms ++ rest))) := by
      simp [Value.membersChars, stringChars]
    rw [hchars, members, skipSpace_cons rfl]
    simp only [skipSpace_cons (c := '"') rfl, string_escaped, bind, Except.bind,
      hfirst.slotMember hnodup.1.2, ih, List.map_cons, List.reverse_cons, List.append_assoc,
      List.singleton_append]
    rfl

/-- **Records survive.** An object is read into a record if each of its members is (`Fills`), in whatever
order they stand. -/
theorem reads_record {shape : Shape σ α} {ms : List (String × Value)} {a : α}
    (hempty : shape.empty = draft []) (hfills : ∀ x ∈ ms, Fills shape.slots draft x.1 x.2)
    (hnodup : (ms.map Prod.fst).Nodup)
    (hdone : shape.ofObject (draft (ms.map Prod.fst).reverse) = .ok a) :
    Reads (record shape) (Value.object ms).chars a := by
  intro rest
  have hfold : ∃ body, (Value.object ms).chars ++ rest = '\x7b' :: body ∧
      members (slotMember shape.slots) (body.length + 1) true shape.empty body =
        .ok (draft (ms.map Prod.fst).reverse, rest) := by
    rw [hempty]
    cases ms with
    | nil =>
      refine ⟨'\x7d' :: rest, rfl, ?_⟩
      rw [members, skipSpace_cons rfl]
      rfl
    | cons x ms =>
      obtain ⟨k, v⟩ := x
      obtain ⟨hfirst, hrest⟩ := List.forall_mem_cons.1 hfills
      let tail := k.toList.flatMap escapeChar ++
        '"' :: ':' :: (v.chars ++ (Value.membersChars ms ++ rest))
      have hlength : ms.length < ('"' :: tail).length := by
        have hlt := length_lt_membersChars ms
        simp only [tail, List.length_cons, List.length_append]
        omega
      have hlater : (ms.map Prod.fst ++ [k]).Nodup :=
        (List.perm_append_singleton k _).nodup_iff.2 hnodup
      have hread := members_membersChars rest hrest hlater hlength
      refine ⟨'"' :: tail, by simp [tail, Value.chars, stringChars], ?_⟩
      rw [members, skipSpace_cons rfl]
      simp only [tail, string_escaped, bind, Except.bind, hfirst.slotMember List.not_mem_nil]
      rw [hread]
      simp
  obtain ⟨body, hchars, hmembers⟩ := hfold
  rw [hchars, record, skipSpace_cons rfl]
  simp only [hmembers, bind, Except.bind, hdone]

/-- All members of a record are read, in whatever order they stand: the draft is that of all `fields`. -/
theorem reads_record_of_perm {shape : Shape σ α} {fields ms : List (String × Value)} {a : α}
    (hperm : ms.Perm fields) (hempty : shape.empty = draft [])
    (hfills : ∀ x ∈ fields, Fills shape.slots draft x.1 x.2) (hnodup : (fields.map Prod.fst).Nodup)
    (hdone : ∀ keys, (∀ key, key ∈ keys ↔ key ∈ fields.map Prod.fst) →
      shape.ofObject (draft keys) = .ok a) :
    Reads (record shape) (Value.object ms).chars a := by
  have hkeys := hperm.map Prod.fst
  refine reads_record hempty (fun x hx => hfills x (hperm.mem_iff.1 hx)) (hkeys.nodup_iff.2 hnodup)
    (hdone _ fun key => ?_)
  rw [List.mem_reverse, hkeys.mem_iff]

end

end ViewBinding.Json
