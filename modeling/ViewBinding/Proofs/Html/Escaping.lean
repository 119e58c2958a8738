import ViewBinding.Html.Token
import ViewBinding.Markup
import Mathlib.Tactic.Common

/-!
# Tokens of what was written

The text form of a view is read token by token, and each token is what was written: an opening tag
with its attributes, a closing tag, or a text.  Whatever stands in a text or in an attribute value,
escaping keeps it from being anything else.

* `resolve_flatMap` — resolving undoes any escaping whose characters are themselves or references
  by name.
* `tagRest?_attributes` — the attributes of an opening tag are read back in order.
* `take_openChars`, `take_closeChars`, `take_text` — the front of a text form as a token.
-/

namespace ViewBinding

/-! ## What is written plainly -/

/-- Whether a text has neither `U+0000` nor a carriage return in it, which markup cannot hold. -/
def isClean (s : String) : Bool :=
  s.toList.all fun c => c != '\x00' && c != '\r'

/-- Whether a character may stand in a plain name. -/
def isPlainNameChar (c : Char) : Bool :=
  c.isLower || c.isDigit || c == '-'

/-- Whether a name is plain: small Latin letters, digits and hyphens, a letter in front. -/
def isPlainName (s : String) : Bool :=
  match s.toList with
  | [] => false
  | c :: cs => c.isLower && cs.all isPlainNameChar

/-- Whether an attribute has a plain name (`isPlainName`) and a clean value (`isClean`). -/
def Attribute.isPlain (a : Attribute) : Bool :=
  isPlainName a.name && isClean a.value

/-- The tags of plain elements. -/
def plainTags : List String := ["div", "span"]

theorem isClean_iff {s : String} : isClean s = true ↔ ∀ c ∈ s.toList, c ≠ '\x00' ∧ c ≠ '\r' := by
  simp [isClean]

theorem exists_of_isPlainName {s : String} (h : isPlainName s = true) :
    ∃ c cs, s.toList = c :: cs ∧ c.isLower = true ∧ ∀ d ∈ c :: cs, isPlainNameChar d = true := by
  unfold isPlainName at h
  split at h
  · exact absurd h (by simp)
  · next c cs hs =>
    rw [Bool.and_eq_true, List.all_eq_true] at h
    refine ⟨c, cs, hs, h.1, fun d hd => ?_⟩
    rcases List.mem_cons.1 hd with rfl | hd
    · simp [isPlainNameChar, h.1]
    · exact h.2 d hd

namespace Html

/-! ## Characters of names -/

theorem isPlainNameChar_ne {c : Char} (h : isPlainNameChar c = true) {d : Char}
    (hd : isPlainNameChar d = false) : c ≠ d := by
  rintro rfl
  rw [h] at hd
  exact absurd hd (by simp)

/-- A character of a plain name is none of those that mean something in a tag (`endsAttributeName`). -/
theorem endsAttributeName_of_plain {c : Char} (h : isPlainNameChar c = true) :
    endsAttributeName c = false := by
  have hne := fun d => isPlainNameChar_ne h (d := d)
  simp [endsAttributeName, endsName, isSpace, hne ' ' (by decide), hne '\t' (by decide),
    hne '\n' (by decide), hne '\x0c' (by decide), hne '\r' (by decide), hne '/' (by decide),
    hne '>' (by decide), hne '=' (by decide)]

theorem isSpace_of_plain {c : Char} (h : isPlainNameChar c = true) : isSpace c = false := by
  have hends := endsAttributeName_of_plain h
  simp only [endsAttributeName, endsName, Bool.or_eq_false_iff] at hends
  exact hends.1.1.1

theorem toLower_visible_of_plain {c : Char} (h : isPlainNameChar c = true) :
    (visible c).toLower = c := by
  have hzero : c ≠ '\x00' := isPlainNameChar_ne h (by decide)
  rw [visible, if_neg hzero]
  have hlower : c.isLower = (decide ('a'.val ≤ c.val) && decide (c.val ≤ 'z'.val)) := rfl
  simp only [isPlainNameChar, hlower, Char.isDigit, Bool.or_eq_true, Bool.and_eq_true,
    decide_eq_true_eq, beq_iff_eq, UInt32.le_iff_toNat_le, ge_iff_le] at h
  -- none of these is a capital letter
  refine dif_neg ?_
  rintro ⟨hge, hle⟩
  simp only [UInt32.le_iff_toNat_le, ge_iff_le] at hge hle
  have hletters : 'A'.val.toNat = 65 ∧ 'Z'.val.toNat = 90 ∧ 'a'.val.toNat = 97 := ⟨rfl, rfl, rfl⟩
  have hdigit : '9'.val.toNat = 57 := rfl
  rcases h with (h | h) | rfl
  · omega
  · omega
  · exact absurd hge (by decide)

/-- A plain name is read as it is, since `toName` changes capitals only. -/
theorem toName_of_plain {cs : List Char} (h : ∀ c ∈ cs, isPlainNameChar c = true) :
    toName cs = String.ofList cs := by
  have hsame : cs.map (fun c => (visible c).toLower) = cs.map fun c => c :=
    List.map_congr_left fun c hc => toLower_visible_of_plain (h c hc)
  rw [toName, hsame, List.map_id']

/-! ## References -/

theorem name?_of_named {name text : List Char} (inValue : Bool)
    (hname : ∀ d ∈ name, isNameChar d = true) (hnamed : named? name = some text) (rest : List Char) :
    name? inValue (name ++ ';' :: rest) = some (text, rest) := by
  have hrun : (name ++ ';' :: rest).takeWhile isNameChar = name := by
    rw [List.takeWhile_append_of_pos hname, List.takeWhile_cons_of_neg (by decide), List.append_nil]
  have hafter : (name ++ ';' :: rest).dropWhile isNameChar = ';' :: rest := by
    rw [List.dropWhile_append_of_pos hname, List.dropWhile_cons_of_neg (by decide)]
  simp only [name?, hrun, hafter, hnamed]

/-- A known name with a semicolon behind is a reference, in a text and in a value, such as `&amp;`. -/
theorem reference?_of_named {name text : List Char} (inValue : Bool)
    (hname : ∀ d ∈ name, isNameChar d = true) (hnamed : named? name = some text) (rest : List Char) :
    reference? inValue (name ++ ';' :: rest) = some (text, rest) := by
  have hhash : ∀ cs, name ++ ';' :: rest ≠ '#' :: cs := by
    intro cs heq
    cases name with
    | nil => exact absurd (List.cons.inj heq).1 (by decide)
    | cons c name =>
      have hc := hname c List.mem_cons_self
      rw [(List.cons.inj heq).1] at hc
      exact absurd hc (by decide)
  rw [← name?_of_named inValue hname hnamed rest]
  unfold reference?
  split
  · next h => exact absurd h (hhash _)
  · next h => exact absurd h (hhash _)
  · next h => exact absurd h (hhash _)
  · rfl

/-- The ways to write a character so that it is read as itself. -/
inductive Escaped (c : Char) : List Char → Prop
  | plain (h : c ≠ '&') : Escaped c [c]
  | reference {name : List Char} (hname : ∀ d ∈ name, isNameChar d = true)
      (hnamed : named? name = some [c]) : Escaped c ('&' :: (name ++ [';']))

theorem resolveFrom_flatMap {e : Char → List Char} (he : ∀ c, Escaped c (e c)) (inValue : Bool)
    (cs : List Char) (fuel : Nat) (hfuel : (cs.flatMap e).length ≤ fuel) :
    resolveFrom inValue fuel (cs.flatMap e) = cs := by
  induction cs generalizing fuel with
  | nil => cases fuel <;> rfl
  | cons c cs ih =>
    have hc := he c
    rw [List.flatMap_cons] at hfuel ⊢
    generalize e c = es at hc hfuel ⊢
    cases hc with
    | plain hc =>
      obtain ⟨fuel, rfl⟩ : ∃ n, fuel = n + 1 := ⟨fuel - 1, by simp at hfuel; omega⟩
      rw [List.singleton_append] at hfuel ⊢
      rw [resolveFrom, if_neg hc, ih fuel (by simpa using hfuel)]
    | @reference name hname hnamed =>
      obtain ⟨fuel, rfl⟩ : ∃ n, fuel = n + 1 := ⟨fuel - 1, by simp at hfuel; omega⟩
      have hshape : '&' :: (name ++ [';']) ++ cs.flatMap e =
          '&' :: (name ++ ';' :: cs.flatMap e) := by simp
      rw [hshape] at hfuel ⊢
      rw [resolveFrom, if_pos rfl, reference?_of_named inValue hname hnamed]
      simp only [List.singleton_append]
      rw [ih fuel (by simp only [List.length_cons, List.length_append] at hfuel; omega)]

/-- **Resolving undoes escaping**, if what stands for each character is one of the ways to write it
(`Escaped`). -/
theorem resolve_flatMap {e : Char → List Char} (he : ∀ c, Escaped c (e c)) (inValue : Bool)
    (cs : List Char) : resolve inValue (cs.flatMap e) = cs :=
  resolveFrom_flatMap he inValue cs _ (Nat.le_refl _)

theorem escaped_escapeTextChar (c : Char) : Escaped c (Markup.escapeTextChar c) := by
  unfold Markup.escapeTextChar
  split
  · next h =>
    subst h
    exact @Escaped.reference '&' ['a', 'm', 'p'] (List.all_eq_true.1 rfl) (by decide)
  · split
    · next h =>
      subst h
      exact @Escaped.reference '<' ['l', 't'] (List.all_eq_true.1 rfl) (by decide)
    · split
      · next h =>
        subst h
        exact @Escaped.reference '>' ['g', 't'] (List.all_eq_true.1 rfl) (by decide)
      · next h _ _ => exact .plain h

theorem escaped_escapeValueChar (c : Char) : Escaped c (Markup.escapeValueChar c) := by
  unfold Markup.escapeValueChar
  split
  · next h =>
    subst h
    exact @Escaped.reference '&' ['a', 'm', 'p'] (List.all_eq_true.1 rfl) (by decide)
  · split
    · next h =>
      subst h
      exact @Escaped.reference '"' ['q', 'u', 'o', 't'] (List.all_eq_true.1 rfl) (by decide)
    · next h _ => exact .plain h

theorem escapeText_ne_nil {cs : List Char} (hne : cs ≠ []) :
    cs.flatMap Markup.escapeTextChar ≠ [] := by
  obtain ⟨c, tail, rfl⟩ := List.exists_cons_of_ne_nil hne
  rw [List.flatMap_cons]
  generalize Markup.escapeTextChar c = es, escaped_escapeTextChar c = hes at *
  cases hes with
  | plain h => simp
  | reference hname hnamed => simp

/-- No angle opens in an escaped text: `escapeTextChar` leaves none. -/
theorem ne_angle_of_mem_escapeText {cs : List Char} {d : Char}
    (hd : d ∈ cs.flatMap Markup.escapeTextChar) : d ≠ '<' := by
  obtain ⟨c, -, hc⟩ := List.mem_flatMap.1 hd
  unfold Markup.escapeTextChar at hc
  rintro rfl
  split at hc
  · exact absurd hc (by decide)
  · split at hc
    · exact absurd hc (by decide)
    · split at hc
      · exact absurd hc (by decide)
      · next hangle _ => exact hangle (List.mem_singleton.1 hc).symm

/-- No quote closes in an escaped value: `escapeValueChar` leaves none. -/
theorem ne_quote_of_mem_escapeValue {cs : List Char} {d : Char}
    (hd : d ∈ cs.flatMap Markup.escapeValueChar) : d ≠ '"' := by
  obtain ⟨c, -, hc⟩ := List.mem_flatMap.1 hd
  unfold Markup.escapeValueChar at hc
  rintro rfl
  split at hc
  · exact absurd hc (by decide)
  · split at hc
    · exact absurd hc (by decide)
    · next hquote => exact hquote (List.mem_singleton.1 hc).symm

/-! ## Attributes -/

/-- The value of an attribute is read back by `value?`, whatever is in it. -/
theorem value?_quoted {s : String} (hs : isClean s = true) (rest : List Char) :
    value? ('"' :: (s.toList.flatMap Markup.escapeValueChar ++ '"' :: rest)) = some (s, rest) := by
  have hinside : ∀ d ∈ s.toList.flatMap Markup.escapeValueChar, (d != '"') = true := fun d hd => by
    simpa using ne_quote_of_mem_escapeValue hd
  have hvisible : s.toList.map visible = s.toList := by
    have hsame : s.toList.map visible = s.toList.map fun c => c :=
      List.map_congr_left fun c hc => if_neg (isClean_iff.1 hs c hc).1
    rw [hsame, List.map_id']
  rw [value?, List.dropWhile_cons_of_neg (by decide)]
  simp only
  rw [value?.quotedBy, List.dropWhile_append_of_pos hinside, List.takeWhile_append_of_pos hinside,
    List.dropWhile_cons_of_neg (by decide), List.takeWhile_cons_of_neg (by decide), List.append_nil,
    toValue, resolve_flatMap escaped_escapeValueChar, hvisible, String.ofList_toList]

/-- An attribute as a pair of its name and its value. -/
def pair (a : Attribute) : String × String := (a.name, a.value)

theorem addAttribute_of_not_mem {name value : String} {attributes : List (String × String)}
    (h : name ∉ attributes.map Prod.fst) :
    addAttribute name value attributes = attributes ++ [(name, value)] := by
  rw [addAttribute, if_neg]
  simpa using h

/-- The attributes of an opening tag are read back in order (`tagRest?`). -/
theorem tagRest?_attributes {as : List Attribute} (hplain : ∀ a ∈ as, a.isPlain = true)
    (hnames : (as.map (·.name)).Nodup) (rest : List Char) (fuel : Nat) (hfuel : as.length < fuel)
    (read : List (String × String)) (hread : ∀ a ∈ as, a.name ∉ read.map Prod.fst) :
    tagRest? fuel read (as.flatMap Markup.attributeChars ++ '>' :: rest) =
      some ⟨read ++ as.map pair, false, rest⟩ := by
  induction as generalizing fuel read with
  | nil =>
    obtain ⟨fuel, rfl⟩ : ∃ n, fuel = n + 1 := ⟨fuel - 1, by simp at hfuel; omega⟩
    rw [List.flatMap_nil, List.nil_append, tagRest?, List.dropWhile_cons_of_neg (by decide)]
    simp
  | cons a as ih =>
    obtain ⟨fuel, rfl⟩ : ∃ n, fuel = n + 1 := ⟨fuel - 1, by simp at hfuel; omega⟩
    have ha := hplain a List.mem_cons_self
    rw [Attribute.isPlain, Bool.and_eq_true] at ha
    obtain ⟨c, cs, hname, -, hchars⟩ := exists_of_isPlainName ha.1
    have hc := hchars c List.mem_cons_self
    rw [List.map_cons, List.nodup_cons] at hnames
    -- what follows the name: an equals sign and the value in quotes
    generalize hmore : as.flatMap Markup.attributeChars ++ '>' :: rest = more
    have hfront : (a :: as).flatMap Markup.attributeChars ++ '>' :: rest =
        ' ' :: c :: (cs ++ '=' :: '"' :: (a.value.toList.flatMap Markup.escapeValueChar ++
          '"' :: more)) := by
      simp [Markup.attributeChars, hname, ← hmore]
    have hinside : ∀ d ∈ cs, (!endsAttributeName d) = true := fun d hd => by
      simp [endsAttributeName_of_plain (hchars d (List.mem_cons_of_mem c hd))]
    have hnext : addAttribute a.name a.value read = read ++ [pair a] :=
      addAttribute_of_not_mem (hread a List.mem_cons_self)
    have hrest := ih (fun b hb => hplain b (List.mem_cons_of_mem a hb)) hnames.2 fuel
      (by simpa using hfuel) (read ++ [pair a]) fun b hb hin => by
        rw [List.map_append, List.mem_append] at hin
        rcases hin with hin | hin
        · exact hread b (List.mem_cons_of_mem a hb) hin
        · have heq : b.name = a.name := by simpa [pair] using hin
          exact hnames.1 (heq ▸ List.mem_map_of_mem hb)
    rw [hmore] at hrest
    have hslash : c ≠ '/' := isPlainNameChar_ne hc (by decide)
    have hangle : c ≠ '>' := isPlainNameChar_ne hc (by decide)
    rw [hfront, tagRest?, List.dropWhile_cons_of_pos (by decide),
      List.dropWhile_cons_of_neg (by simp [isSpace_of_plain hc])]
    split
    · next h => exact absurd h (by simp)
    · next h => exact absurd (List.cons.inj h).1 hangle
    · next h => exact absurd (List.cons.inj h).1 hslash
    · next h => exact absurd (List.cons.inj h).1 hslash
    · next d tail _ _ _ h =>
      obtain ⟨rfl, rfl⟩ := List.cons.inj h
      rw [List.dropWhile_append_of_pos hinside, List.takeWhile_append_of_pos hinside,
        List.dropWhile_cons_of_neg (by decide), List.takeWhile_cons_of_neg (by decide),
        List.append_nil, toName_of_plain hchars, ← hname, String.ofList_toList]
      dsimp only
      rw [List.dropWhile_cons_of_neg (by decide)]
      -- after the equals sign comes a quote, and not the end of the tag
      split
      · next after hsign =>
        rw [← (List.cons.inj hsign).2, List.dropWhile_cons_of_neg (by decide), value?_quoted ha.2]
        simp [hnext, hrest]
      · next hsign => exact absurd rfl (hsign _)

/-! ## Tokens -/

variable {tag : String}

theorem exists_of_mem_plainTags (htag : tag ∈ plainTags) :
    ∃ c cs, tag.toList = c :: cs ∧ c.isAlpha = true ∧ (∀ d ∈ c :: cs, isPlainNameChar d = true) ∧
      ∀ d, d = '!' ∨ d = '?' ∨ d = '/' → c ≠ d := by
  rcases List.mem_cons.1 htag with rfl | htag
  · exact ⟨'d', ['i', 'v'], rfl, by decide, List.all_eq_true.1 (by decide),
      by rintro d (rfl | rfl | rfl) <;> decide⟩
  · rw [List.mem_singleton.1 htag]
    exact ⟨'s', ['p', 'a', 'n'], rfl, by decide, List.all_eq_true.1 (by decide),
      by rintro d (rfl | rfl | rfl) <;> decide⟩

theorem length_le_attributeChars (as : List Attribute) :
    as.length ≤ (as.flatMap Markup.attributeChars).length := by
  induction as with
  | nil => simp
  | cons a as ih =>
    have hone : 1 ≤ (Markup.attributeChars a).length := by
      simp only [Markup.attributeChars, List.cons_append, List.length_cons]
      omega
    rw [List.flatMap_cons, List.length_append, List.length_cons]
    omega

/-- A tag is read from its name on (`takeTag`). -/
theorem takeTag_of_plain (htag : tag ∈ plainTags) (closing : Bool) {as : List Attribute}
    (hplain : ∀ a ∈ as, a.isPlain = true) (hnames : (as.map (·.name)).Nodup) (rest : List Char) :
    takeTag closing (tag.toList ++ (as.flatMap Markup.attributeChars ++ '>' :: rest)) =
      if closing then ⟨some (.closing tag), rest⟩
      else ⟨some (.opening ⟨tag, as.map pair, false⟩), rest⟩ := by
  obtain ⟨c, cs, hname, -, hchars, -⟩ := exists_of_mem_plainTags htag
  have hinside : ∀ d ∈ tag.toList, (!endsName d) = true := fun d hd => by
    have hends := endsAttributeName_of_plain (hchars d (hname ▸ hd))
    rw [endsAttributeName, Bool.or_eq_false_iff] at hends
    simp [hends.1]
  -- the name ends at the space before an attribute, or at the end of the tag
  have hstop : ∃ d tail, as.flatMap Markup.attributeChars ++ '>' :: rest = d :: tail ∧
      endsName d = true := by
    cases as with
    | nil => exact ⟨'>', rest, rfl, by decide⟩
    | cons a as => exact ⟨' ', _, rfl, by decide⟩
  have hlong := length_le_attributeChars as
  have hread := tagRest?_attributes hplain hnames rest
    ((tag.toList ++ (as.flatMap Markup.attributeChars ++ '>' :: rest)).length + 1)
    (by simp only [List.length_append, List.length_cons]; omega) [] (by simp)
  obtain ⟨d, tail, hcons, hends⟩ := hstop
  rw [hcons] at hread ⊢
  have htake : (tag.toList ++ d :: tail).takeWhile (fun c => !endsName c) = tag.toList := by
    rw [List.takeWhile_append_of_pos hinside, List.takeWhile_cons_of_neg (by simp [hends]),
      List.append_nil]
  have hdrop : (tag.toList ++ d :: tail).dropWhile (fun c => !endsName c) = d :: tail := by
    rw [List.dropWhile_append_of_pos hinside, List.dropWhile_cons_of_neg (by simp [hends])]
  have hwhole : toName tag.toList = tag := by
    rw [toName_of_plain fun c hc => hchars c (hname ▸ hc), String.ofList_toList]
  rw [takeTag, htake, hdrop, hread, hwhole]
  simp

/-- An opening tag is taken as one token, with its attributes in order (`Markup.openChars`). -/
theorem take_openChars (htag : tag ∈ plainTags) (foreign : Bool) {as : List Attribute}
    (hplain : ∀ a ∈ as, a.isPlain = true) (hnames : (as.map (·.name)).Nodup) (rest : List Char) :
    take foreign .ordinary (Markup.openChars tag as ++ rest) =
      ⟨some (.opening ⟨tag, as.map pair, false⟩), rest⟩ := by
  have hread := takeTag_of_plain htag false hplain hnames rest
  obtain ⟨c, cs, hname, halpha, -, hplace⟩ := exists_of_mem_plainTags htag
  have hfront : Markup.openChars tag as ++ rest =
      '<' :: (tag.toList ++ (as.flatMap Markup.attributeChars ++ '>' :: rest)) := by
    simp [Markup.openChars]
  rw [hfront, take]
  rw [hname] at hread ⊢
  rw [List.cons_append] at hread ⊢
  unfold takeAngle
  split
  · next h => exact absurd (List.cons.inj h).1 (hplace _ (Or.inl rfl))
  · next h => exact absurd (List.cons.inj h).1 (hplace _ (Or.inr (Or.inl rfl)))
  · next h => exact absurd (List.cons.inj h).1 (hplace _ (Or.inr (Or.inr rfl)))
  · next d tail _ _ _ h =>
    obtain ⟨rfl, rfl⟩ := List.cons.inj h
    rw [if_pos halpha, hread]
    rfl
  · next h => exact absurd h (by simp)

/-- A closing tag is taken as one token (`Markup.closeChars`). -/
theorem take_closeChars (htag : tag ∈ plainTags) (foreign : Bool) (rest : List Char) :
    take foreign .ordinary (Markup.closeChars tag ++ rest) = ⟨some (.closing tag), rest⟩ := by
  have hread := @takeTag_of_plain tag htag true [] (by simp) (by simp) rest
  obtain ⟨c, cs, hname, halpha, hchars, -⟩ := exists_of_mem_plainTags htag
  have hfront : Markup.closeChars tag ++ rest = '<' :: '/' :: (tag.toList ++ ('>' :: rest)) := by
    simp [Markup.closeChars]
  have hangle : c ≠ '>' := isPlainNameChar_ne (hchars c List.mem_cons_self) (by decide)
  rw [hfront, take]
  rw [hname, List.flatMap_nil, List.nil_append, List.cons_append] at hread
  rw [hname, List.cons_append, takeAngle]
  · rw [if_pos halpha, hread]
    rfl
  · exact hangle

/-- A text is taken as one token, up to the tag behind it. -/
theorem take_text (foreign : Bool) {cs : List Char} (hne : cs ≠ []) (rest : List Char) :
    take foreign .ordinary (cs.flatMap Markup.escapeTextChar ++ '<' :: rest) =
      ⟨some (.text cs), '<' :: rest⟩ := by
  have hinside : ∀ d ∈ cs.flatMap Markup.escapeTextChar, (d != '<') = true := fun d hd => by
    simpa using ne_angle_of_mem_escapeText hd
  obtain ⟨d, tail, hcons⟩ := List.exists_cons_of_ne_nil (escapeText_ne_nil hne)
  have hd : d ≠ '<' := ne_angle_of_mem_escapeText (hcons ▸ List.mem_cons_self)
  have hresolve : resolve false (d :: tail) = cs := by
    rw [← hcons, resolve_flatMap escaped_escapeTextChar]
  rw [hcons] at hinside ⊢
  rw [List.cons_append, take, ← List.cons_append, List.takeWhile_append_of_pos hinside,
    List.dropWhile_append_of_pos hinside, List.takeWhile_cons_of_neg (by decide),
    List.dropWhile_cons_of_neg (by decide), List.append_nil, hresolve]
  exact fun _ h => hd (List.cons.inj h).1

end Html

end ViewBinding
