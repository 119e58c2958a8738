import ViewBinding.Proofs.Html.Growing

/-!
# Plain views survive their text form

A plain view that is written and read again is the same view: the same tags, the same attributes in
order, the same texts, the same nesting.  Its texts and attribute values are arbitrary, so nothing
that stands in one of them is ever read as markup.

* `viewRow_growRow` — the views of the trees that were grown are the views that were written.
* `parseFragment_outer` — the round trip.
-/

namespace ViewBinding.Html

open Markup (isPlain isPlainRow startsWithText)

/-! ## The views of grown trees -/

theorem set_of_not_mem {name value : String} : ∀ {as : List Attribute}, name ∉ as.map (·.name) →
    Attribute.set name value as = as ++ [⟨name, value⟩]
  | [], _ => rfl
  | a :: as, h => by
    rw [List.map_cons, List.mem_cons, not_or] at h
    rw [Attribute.set, if_neg (Ne.symm h.1), set_of_not_mem h.2, List.cons_append]

/-- Attributes of different names stay as they are, and in order, when `Attribute.set` puts one after the
other. -/
theorem foldl_set_pair {as : List Attribute} (hnames : (as.map (·.name)).Nodup)
    (before : List Attribute) (hbefore : ∀ a ∈ as, a.name ∉ before.map (·.name)) :
    (as.map pair).foldl (fun as a => Attribute.set a.1 a.2 as) before = before ++ as := by
  induction as generalizing before with
  | nil => simp
  | cons a as ih =>
    rw [List.map_cons, List.nodup_cons] at hnames
    have hset : Attribute.set a.name a.value before = before ++ [a] :=
      set_of_not_mem (hbefore a List.mem_cons_self)
    rw [List.map_cons, List.foldl_cons, pair, hset, ih hnames.2 _ fun b hb hin => ?_,
      List.append_assoc, List.singleton_append]
    rw [List.map_append, List.mem_append] at hin
    rcases hin with hin | hin
    · exact hbefore b (List.mem_cons_of_mem a hb) hin
    · have heq : b.name = a.name := by simpa using hin
      exact hnames.1 (heq ▸ List.mem_map_of_mem hb)

theorem viewAttributes_pair {as : List Attribute} (hnames : (as.map (·.name)).Nodup) :
    viewAttributes (as.map pair) = as :=
  foldl_set_pair hnames [] (by simp)

/-- Whether a row of trees ends with a text. -/
def EndsWithText (row : Forest Item) : Prop :=
  ∃ n cs ts, row.getLast? = some (.node n (.text cs) ts)

theorem pushText_eq_append {k : Nat} {cs : List Char} : ∀ {row : Forest Item},
    ¬ EndsWithText row → Construction.pushText k cs row = row ++ [.node k (.text cs) []]
  | [], _ => rfl
  | [.node n (.text ds) ts], h => absurd ⟨n, ds, ts, rfl⟩ h
  | [.node n .comment ts], _ => rfl
  | [.node n (.element ..) ts], _ => rfl
  | t :: u :: ts, h => by
    have hrest : ¬ EndsWithText (u :: ts) := by
      rintro ⟨n, ds, us, hlast⟩
      exact h ⟨n, ds, us, by rw [List.getLast?_cons_cons, hlast]⟩
    rw [Construction.pushText, pushText_eq_append hrest, List.cons_append]
    · rfl
    · exact fun _ _ _ _ hnil => absurd hnil (by simp)

theorem viewRow_append (ts us : Forest Item) : viewRow (ts ++ us) = viewRow ts ++ viewRow us := by
  induction ts with
  | nil => rw [List.nil_append, viewRow, List.nil_append]
  | cons t ts ih => rw [List.cons_append, viewRow, viewRow, ih, List.append_assoc]

mutual

/-- The views of a row with the tree of a plain view behind it (`grow`). -/
theorem viewRow_grow : ∀ {m : Markup} {k : Nat} {row : Forest Item}, m.isPlain = true →
    (m.isElement = true ∨ ¬ EndsWithText row) → viewRow (grow k m row) = viewRow row ++ [m]
  | .text payload, k, row, _, hrow => by
    have hends : ¬ EndsWithText row := hrow.resolve_left (by simp [Markup.isElement])
    rw [grow, pushText_eq_append hends, viewRow_append]
    simp [viewRow, view, String.ofList_toList]
  | .element tag attributes children, k, row, hm, _ => by
    obtain ⟨htag, -, hnames, hchildren⟩ := Markup.isPlain_element hm
    have htemplate : (⟨.html, tag⟩ : ElementName).isHtml "template" = false := by
      have hne : tag ≠ "template" := fun heq => absurd (heq ▸ htag) (by decide)
      simpa [ElementName.isHtml] using hne
    have hrow : viewRow (growRow (k + 1) children []) = children := by
      rw [viewRow_growRow hchildren (Or.inr fun ⟨_, _, _, h⟩ => by simp at h)]
      rfl
    rw [grow, viewRow_append]
    simp only [viewRow, view, htemplate, hrow, viewAttributes_pair hnames, List.append_nil]
    rfl

/-- **The views of a row with the trees of a plain row behind it**, as `growRow` puts them there, are those
of the row and the plain ones. -/
theorem viewRow_growRow : ∀ {ms : List Markup} {k : Nat} {row : Forest Item},
    isPlainRow ms = true → (startsWithText ms = false ∨ ¬ EndsWithText row) →
      viewRow (growRow k ms row) = viewRow row ++ ms
  | [], k, row, _, _ => by rw [growRow, List.append_nil]
  | m :: ms, k, row, hms, hrow => by
    obtain ⟨hm, happart, hms⟩ := Markup.isPlainRow_cons hms
    have hfirst : m.isElement = true ∨ ¬ EndsWithText row := hrow.imp_left fun h => by
      cases m with
      | text payload => exact absurd h (by simp [startsWithText])
      | element tag attributes children => rfl
    have hnext : startsWithText ms = false ∨ ¬ EndsWithText (grow k m row) := by
      refine happart.symm.imp_right fun helement => ?_
      cases m with
      | text payload => exact absurd helement (by simp [Markup.isElement])
      | element tag attributes children =>
        rintro ⟨n, cs, ts, hlast⟩
        rw [grow, List.getLast?_append_cons, List.getLast?_singleton] at hlast
        simp at hlast
    rw [growRow, viewRow_growRow hms hnext, viewRow_grow hm hfirst, List.append_assoc,
      List.singleton_append]

end

/-! ## Line ends -/

theorem lineEnds_eq_self : ∀ {cs : List Char}, '\r' ∉ cs → normalize.lineEnds cs = cs
  | [], _ => rfl
  | c :: cs, h => by
    rw [List.mem_cons, not_or] at h
    have hrest := lineEnds_eq_self h.2
    unfold normalize.lineEnds
    split
    · next hnil => exact absurd hnil (by simp)
    · next heq => exact absurd (List.cons.inj heq).1.symm h.1
    · next heq => exact absurd (List.cons.inj heq).1.symm h.1
    · next heq =>
      obtain ⟨rfl, rfl⟩ := List.cons.inj heq
      rw [hrest]

/-- Escaping brings in no carriage return. -/
theorem return_not_mem_escaped {c : Char} {es : List Char} (hes : Escaped c es) (hc : c ≠ '\r') :
    '\r' ∉ es := by
  cases hes with
  | plain _ => simpa using Ne.symm hc
  | @reference name hname _ =>
    have hout : '\r' ∉ name := fun hin => absurd (hname _ hin) (by decide)
    simp [hout]

theorem return_not_mem_flatMap {cs : List Char} {e : Char → List Char}
    (he : ∀ c, Escaped c (e c)) (hcs : ∀ c ∈ cs, c ≠ '\r') : '\r' ∉ cs.flatMap e := fun hin => by
  obtain ⟨c, hc, hin⟩ := List.mem_flatMap.1 hin
  exact return_not_mem_escaped (he c) (hcs c hc) hin

theorem return_not_mem_openChars {tag : String} {as : List Attribute} (htag : tag ∈ plainTags)
    (hplain : ∀ a ∈ as, a.isPlain = true) : '\r' ∉ Markup.openChars tag as := by
  have hname : '\r' ∉ tag.toList := fun hin => by
    obtain ⟨c, cs, hcs, -, hchars, -⟩ := exists_of_mem_plainTags htag
    exact absurd (hchars _ (hcs ▸ hin)) (by decide)
  have hattributes : '\r' ∉ as.flatMap Markup.attributeChars := fun hin => by
    obtain ⟨a, ha, hin⟩ := List.mem_flatMap.1 hin
    have hplain := hplain a ha
    rw [Attribute.isPlain, Bool.and_eq_true] at hplain
    obtain ⟨c, cs, hcs, -, hchars⟩ := exists_of_isPlainName hplain.1
    have haname : '\r' ∉ a.name.toList := fun hin => absurd (hchars _ (hcs ▸ hin)) (by decide)
    have hvalue := return_not_mem_flatMap escaped_escapeValueChar fun c hc =>
      (isClean_iff.1 hplain.2 c hc).2
    simp [Markup.attributeChars, haname, hvalue] at hin
  simp [Markup.openChars, hname, hattributes]

mutual

/-- No line end of another kind is in the text form of a plain view, so `normalize` has nothing to do. -/
theorem return_not_mem_chars : ∀ {m : Markup}, m.isPlain = true → '\r' ∉ m.chars
  | .text payload, hm => by
    rw [Markup.chars]
    exact return_not_mem_flatMap escaped_escapeTextChar fun c hc =>
      ((Markup.isPlain_text hm).2 c hc).2
  | .element tag attributes children, hm => by
    obtain ⟨htag, hplain, -, hchildren⟩ := Markup.isPlain_element hm
    have hopen := return_not_mem_openChars htag hplain
    have hclose : '\r' ∉ Markup.closeChars tag := fun hin => by
      obtain ⟨c, cs, hcs, -, hchars, -⟩ := exists_of_mem_plainTags htag
      have hname : '\r' ∉ tag.toList := fun hin => absurd (hchars _ (hcs ▸ hin)) (by decide)
      simp [Markup.closeChars, hname] at hin
    rw [Markup.chars, isVoid_of_plain htag, if_neg (by decide)]
    simp [hopen, hclose, return_not_mem_rowChars hchildren]

theorem return_not_mem_rowChars : ∀ {ms : List Markup}, isPlainRow ms = true →
    '\r' ∉ Markup.rowChars ms
  | [], _ => by simp [Markup.rowChars]
  | m :: ms, hms => by
    obtain ⟨hm, -, hms⟩ := Markup.isPlainRow_cons hms
    simp [Markup.rowChars, return_not_mem_chars hm, return_not_mem_rowChars hms]

end

/-- The text form of a plain element is read as it stands (`normalize`). -/
theorem normalize_chars {m : Markup} (helement : m.isElement = true) (hplain : m.isPlain = true) :
    normalize m.chars = m.chars := by
  have hends := lineEnds_eq_self (return_not_mem_chars hplain)
  obtain ⟨cs, hfront⟩ := exists_angle_of_isElement helement
  rw [hfront] at hends ⊢
  exact hends

/-! ## The round trip -/

open Construction in
/-- **A plain element that is written and read again is the same element**: `parse_fragment_nodes` undoes
`outer_html`. -/
theorem parseFragment_outer {m : Markup} (helement : m.isElement = true)
    (hplain : m.isPlain = true) : parseFragment m.outer = [m] := by
  obtain ⟨-, hreads⟩ := @Calm.reads_chars m start calm_start hplain [] (Or.inl helement)
  rw [List.append_nil] at hreads
  obtain ⟨n, -, hleft⟩ := hreads (m.chars.length + 1) (Nat.le_succ _)
  have hplaced : placeAll (m.chars.length + 1) start m.chars = start.grown m := by
    rw [hleft]
    cases n <;> rfl
  have hfinish : (start.grown m).finish = start.grown m := if_neg (by simp [grown, start])
  have hrow : (start.grown m).forest.children 0 = grow 1 m [] := by
    cases m with
    | text payload => rfl
    | element tag attributes children => rfl
  rw [parseFragment, Markup.outer, String.toList_ofList, normalize_chars helement hplain,
    hplaced, hfinish, hrow, viewRow_grow hplain (Or.inl helement)]
  rfl

/-- An element whose value and texts are full of markup. -/
def overgrown : Markup :=
  .element "div" [⟨"data-note", "\"></div><b title='&quot;'>"⟩, ⟨"x", "a &amp b"⟩]
    [.text "</div><!-- &lt;", .element "span" [] [], .text "\n &#60;script> &", .element "div" [] []]

theorem parseFragment_outer_overgrown :
    overgrown.isElement = true ∧ overgrown.isPlain = true ∧
      parseFragment overgrown.outer = [overgrown] :=
  ⟨rfl, by decide, parseFragment_outer rfl (by decide)⟩

end ViewBinding.Html
