import ViewBinding.Html.Fragment
import ViewBinding.Proofs.Html.Escaping
import ViewBinding.Proofs.Tree.Replacing

/-!
# The tree of what was written

The tokens of a plain view are put together again.  While it is read, the state of construction
stays calm: ordinary content, with nothing but plain elements open and no formatting to come back
to.  In a calm state every token has one effect, and a whole view has the effect of one more tree in
the row of the innermost open element.

* `Calm.body_opening`, `Calm.body_text`, `body_closing` — the effect of a token.
* `Calm.openTag`, `Calm.insertText`, `Calm.grown` — the steps that leave a state calm.
* `Calm.reads_chars`, `Calm.reads_rowChars` — the effect of a view and of a row of views.
-/

namespace ViewBinding

namespace Markup

/-! ## Plain views -/

/-- Whether a row begins with a text. -/
def startsWithText : List Markup → Bool
  | text _ :: _ => true
  | _ => false

mutual

/-- Whether a view is plain: elements of plain tags (`plainTags`), with plain attributes of different
names, over texts that are clean, not empty and not next to each other. -/
def isPlain : Markup → Bool
  | text payload => payload != "" && isClean payload
  | element tag attributes children =>
    plainTags.contains tag && attributes.all Attribute.isPlain &&
      decide (attributes.map (·.name)).Nodup && isPlainRow children

/-- Whether a row of views is plain. -/
def isPlainRow : List Markup → Bool
  | [] => true
  | m :: ms => isPlain m && (m.isElement || !startsWithText ms) && isPlainRow ms

end

theorem isPlain_element {tag : String} {attributes : List Attribute} {children : List Markup}
    (h : (element tag attributes children).isPlain = true) :
    tag ∈ plainTags ∧ (∀ a ∈ attributes, a.isPlain = true) ∧
      (attributes.map (·.name)).Nodup ∧ isPlainRow children = true := by
  simpa [isPlain, and_assoc] using h

theorem isPlain_text {payload : String} (h : (text payload).isPlain = true) :
    payload.toList ≠ [] ∧ ∀ c ∈ payload.toList, c ≠ '\x00' ∧ c ≠ '\r' := by
  rw [isPlain, Bool.and_eq_true, bne_iff_ne, isClean_iff] at h
  exact ⟨fun hnil => h.1 (String.toList_eq_nil_iff.1 hnil), h.2⟩

theorem isPlainRow_cons {m : Markup} {ms : List Markup} (h : isPlainRow (m :: ms) = true) :
    m.isPlain = true ∧ (m.isElement = true ∨ startsWithText ms = false) ∧
      isPlainRow ms = true := by
  simpa [isPlainRow, and_assoc] using h

end Markup

namespace Html

open Markup (isPlain isPlainRow)

theorem isVoid_of_plain {tag : String} (htag : tag ∈ plainTags) : Markup.isVoid tag = false := by
  rcases List.mem_cons.1 htag with rfl | htag
  · decide
  · rw [List.mem_singleton.1 htag]
    decide

/-- The text form of an element begins with an angle. -/
theorem exists_angle_of_isElement {m : Markup} (hm : m.isElement = true) :
    ∃ cs, m.chars = '<' :: cs := by
  cases m with
  | text payload => exact absurd hm (by simp [Markup.isElement])
  | element tag attributes children =>
    rw [Markup.chars]
    split
    · exact ⟨_, rfl⟩
    · exact ⟨_, rfl⟩

/-- A row that does not begin with a text begins with an angle, whatever tag is behind it. -/
theorem exists_angle_of_rowChars {ms : List Markup} (hms : Markup.startsWithText ms = false)
    (tail : List Char) : ∃ cs, Markup.rowChars ms ++ '<' :: tail = '<' :: cs := by
  rcases ms with - | ⟨m, ms⟩
  · exact ⟨tail, by rw [Markup.rowChars, List.nil_append]⟩
  · have helement : m.isElement = true := by
      cases m with
      | text payload => exact absurd hms (by simp [Markup.startsWithText])
      | element tag attributes children => rfl
    obtain ⟨cs, hcs⟩ := exists_angle_of_isElement helement
    exact ⟨cs ++ (Markup.rowChars ms ++ '<' :: tail), by simp [Markup.rowChars, hcs]⟩

/-! ## The trees of views -/

mutual

/-- How many numbers the tree of a view takes (`grow`). -/
def nodeCount : Markup → Nat
  | .text _ => 1
  | .element _ _ children => nodeCountRow children + 1

/-- How many numbers the trees of a row of views take. -/
def nodeCountRow : List Markup → Nat
  | [] => 0
  | m :: ms => nodeCount m + nodeCountRow ms

end

mutual

/-- A row with the tree of a view behind it, numbered from `k` on. -/
def grow (k : Nat) : Markup → Forest Item → Forest Item
  | .text payload, row => Construction.pushText k payload.toList row
  | .element tag attributes children, row =>
    row ++ [.node k (.element ⟨.html, tag⟩ (attributes.map pair)) (growRow (k + 1) children [])]

/-- A row with the trees of a row of views behind it, numbered from `k` on. -/
def growRow (k : Nat) : List Markup → Forest Item → Forest Item
  | [], row => row
  | m :: ms, row => growRow (k + nodeCount m) ms (grow k m row)

end

namespace Construction

/-! ## Calm states -/

/-- Whether an open element is a plain one (`plainTags`). -/
def IsPlainOpen (e : OpenElement) : Prop :=
  ∃ tag ∈ plainTags, e.name = ⟨.html, tag⟩

/-- What holds of a `Construction` while a plain view is read. -/
structure Calm (b : Construction) : Prop where
  mode : b.mode = .body
  reading : b.reading = .ordinary
  formatting : b.formatting = []
  fostering : b.fostering = false
  skipLineFeed : b.skipLineFeed = false
  stack : ∃ es, b.stack = es ++ [⟨0, rootName, false⟩] ∧ ∀ e ∈ es, IsPlainOpen e
  fresh : ∀ i ∈ b.forest.ids, i < b.next
  current : b.current.id < b.next

variable {b : Construction} {tag : String}

theorem calm_start : Calm start where
  mode := rfl
  reading := rfl
  formatting := rfl
  fostering := rfl
  skipLineFeed := rfl
  stack := ⟨[], rfl, by simp⟩
  fresh := by simp [start]
  current := by simp [start, Construction.current]

theorem Calm.of_mem_stack (hb : Calm b) {e : OpenElement} (he : e ∈ b.stack) :
    e.name = rootName ∨ IsPlainOpen e := by
  obtain ⟨es, hstack, hes⟩ := hb.stack
  rw [hstack, List.mem_append, List.mem_singleton] at he
  rcases he with he | rfl
  · exact Or.inr (hes e he)
  · exact Or.inl rfl

/-- In a `Calm` state no element is open whose name is neither that of the root nor a plain one. -/
theorem Calm.isHtml_eq_false (hb : Calm b) {name : String} (hname : name ∉ "html" :: plainTags)
    {e : OpenElement} (he : e ∈ b.stack) : e.name.isHtml name = false := by
  rw [List.mem_cons, not_or] at hname
  rcases hb.of_mem_stack he with hroot | ⟨tag, htag, hplain⟩
  · simpa [hroot, rootName, ElementName.isHtml] using Ne.symm hname.1
  · have hne : tag ≠ name := fun heq => hname.2 (heq ▸ htag)
    simpa [hplain, ElementName.isHtml] using hne

theorem anyUpTo_eq_false {stop : ElementName → Bool} {p : OpenElement → Bool} :
    ∀ {es : List OpenElement}, (∀ e ∈ es, p e = false) → anyUpTo stop p es = false
  | [], _ => rfl
  | e :: es, h => by
    have hrest : anyUpTo stop p es = false := anyUpTo_eq_false fun d hd => h d (List.mem_cons_of_mem e hd)
    simp [anyUpTo, h e List.mem_cons_self, hrest]

theorem Calm.leaveParagraph (hb : Calm b) : b.leaveParagraph = b := by
  have hnone : b.inButtonScope "p" = false :=
    anyUpTo_eq_false fun e he => hb.isHtml_eq_false (by decide) he
  rw [Construction.leaveParagraph, hnone, if_neg (by decide)]

theorem Calm.reconstruct (hb : Calm b) : b.reconstruct = b := by
  have hformatting := hb.formatting
  cases b
  simp_all [Construction.reconstruct, reopen]

theorem Calm.placeIn (hb : Calm b) (e : OpenElement) : b.placeIn e = .lastIn e.id := by
  simp [Construction.placeIn, hb.fostering]

theorem Calm.contextualName (hb : Calm b) : b.contextualName.vocabulary = .html := by
  unfold Construction.contextualName
  split
  · next e d es hstack =>
    have hmem : b.current ∈ b.stack := by simp [Construction.current, hstack]
    rcases hb.of_mem_stack hmem with hroot | ⟨tag, -, hplain⟩
    · rw [hroot, rootName]
    · rw [hplain]
  · rfl

/-! ## What a token leaves calm -/

/-- A text is put at the end of the innermost open element (`pushText`). -/
theorem Calm.insertText_eq (hb : Calm b) (cs : List Char) :
    b.insertText cs =
      { b with
        forest := b.forest.update b.current.id (Tree.mapChildren (pushText b.next cs))
        next := b.next + 1 } := by
  rw [Construction.insertText, hb.placeIn]

/-- A plain element opens at the end of the innermost open element. -/
theorem Calm.openTag_eq (hb : Calm b) (tag : String) (attributes : List (String × String)) :
    b.openTag ⟨tag, attributes, false⟩ =
      { b with
        forest := b.forest.update b.current.id (Tree.mapChildren
          (· ++ [.node b.next (.element ⟨.html, tag⟩ attributes) []]))
        next := b.next + 1
        stack := ⟨b.next, ⟨.html, tag⟩, false⟩ :: b.stack } := by
  have hplain : annotates ⟨.html, tag⟩ attributes = false := by
    rw [annotates, Bool.and_eq_false_iff]
    exact Or.inl (by simp)
  simp only [Construction.openTag, openElement, insertElement, hb.placeIn, putTree, hplain]

theorem mem_ids_pushText {k i : Nat} {cs : List Char} : ∀ {row : Forest Item},
    i ∈ Forest.ids (pushText k cs row) → i ∈ row.ids ∨ i = k
  | [], hi => by simpa [pushText] using hi
  | [.node n (.text ds) ts], hi => Or.inl (by simpa [pushText] using hi)
  | [.node n .comment ts], hi => by simpa [pushText, or_assoc] using hi
  | [.node n (.element ..) ts], hi => by simpa [pushText, or_assoc] using hi
  | t :: u :: ts, hi => by
    rw [pushText, Forest.ids_cons, List.mem_append] at hi
    · rw [Forest.ids_cons, List.mem_append, or_assoc]
      exact hi.imp_right mem_ids_pushText
    · simp

theorem Calm.insertText (hb : Calm b) (cs : List Char) : Calm (b.insertText cs) := by
  rw [hb.insertText_eq]
  refine { hb with fresh := fun i hi => ?_, current := Nat.lt_succ_of_lt hb.current }
  rcases Forest.mem_ids_update (p := (· = b.next)) (fun _ => mem_ids_pushText) hi with hi | rfl
  · exact Nat.lt_succ_of_lt (hb.fresh i hi)
  · exact Nat.lt_succ_self _

theorem Calm.openTag (hb : Calm b) (htag : tag ∈ plainTags)
    (attributes : List (String × String)) : Calm (b.openTag ⟨tag, attributes, false⟩) := by
  rw [hb.openTag_eq]
  obtain ⟨es, hstack, hes⟩ := hb.stack
  refine { hb with stack := ?_, fresh := fun i hi => ?_, current := Nat.lt_succ_self _ }
  · refine ⟨⟨b.next, ⟨.html, tag⟩, false⟩ :: es, by rw [hstack, List.cons_append], ?_⟩
    exact List.forall_mem_cons.2 ⟨⟨tag, htag, rfl⟩, hes⟩
  · have hrow : ∀ row : Forest Item,
        i ∈ (row ++ [.node b.next (.element ⟨.html, tag⟩ attributes) []] : Forest Item).ids →
          i ∈ row.ids ∨ i = b.next := fun row h => by simpa [Forest.ids_append] using h
    rcases Forest.mem_ids_update (p := (· = b.next)) hrow hi with hi | rfl
    · exact Nat.lt_succ_of_lt (hb.fresh i hi)
    · exact Nat.lt_succ_self _

/-! ## The effect of a token -/

theorem Calm.place_eq (hb : Calm b) {t : Token} (htext : t ≠ .text []) (hdoctype : t ≠ .doctype) :
    b.place t = b.body t := by
  have hsame : { b with skipLineFeed := false } = b := by
    have hskip := hb.skipLineFeed
    cases b
    simp_all
  have hforeign : b.isForeign t = false := by
    unfold isForeign
    exact if_pos hb.contextualName
  have hup : placeUpTo (b.stack.length + 20) b t = b.body t := by
    simp [placeUpTo, hforeign, byMode, hb.mode, done]
  unfold place
  rw [hsame, hb.skipLineFeed]
  split
  · exact absurd rfl hdoctype
  · exact absurd rfl htext
  · rw [if_pos (by decide), hup]
  · exact hup

theorem Calm.body_opening (hb : Calm b) (htag : tag ∈ plainTags)
    (attributes : List (String × String)) :
    b.body (.opening ⟨tag, attributes, false⟩) = b.openTag ⟨tag, attributes, false⟩ := by
  rcases List.mem_cons.1 htag with rfl | htag
  · simp [body, bodyOpening, headNames, headVoidNames, blockNames, hb.leaveParagraph]
  · rw [List.mem_singleton.1 htag]
    simp [body, bodyOpening, headNames, headVoidNames, blockNames, headingNames, formattingNames,
      inlineVoidNames, tablePartNames, hb.reconstruct]

theorem Calm.body_text (hb : Calm b) {cs : List Char} (hne : cs ≠ [])
    (hclean : ∀ c ∈ cs, c ≠ '\x00') : b.body (.text cs) = b.insertText cs := by
  have hkept : cs.filter (· != '\x00') = cs :=
    List.filter_eq_self.2 fun c hc => bne_iff_ne.2 (hclean c hc)
  rw [body, bodyText, hkept]
  split
  · exact absurd rfl hne
  · rw [hb.reconstruct]

/-- The closing tag of the innermost open element closes it, and no other (`pop`). -/
theorem body_closing (htag : tag ∈ plainTags) {k : Nat} {es : List OpenElement}
    (hstack : b.stack = ⟨k, ⟨.html, tag⟩, false⟩ :: es) : b.body (.closing tag) = b.pop := by
  have hopen : (⟨.html, tag⟩ : ElementName).isHtml tag = true := by simp [ElementName.isHtml]
  have hstays : ∀ names : List String, tag ∉ names → b.closeImplied names = b := by
    intro names hnot
    have hfront : (⟨.html, tag⟩ : ElementName).isIn names = false := by
      simpa [ElementName.isIn] using hnot
    rw [closeImplied, popWhile, hstack, List.dropWhile_cons_of_neg (by simp [hfront]), ← hstack]
  have hpop : b.popThroughName tag = b.pop := by
    rw [popThroughName, popThrough, popWhile, hstack,
      List.dropWhile_cons_of_neg (by simp [hopen]), ← hstack]
  rw [body]
  rcases List.mem_cons.1 htag with rfl | htag
  · -- a container closes from anywhere in its scope
    have hscope : b.inScope "div" = true := by simp [inScope, hstack, anyUpTo, hopen]
    simp only [bodyClosing, containerNames]
    simp [hscope, hstays impliedEndNames (by decide), hpop]
  · rw [List.mem_singleton] at htag
    subst htag
    have hother : b.closeOther "span" = b.pop := by
      have hfind : b.stack.find? (fun e => e.name.isHtml "span" || e.name.isIn specialNames) =
          some ⟨k, ⟨.html, "span"⟩, false⟩ := by
        rw [hstack, List.find?_cons_of_pos (by simp [hopen])]
      rw [closeOther, hfind]
      simp only [hopen, if_true]
      rw [closeImpliedExcept, hstays _ (by decide), popThrough, popWhile, hstack,
        List.dropWhile_cons_of_neg (by simp), ← hstack]
    rw [← hother]
    simp [bodyClosing, containerNames, headingNames, formattingNames]

/-! ## The effect of a view -/

/-- The state with the tree of a view at the end of the innermost open element (`grow`). -/
def grown (b : Construction) (m : Markup) : Construction :=
  { b with
    forest := b.forest.update b.current.id (Tree.mapChildren (grow b.next m))
    next := b.next + nodeCount m }

/-- The state with the trees of a row of views at the end of the innermost open element (`growRow`). -/
def grownRow (b : Construction) (ms : List Markup) : Construction :=
  { b with
    forest := b.forest.update b.current.id (Tree.mapChildren (growRow b.next ms))
    next := b.next + nodeCountRow ms }

theorem grownRow_nil (b : Construction) : b.grownRow [] = b := by
  have hsame : b.forest.update b.current.id (Tree.mapChildren (growRow b.next [])) = b.forest :=
    Forest.update_self _ (fun t => by cases t; rfl) _
  rw [grownRow, hsame]
  rfl

theorem grownRow_cons (b : Construction) (m : Markup) (ms : List Markup) :
    b.grownRow (m :: ms) = (b.grown m).grownRow ms := by
  have htwice := Forest.update_update b.current.id (grow b.next m)
    (growRow (b.next + nodeCount m) ms) b.forest
  simp only [grownRow, grown, nodeCountRow, Nat.add_assoc, current] at htwice ⊢
  rw [htwice]
  rfl

/-- An element grows by opening (`openTag`), growing its content and closing (`pop`). -/
theorem Calm.grown_element (hb : Calm b) (attributes : List Attribute) (children : List Markup) :
    ((b.openTag ⟨tag, attributes.map pair, false⟩).grownRow children).pop =
      b.grown (.element tag attributes children) := by
  have hfresh : b.next ∉ b.forest.ids := fun hin => Nat.lt_irrefl _ (hb.fresh _ hin)
  have hbelow := Forest.update_below (Nat.ne_of_gt hb.current)
    (Item.element ⟨.html, tag⟩ (attributes.map pair)) [] (growRow (b.next + 1) children) hfresh
  rw [hb.openTag_eq]
  simp only [grownRow, grown, nodeCount, pop, Construction.current, List.headD_cons,
    List.drop_succ_cons, List.drop_zero] at hbelow ⊢
  rw [hbelow, Nat.add_assoc, Nat.add_comm 1]
  rfl

theorem Calm.grown (hb : Calm b) {attributes : List Attribute} {children : List Markup}
    (hrow : Calm ((b.openTag ⟨tag, attributes.map pair, false⟩).grownRow children)) :
    Calm (b.grown (.element tag attributes children)) := by
  refine { hb with fresh := ?_, current := Nat.lt_of_lt_of_le hb.current (Nat.le_add_right _ _) }
  rw [← hb.grown_element]
  exact hrow.fresh

/-- The state becomes another one by reading the text up to a rest of it (`placeAll`). -/
def Reads (b : Construction) (cs : List Char) (c : Construction) (rest : List Char) : Prop :=
  ∀ fuel, cs.length ≤ fuel → ∃ n, rest.length ≤ n ∧ placeAll fuel b cs = placeAll n c rest

theorem Reads.trans {c d : Construction} {cs ds es : List Char} (hc : Reads b cs c ds)
    (hd : Reads c ds d es) : Reads b cs d es := fun fuel hfuel => by
  obtain ⟨n, hn, hleft⟩ := hc fuel hfuel
  obtain ⟨k, hk, hrest⟩ := hd n hn
  exact ⟨k, hk, hleft.trans hrest⟩

/-- A token is read by `take` and placed by the rules of ordinary content. -/
theorem Calm.reads_token (hb : Calm b) {cs rest : List Char} {t : Token}
    (htake : take false .ordinary (cs ++ rest) = ⟨some t, rest⟩) (hcs : cs ≠ [])
    (htext : t ≠ .text []) (hdoctype : t ≠ .doctype) : Reads b (cs ++ rest) (b.body t) rest := by
  obtain ⟨c, cs, rfl⟩ := List.exists_cons_of_ne_nil hcs
  rw [List.cons_append] at htake ⊢
  have hsame : { b with skipLineFeed := b.skipLineFeed && !startsFaulty (c :: (cs ++ rest)) } =
      b := by
    have hskip := hb.skipLineFeed
    cases b
    simp_all
  have hread : take (b.contextualName.vocabulary != .html) b.reading (c :: (cs ++ rest)) =
      ⟨some t, rest⟩ := by
    rw [← htake, hb.contextualName, hb.reading]
    rfl
  intro fuel hfuel
  obtain ⟨fuel, rfl⟩ : ∃ n, fuel = n + 1 :=
    ⟨fuel - 1, by simp only [List.length_cons] at hfuel; omega⟩
  refine ⟨fuel, ?_, by rw [placeAll, hread, hsame, ← hb.place_eq htext hdoctype]⟩
  simp only [List.length_cons, List.length_append] at hfuel
  omega

mutual

/-- **A plain view is read as one more tree below the innermost open element** (`grown`), and the state is
`Calm` again. -/
theorem Calm.reads_chars : ∀ {m : Markup} {b : Construction}, Calm b → m.isPlain = true →
    ∀ {rest : List Char}, (m.isElement = true ∨ ∃ tail, rest = '<' :: tail) →
      Calm (b.grown m) ∧ Reads b (m.chars ++ rest) (b.grown m) rest
  | .text payload, b, hb, hm, rest, hrest => by
    obtain ⟨hne, hclean⟩ := Markup.isPlain_text hm
    obtain ⟨tail, rfl⟩ := hrest.resolve_left (by simp [Markup.isElement])
    have hgrown : b.body (.text payload.toList) = b.grown (.text payload) := by
      rw [hb.body_text hne fun c hc => (hclean c hc).1, hb.insertText_eq]
      rfl
    have hcalm := hb.insertText payload.toList
    rw [← hb.body_text hne fun c hc => (hclean c hc).1] at hcalm
    rw [Markup.chars, ← hgrown]
    exact ⟨hgrown ▸ hcalm, hb.reads_token (take_text false hne tail) (escapeText_ne_nil hne)
      (by simpa using hne) (by simp)⟩
  | .element tag attributes children, b, hb, hm, rest, _ => by
    obtain ⟨htag, hplain, hnames, hchildren⟩ := Markup.isPlain_element hm
    have hopened := hb.openTag htag (attributes.map pair)
    obtain ⟨hrow, hreads⟩ := hopened.reads_rowChars hchildren
      ('/' :: tag.toList ++ ['>'] ++ rest)
    have hstack : ((b.openTag ⟨tag, attributes.map pair, false⟩).grownRow children).stack =
        ⟨b.next, ⟨.html, tag⟩, false⟩ :: b.stack := by
      rw [hb.openTag_eq]
      rfl
    have hopen := hb.reads_token (take_openChars htag false hplain hnames
      (Markup.rowChars children ++ (Markup.closeChars tag ++ rest))) (by simp [Markup.openChars])
      (by simp) (by simp)
    have hclose := hrow.reads_token (take_closeChars htag false rest) (by simp [Markup.closeChars])
      (by simp) (by simp)
    rw [hb.body_opening htag] at hopen
    rw [body_closing htag hstack, hb.grown_element] at hclose
    have hchars : (Markup.element tag attributes children).chars ++ rest =
        Markup.openChars tag attributes ++
          (Markup.rowChars children ++ (Markup.closeChars tag ++ rest)) := by
      rw [Markup.chars, isVoid_of_plain htag, if_neg (by decide), List.append_assoc,
        List.append_assoc]
    rw [hchars]
    exact ⟨hb.grown hrow, hopen.trans (hreads.trans hclose)⟩

/-- A plain row is read as its trees below the innermost open element (`grownRow`). -/
theorem Calm.reads_rowChars : ∀ {ms : List Markup} {b : Construction}, Calm b →
    isPlainRow ms = true → ∀ tail : List Char,
      Calm (b.grownRow ms) ∧
        Reads b (Markup.rowChars ms ++ '<' :: tail) (b.grownRow ms) ('<' :: tail)
  | [], b, hb, _, tail => by
    rw [grownRow_nil, Markup.rowChars, List.nil_append]
    exact ⟨hb, fun fuel hfuel => ⟨fuel, hfuel, rfl⟩⟩
  | m :: ms, b, hb, hms, tail => by
    obtain ⟨hm, happart, hms⟩ := Markup.isPlainRow_cons hms
    obtain ⟨hcalm, hreads⟩ := hb.reads_chars hm
      (happart.imp_right fun h => exists_angle_of_rowChars h tail)
    obtain ⟨hrow, hrest⟩ := hcalm.reads_rowChars hms tail
    rw [grownRow_cons, Markup.rowChars, List.append_assoc]
    exact ⟨hrow, hreads.trans hrest⟩

end

end Construction

end Html

end ViewBinding
