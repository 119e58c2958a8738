import ViewBinding.Proofs.Session.NoNewObservers
import ViewBinding.Proofs.World.Content
import ViewBinding.Proofs.World.Relinking
import ViewBinding.Proofs.World.Splicing

/-!
# Writing a text content

A text node takes a text as its own.  An element hands out the row below it and shows a new text in its
place, or nothing for no text; but if the row is a single text node that holds the text, it stays.  The
difference matters to whoever binds that node, and it is what makes writing the same text once more
change nothing.

* `View.textContent_setText` — the text is shown.
* `View.setText_again` — what was written is there.
* `World.Accounted.find?_removed` — what was handed out is whole, and stands below nothing.
* `World.Accounted.row_setText`, `World.Accounted.node?_setText` — the rows and the nodes elsewhere.
* `World.TextWritten`, `setText_exact` — all of it, for every node of every session.
-/

namespace ViewBinding

open List

variable {κ : Type}

/-! ## Views -/

namespace View

section

variable (fresh : NodeId) (text : String) (t : View κ)

theorem id_setText : (t.setText fresh text).view.id = t.id :=
  (⟨[], fresh, [], []⟩ : Wiring κ).id_writeText text t

/-- **The text is shown**: `text_content` is what `set_text_content` was given. -/
theorem textContent_setText : (t.setText fresh text).view.textContent = text := by
  cases h : t.val.isElement with
  | true => exact (rewritten_setText fresh text h).textContent_eq h
  | false =>
    rw [setText_of_text fresh text h]
    obtain ⟨id, n, row⟩ := t
    cases hc : n.content with
    | text payload => simp [textContent, textChars, Tree.mapRoot, Node.setPayload, hc]
    | element tag attributes field => simp [Tree.val, Node.isElement, hc] at h

/-- A text that an element shows already, or that was put below it, is left as it is. -/
theorem setText_of_there (helement : t.val.isElement = true)
    (hthere : showsAlready text t.children = true ∨ ∃ made, t.children = textRow made text) :
    (t.setText fresh text).view = t ∧ (t.setText fresh text).removed = [] := by
  rcases hthere with hshown | ⟨made, hrow⟩
  · rw [setText_of_shown fresh text helement hshown]
    exact ⟨rfl, rfl⟩
  · by_cases htext : text = ""
    · -- there is nothing to hand out, and nothing to put there
      have hempty : ∀ k, (textRow k text : Forest (Node κ)) = [] := fun _ => if_pos htext
      rw [hempty] at hrow
      rw [setText_of_new fresh text helement (hrow ▸ rfl), hempty]
      obtain ⟨id, n, row⟩ := t
      obtain rfl : row = [] := hrow
      exact ⟨rfl, rfl⟩
    · rw [setText_of_shown fresh text helement (hrow ▸ showsAlready_textRow made htext)]
      exact ⟨rfl, rfl⟩

/-- **What was written is there.**  Writing the text once more changes nothing and hands out nothing. -/
theorem setText_again (fresh' : NodeId) :
    ((t.setText fresh text).view.setText fresh' text).view = (t.setText fresh text).view ∧
      ((t.setText fresh text).view.setText fresh' text).removed = [] := by
  cases h : t.val.isElement with
  | false =>
    rw [setText_of_text fresh text h]
    have hagain : (t.mapRoot (·.setPayload text)).val.isElement = false := by
      rw [Tree.val_mapRoot, Node.isElement_setPayload]
      exact h
    rw [setText_of_text fresh' text hagain]
    refine ⟨?_, rfl⟩
    obtain ⟨id, n, row⟩ := t
    cases hc : n.content <;> simp [Tree.mapRoot, Node.setPayload, hc]
  | true =>
    cases hshown : showsAlready text t.children with
    | true =>
      rw [setText_of_shown fresh text h hshown]
      exact setText_of_there fresh' text t h (.inl hshown)
    | false =>
      rw [setText_of_new fresh text h hshown]
      obtain ⟨id, n, row⟩ := t
      exact setText_of_there fresh' text _ h (.inr ⟨fresh, rfl⟩)

/-- What stood below a node is still below it, or was handed out (`removed`). -/
theorem mem_nodes_setText {x : NodeId × Node κ} (hx : x ∈ Forest.nodes t.children) :
    x ∈ (t.setText fresh text).view.nodes ∨ x ∈ Forest.nodes (t.setText fresh text).removed := by
  cases h : t.val.isElement with
  | false =>
    rw [setText_of_text fresh text h]
    obtain ⟨id, n, row⟩ := t
    exact Or.inl (List.mem_cons_of_mem _ hx)
  | true =>
    cases hshown : showsAlready text t.children with
    | true =>
      rw [setText_of_shown fresh text h hshown]
      obtain ⟨id, n, row⟩ := t
      exact Or.inl (List.mem_cons_of_mem _ hx)
    | false =>
      rw [setText_of_new fresh text h hshown]
      exact Or.inr hx

end

end View

/-! ## Worlds -/

namespace World

variable {w : World κ} {n : NodeId} {t : View κ} (text : String)

section

variable (ht : w.forest.find? n = some t)

include ht

theorem removed_setText : (w.setText n text).1 = (t.setText w.next text).removed := by
  rw [setText, ht]

theorem forest_setText : (w.setText n text).2.forest =
    w.forest.expand n (fun _ => [(t.setText w.next text).view]) ++ (t.setText w.next text).removed := by
  rw [setText, ht]

/-- The node is found with what was made of it. -/
theorem find?_setText : (w.setText n text).2.forest.find? n = some (t.setText w.next text).view := by
  have hid : (t.setText w.next text).view.id = n := (t.id_setText w.next text).trans (Forest.find?_id ht)
  rw [forest_setText text ht, Forest.find?_append, Forest.find?_expand_self hid ht, Option.some_or]

/-- Where a view stays as it is, the world has the same nodes in the same places. -/
theorem forest_setText_of_view (hd : w.forest.Distinct) (hview : (t.setText w.next text).view = t)
    (hremoved : (t.setText w.next text).removed = []) : (w.setText n text).2.forest = w.forest := by
  have hsame : w.forest.expand n (fun _ => [t]) = w.forest.expand n fun s => [s] :=
    Forest.expand_congr hd fun s hs => congrArg (fun v => [v]) (Option.some.inj (ht.symm.trans hs))
  rw [forest_setText text ht, hview, hremoved, List.append_nil, hsame, Forest.expand_self]

end

namespace Accounted

variable {kept : List Guard} (h : w.Accounted kept)

include h

/-- What was handed out is whole, and stands below nothing (`parent?`). -/
theorem find?_removed {c : View κ} (hc : c ∈ (w.setText n text).1) :
    (w.setText n text).2.forest.find? c.id = some c ∧
      (w.setText n text).2.forest.parent? c.id = none := by
  have hd := (h.setText n text).distinct
  have hroot : c ∈ (w.setText n text).2.forest := by
    cases ht : w.forest.find? n with
    | none =>
      rw [World.setText, ht] at hc
      exact absurd hc List.not_mem_nil
    | some t =>
      rw [removed_setText text ht] at hc
      rw [forest_setText text ht]
      exact List.mem_append_right _ hc
  exact ⟨Forest.find?_root hd hroot, Forest.parent?_of_root hd hroot⟩

/-- The row below any other node is the same. -/
theorem row_setText {q : NodeId} (hq : q ≠ n) :
    (w.setText n text).2.forest.row q = w.forest.row q := by
  have hl := Links.consistent_of h.distinct
  have hnext : ∀ p, w.next ∉ (Links.of w.forest).children p := by
    intro p hin
    have hparent := (hl.linked p _).1 hin
    exact Nat.lt_irrefl _ (h.lt_next (Forest.mem_ids_of_parent? hparent))
  have hrow := congrArg (fun l => Links.children l q) (h.links_setText n text)
  exact hrow.trans (hl.children_rearrange w hnext (e := .setText n text) hq)

/-- Any other node is the same. -/
theorem node?_setText {m : NodeId} (hm : m ∈ w.forest.ids) (hne : m ≠ n) :
    (w.setText n text).2.node? m = w.node? m := by
  obtain ⟨⟨i, a⟩, hin, rfl⟩ := Forest.mem_ids.1 hm
  have hold : w.node? i = some a := Forest.val?_of_mem h.distinct hin
  rw [hold]
  refine Forest.val?_of_mem (h.setText n text).distinct ?_
  cases ht : w.forest.find? n with
  | none =>
    rw [World.setText, ht]
    exact hin
  | some s =>
    have hafter := Forest.nodes_expand (fun _ => [(View.setText w.next text s).view]) h.distinct ht
    rw [forest_setText text ht, Forest.nodes_append, List.mem_append, hafter.mem_iff, List.mem_append,
      Forest.nodes_singleton, or_right_comm]
    -- the node stands below the one that is written, or elsewhere
    have hparts := (Forest.perm_of_find? h.distinct ht).mem_iff.1 hin
    rw [List.mem_append] at hparts
    refine hparts.imp_left fun hbelow => ?_
    have hid := Forest.find?_id ht
    obtain ⟨k, b, row⟩ := s
    rw [Tree.nodes, List.mem_cons] at hbelow
    rcases hbelow with heq | hbelow
    · exact absurd ((Prod.mk.inj heq).1.trans hid) hne
    · exact View.mem_nodes_setText w.next text _ hbelow

end Accounted

end World

/-! ## Sessions -/

/-- Whether the row below a node is a single text node that holds a text. `View.showsAlready` decides it.
-/
def View.HoldsText (t : View κ) (text : String) : Prop :=
  ∃ c : View κ, t.children = [c] ∧ c.val.payload? = some text

/-- What `World.setText` comes to at the node `n`, where `t` is its view before and `u` afterwards. -/
structure World.TextWritten (w : World κ) (n : NodeId) (text : String) (t u : View κ) : Prop where
  found : (w.setText n text).2.forest.find? n = some u
  shown : u.textContent = text
  /-- Every other node is what it was, with all that binds it. -/
  nodes : ∀ m ∈ w.forest.ids, m ≠ n → (w.setText n text).2.node? m = w.node? m
  /-- Every other node has the same row below it. -/
  rows : ∀ q ≠ n, (w.setText n text).2.forest.row q = w.forest.row q
  /-- No subscription ends. -/
  stores : (w.setText n text).2.stores = w.stores
  /-- A text node takes the text and hands out nothing. -/
  payload : t.val.isElement = false → (w.setText n text).1 = [] ∧ u = t.mapRoot (·.setPayload text)
  /-- An element that holds the text hands out nothing, and everything stays as it is. -/
  held : t.val.isElement = true → t.HoldsText text →
    (w.setText n text).1 = [] ∧ (w.setText n text).2.forest = w.forest
  /-- Any other element hands out its former children in order. -/
  removed : t.val.isElement = true → ¬ t.HoldsText text → (w.setText n text).1 = t.children
  /-- Each of them is whole, and below nothing. -/
  whole : t.val.isElement = true → ¬ t.HoldsText text → ∀ c ∈ (w.setText n text).1,
    (w.setText n text).2.forest.find? c.id = some c ∧ (w.setText n text).2.forest.parent? c.id = none
  /-- Below such an element is one new text node, or nothing if the text is empty. -/
  replaced : t.val.isElement = true → ¬ t.HoldsText text →
    u.val = t.val ∧ w.next ∉ w.forest.ids ∧
      u.children = if text = "" then [] else [.node w.next (Node.ofText text) []]
  /-- So an element with children hands out nothing only if it held the text. -/
  nothing_iff : t.val.isElement = true → t.children ≠ [] →
    ((w.setText n text).1 = [] ↔ t.HoldsText text)
  /-- Writing the text once more hands out nothing and leaves every node as it is. -/
  again : ((w.setText n text).2.setText n text).1 = [] ∧
    ((w.setText n text).2.setText n text).2.forest = (w.setText n text).2.forest

namespace Session

/-- **What writing a text content comes to** (`set_text_content`), for any node of any session. -/
theorem setText_exact {model : Json.Value} {methods : List (String × Client)} {s : Session}
    (hs : Moves (start model methods) s) {n : NodeId} {t : View Client}
    (ht : s.world.forest.find? n = some t) (text : String) :
    ∃ u, s.world.TextWritten n text t u := by
  have h : s.world.Accounted s.keptGuards := hs.accounted.world
  have hafter : (s.world.setText n text).2.Accounted s.keptGuards := h.setText n text
  have hfound : (s.world.setText n text).2.forest.find? n = some (t.setText s.world.next text).view :=
    World.find?_setText text ht
  have hremoved : (s.world.setText n text).1 = (t.setText s.world.next text).removed :=
    World.removed_setText text ht
  have hkept : t.val.isElement = true → t.HoldsText text →
      (s.world.setText n text).1 = [] ∧ (s.world.setText n text).2.forest = s.world.forest := by
    intro helement hheld
    have hview := View.setText_of_shown s.world.next text helement (View.showsAlready_iff.2 hheld)
    rw [hview] at hremoved
    exact ⟨hremoved, World.forest_setText_of_view text ht h.distinct (by rw [hview]) (by rw [hview])⟩
  have hnew : t.val.isElement = true → ¬ t.HoldsText text → t.setText s.world.next text =
      ⟨t.mapChildren fun _ => View.textRow s.world.next text, true, t.children⟩ := by
    intro helement hnot
    refine View.setText_of_new s.world.next text helement (Bool.eq_false_iff.2 fun hshown => ?_)
    exact hnot (View.showsAlready_iff.1 hshown)
  obtain ⟨hagain, hnone⟩ := t.setText_again s.world.next text (s.world.setText n text).2.next
  exact ⟨(t.setText s.world.next text).view,
    { found := hfound
      shown := t.textContent_setText s.world.next text
      nodes := fun m hm hne => h.node?_setText text hm hne
      rows := fun q hq => h.row_setText text hq
      stores := s.world.stores_setText n text
      payload := fun htext => by
        rw [hremoved, View.setText_of_text s.world.next text htext]
        exact ⟨rfl, rfl⟩
      held := hkept
      removed := fun helement hnot => by rw [hremoved, hnew helement hnot]
      whole := fun _ _ c hc => h.find?_removed text hc
      replaced := fun helement hnot => by
        refine ⟨?_, fun hin => Nat.lt_irrefl _ (h.lt_next hin), ?_⟩ <;> rw [hnew helement hnot] <;>
          cases t <;> rfl
      nothing_iff := fun helement hchildren => by
        refine ⟨fun hempty => ?_, fun hheld => (hkept helement hheld).1⟩
        by_contra hnot
        rw [hremoved, hnew helement hnot] at hempty
        exact hchildren hempty
      again := by
        refine ⟨?_, World.forest_setText_of_view text hfound hafter.distinct hagain hnone⟩
        rw [World.removed_setText text hfound, hnone] }⟩

/-- A page with a line that shows a key, and a rule below it. -/
def boundLine : Session :=
  (start (.ofMembers [("name", .string "Ada")]) []).runs [
    .command (.handle (.build "page" (.element "div" []
      [.element "p" [] [.text "\x7b\x7b name \x7d\x7d"], .element "hr" [] []]))),
    .command (.bind (.compile "page" {} .standard))]

/-- The name that the line of `boundLine` shows is written there, and the line stays bound. Another one is
written on the page, and the line leaves it as it is. -/
theorem writing_shown_text_hands_out_nothing :
    ((boundLine.world.setText 1 "Ada").1 = [] ∧
        (boundLine.world.setText 1 "Ada").2.forest = boundLine.world.forest) ∧
      ∃ t : View Client, boundLine.world.forest.find? (0 : NodeId) = some t ∧
        Forest.rootIds t.children = [1, 3] ∧ (boundLine.world.setText 0 "Bea").1 = t.children ∧
        (∀ c ∈ (boundLine.world.setText 0 "Bea").1,
          (boundLine.world.setText 0 "Bea").2.forest.find? c.id = some c ∧
            (boundLine.world.setText 0 "Bea").2.forest.parent? c.id = none) ∧
        ((boundLine.world.setText 0 "Bea").2.node? 2).map (·.guards.length) = some 1 := by
  have hreachable : Moves _ boundLine := moves_runs _ _
  have hline : (boundLine.world.forest.find? (1 : NodeId)).map (fun t =>
      (t.val.isElement, View.showsAlready "Ada" t.children)) = some (true, true) := by
    decide +kernel
  have hpage : (boundLine.world.forest.find? (0 : NodeId)).map (fun t =>
      (t.val.isElement, Forest.rootIds t.children, View.showsAlready "Bea" t.children)) =
        some (true, [1, 3], false) := by
    decide +kernel
  have hbound : (boundLine.world.node? 2).map (·.guards.length) = some 1 := by decide +kernel
  have hinside : 2 ∈ boundLine.world.forest.ids := by decide +kernel
  obtain ⟨line, hfound, hshown⟩ := Option.map_eq_some_iff.1 hline
  obtain ⟨helement, hshown⟩ := Prod.mk.inj hshown
  obtain ⟨t, ht, hfields⟩ := Option.map_eq_some_iff.1 hpage
  obtain ⟨hdiv, hfields⟩ := Prod.mk.inj hfields
  obtain ⟨hrow, hother⟩ := Prod.mk.inj hfields
  obtain ⟨_, hkept⟩ := setText_exact hreachable hfound "Ada"
  obtain ⟨u, hwritten⟩ := setText_exact hreachable ht "Bea"
  have hnot : ¬ View.HoldsText t "Bea" := fun hheld =>
    absurd ((View.showsAlready_iff.2 hheld).symm.trans hother) (by simp)
  refine ⟨hkept.held helement (View.showsAlready_iff.1 hshown), t, ht, hrow,
    hwritten.removed hdiv hnot, hwritten.whole hdiv hnot, ?_⟩
  rw [hwritten.nodes 2 hinside (by decide)]
  exact hbound

end Session

end ViewBinding
