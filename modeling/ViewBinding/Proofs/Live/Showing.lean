import ViewBinding.Proofs.Compile.Rendering
import ViewBinding.Proofs.Live.Slots
import Mathlib.Data.List.Induction

/-!
# Views in which every slot shows a text

`Shows` relates a template to the view that became of it: node by node the same, but that every slot
shows some text.  Which texts a slot may show is a parameter, `ok`; so the relation says at once that
a view is up to date, and how far one is while values are being delivered.

* `ShowsRow.mono` — only what is `ok` for the slots of the template matters.
* `solidRow_pictureRow` — a view all slots of which show their values has the picture that is to be
  rendered.
-/

namespace ViewBinding

open Json (Value)

variable {κ : Type}

/-! ## The relation -/

/-- What an element has become but for its content: as it was, and if a `v-model` directive names a key,
the value field shows something, and typing is listened to. -/
def FieldShown (options : Options) (store : StoreId) (ok : Slot → String → Prop) (id : NodeId)
    (key? : Option String) (n n' : Node κ) : Prop :=
  match key? with
  | none => n'.content = n.content ∧ n'.listeners = []
  | some key => ∃ shown, n'.content = (n.setValue shown).content ∧ ok ⟨id, key, .field⟩ shown ∧
      ∃ r, n'.listeners = [r] ∧ r.event = options.inputEvent ∧ r.listener = .input id store key

/-- What the content of an element has become that shows a text: nothing or one text node. That is a
new one, numbered from `first` on, or the only one that stood there in the template, `row`. -/
def ContentShown (first : NodeId) (row : Forest (Node κ)) (shown : String)
    (row' : Forest (Node κ)) : Prop :=
  (shown = "" ∧ row' = []) ∨
    ∃ id n, row' = [.node id n []] ∧ n.content = .text shown ∧ n.listeners = [] ∧ n.guards = [] ∧
      (id ∈ Forest.ids row ∨ first ≤ id)

section Relation

variable (options : Options) (store : StoreId) (first : NodeId) (ok : Slot → String → Prop)

mutual

/-- What a part of a template has become. -/
inductive Shows : View κ → View κ → Prop
  | text {id n n' payload} (hn : n.content = .text payload)
      (hmarker : Marker.find? options.delimiters payload = none)
      (hcontent : n'.content = .text payload) (hlisteners : n'.listeners = []) :
      Shows (.node id n []) (.node id n' [])
  | marker {id n n' payload marker shown} (hn : n.content = .text payload)
      (hmarker : Marker.find? options.delimiters payload = some marker)
      (hok : ok ⟨id, marker.key, .marker payload marker⟩ shown)
      (hcontent : n'.content = .text (marker.render payload shown))
      (hlisteners : n'.listeners = []) :
      Shows (.node id n []) (.node id n' [])
  | content {id n n' key shown row row'} (hn : n.isElement = true)
      (hkey : Directive.keyOf? .text (n.directives options) = some key)
      (hfield : FieldShown options store ok id (Directive.keyOf? .model (n.directives options)) n n')
      (hok : ok ⟨id, key, .content⟩ shown) (hrow : ContentShown first row shown row') :
      Shows (.node id n row) (.node id n' row')
  | element {id n n' row row'} (hn : n.isElement = true)
      (hkey : Directive.keyOf? .text (n.directives options) = none)
      (hfield : FieldShown options store ok id (Directive.keyOf? .model (n.directives options)) n n')
      (hrow : ShowsRow row row') :
      Shows (.node id n row) (.node id n' row')

/-- What a row of a template has become. -/
inductive ShowsRow : Forest (Node κ) → Forest (Node κ) → Prop
  | nil : ShowsRow [] []
  | cons {t t' ts ts'} (head : Shows t t') (tail : ShowsRow ts ts') :
      ShowsRow (t :: ts) (t' :: ts')

end

end Relation

variable {options : Options} {store : StoreId} {first : NodeId} {ok ok' : Slot → String → Prop}

theorem Shows.id_eq {t t' : View κ} (h : Shows options store first ok t t') : t'.id = t.id := by
  cases h <;> rfl

/-- A text that is put into an element is a new one. -/
theorem contentShown_textRow {fresh : NodeId} (hfresh : first ≤ fresh) (row : Forest (Node κ))
    (text : String) : ContentShown first row text (View.textRow fresh text) := by
  unfold View.textRow
  split
  · next hempty => exact Or.inl ⟨hempty, rfl⟩
  · exact Or.inr ⟨fresh, Node.ofText text, rfl, rfl, rfl, rfl, Or.inr hfresh⟩

theorem FieldShown.mono {id : NodeId} {ds : List Directive} {n n' : Node κ}
    (h : FieldShown options store ok id (Directive.keyOf? .model ds) n n')
    (hok : ∀ s ∈ Slot.ofDirectives id ds, ∀ x, ok s x → ok' s x) :
    FieldShown options store ok' id (Directive.keyOf? .model ds) n n' := by
  cases hkey : Directive.keyOf? .model ds with
  | none =>
    rw [hkey] at h
    exact h
  | some key =>
    rw [hkey] at h
    obtain ⟨shown, hcontent, hshown, hheard⟩ := h
    exact ⟨shown, hcontent, hok _ (Slot.field_mem_ofDirectives hkey) _ hshown, hheard⟩

mutual

theorem Shows.mono : ∀ {t t' : View κ}, Shows options store first ok t t' →
    (∀ s ∈ View.slots options t, ∀ x, ok s x → ok' s x) → Shows options store first ok' t t'
  | .node id n row, t', h, hok => by
    cases h with
    | text hn hmarker hcontent hlisteners => exact .text hn hmarker hcontent hlisteners
    | marker hn hmarker hshown hcontent hlisteners =>
      rw [View.slots_text hn, Slot.ofText, hmarker] at hok
      exact .marker hn hmarker (hok _ List.mem_cons_self _ hshown) hcontent hlisteners
    | content hn hkey hfield hshown hrow =>
      rw [View.slots_element hn] at hok
      have hown := fun s hs => hok s (List.mem_append_left _ hs)
      exact .content hn hkey (hfield.mono hown) (hown _ (Slot.content_mem_ofDirectives hkey) _ hshown)
        hrow
    | element hn hkey hfield hrow =>
      rw [View.slots_element hn, hkey] at hok
      exact .element hn hkey (hfield.mono fun s hs => hok s (List.mem_append_left _ hs))
        (hrow.mono fun s hs => hok s (List.mem_append_right _ hs))

/-- Only what is `ok` for the slots of the template matters. -/
theorem ShowsRow.mono : ∀ {ts ts' : Forest (Node κ)}, ShowsRow options store first ok ts ts' →
    (∀ s ∈ View.slotsRow options ts, ∀ x, ok s x → ok' s x) →
      ShowsRow options store first ok' ts ts'
  | [], ts', h, _ => by
    cases h
    exact .nil
  | t :: ts, ts', h, hok => by
    cases h with
    | cons head tail =>
      rw [View.slotsRow_cons] at hok
      exact .cons (head.mono fun s hs => hok s (List.mem_append_left _ hs))
        (tail.mono fun s hs => hok s (List.mem_append_right _ hs))

end

/-! ## The numbers in it -/

mutual

/-- The numbers of a view are those of the template, and new ones. -/
theorem Shows.ids : ∀ {t t' : View κ}, Shows options store first ok t t' →
    ∀ i ∈ t'.ids, i ∈ t.ids ∨ first ≤ i
  | .node id n row, t', h, i, hi => by
    cases h with
    | text | marker => exact Or.inl hi
    | content hn hkey hfield hshown hrow =>
      rw [Tree.ids_node, List.mem_cons] at hi ⊢
      rcases hi with rfl | hi
      · exact Or.inl (Or.inl rfl)
      · rcases hrow with ⟨-, rfl⟩ | ⟨j, n', rfl, -, -, -, hj⟩
        · simp at hi
        · obtain rfl : i = j := by simpa using hi
          exact hj.imp Or.inr fun h => h
    | element hn hkey hfield hrow =>
      rw [Tree.ids_node, List.mem_cons] at hi ⊢
      rcases hi with rfl | hi
      · exact Or.inl (Or.inl rfl)
      · exact (hrow.ids i hi).imp Or.inr fun h => h

theorem ShowsRow.ids : ∀ {ts ts' : Forest (Node κ)}, ShowsRow options store first ok ts ts' →
    ∀ i ∈ Forest.ids ts', i ∈ Forest.ids ts ∨ first ≤ i
  | [], ts', h, i, hi => by
    cases h
    exact Or.inl hi
  | t :: ts, ts', h, i, hi => by
    cases h with
    | cons head tail =>
      rw [Forest.ids_cons, List.mem_append] at hi ⊢
      rcases hi with hi | hi
      · exact (head.ids i hi).imp Or.inl fun h => h
      · exact (tail.ids i hi).imp Or.inr fun h => h

end

/-! ## The listeners in it -/

/-- What is listened to at an element is typing into a field that is a slot. -/
theorem FieldShown.listener_slot {id : NodeId} {ds : List Directive} {n n' : Node κ}
    (h : FieldShown options store ok id (Directive.keyOf? .model ds) n n') {r : Registered κ}
    (hr : r ∈ n'.listeners) :
    ∃ key, r.listener = .input id store key ∧ ⟨id, key, .field⟩ ∈ Slot.ofDirectives id ds := by
  cases hkey : Directive.keyOf? .model ds with
  | none =>
    rw [hkey] at h
    rw [h.2] at hr
    exact absurd hr (by simp)
  | some key =>
    rw [hkey] at h
    obtain ⟨-, -, -, r', hlisteners, -, hlistener⟩ := h
    rw [hlisteners, List.mem_singleton] at hr
    exact ⟨key, hr ▸ hlistener, Slot.field_mem_ofDirectives hkey⟩

mutual

theorem Shows.listener_slot : ∀ {t t' : View κ}, Shows options store first ok t t' →
    ∀ x ∈ t'.nodes, ∀ r ∈ x.2.listeners,
      ∃ key, r.listener = .input x.1 store key ∧ ⟨x.1, key, .field⟩ ∈ View.slots options t
  | .node id n row, t', h, x, hx, r, hr => by
    cases h with
    | text hn hmarker hcontent hlisteners | marker hn hmarker hok hcontent hlisteners =>
      obtain rfl : x = (id, _) := by simpa [Tree.nodes, Forest.nodes] using hx
      rw [hlisteners] at hr
      exact absurd hr (by simp)
    | @content _ _ n' key shown _ row' hn hkey hfield hok hrow =>
      rw [View.slots_element hn]
      rw [Tree.nodes, List.mem_cons] at hx
      rcases hx with rfl | hx
      · obtain ⟨key, hlistener, hslot⟩ := hfield.listener_slot hr
        exact ⟨key, hlistener, List.mem_append_left _ hslot⟩
      · rcases hrow with ⟨-, rfl⟩ | ⟨j, m, rfl, -, hlisteners, -, -⟩
        · exact absurd hx (by simp [Forest.nodes])
        · obtain rfl : x = (j, m) := by simpa [Forest.nodes, Tree.nodes] using hx
          rw [hlisteners] at hr
          exact absurd hr (by simp)
    | @element _ _ n' _ row' hn hkey hfield hrow =>
      rw [View.slots_element hn, hkey]
      rw [Tree.nodes, List.mem_cons] at hx
      rcases hx with rfl | hx
      · obtain ⟨key, hlistener, hslot⟩ := hfield.listener_slot hr
        exact ⟨key, hlistener, List.mem_append_left _ hslot⟩
      · obtain ⟨key, hlistener, hslot⟩ := hrow.listener_slot x hx r hr
        exact ⟨key, hlistener, List.mem_append_right _ hslot⟩

/-- All that is listened to is typing into the fields that are slots. -/
theorem ShowsRow.listener_slot : ∀ {ts ts' : Forest (Node κ)}, ShowsRow options store first ok ts ts' →
    ∀ x ∈ Forest.nodes ts', ∀ r ∈ x.2.listeners,
      ∃ key, r.listener = .input x.1 store key ∧ ⟨x.1, key, .field⟩ ∈ View.slotsRow options ts
  | [], ts', h, x, hx, r, hr => by
    cases h
    exact absurd hx (by simp [Forest.nodes])
  | t :: ts, ts', h, x, hx, r, hr => by
    cases h with
    | cons head tail =>
      rw [View.slotsRow_cons]
      rw [Forest.nodes, List.mem_append] at hx
      rcases hx with hx | hx
      · obtain ⟨key, hlistener, hslot⟩ := head.listener_slot x hx r hr
        exact ⟨key, hlistener, List.mem_append_left _ hslot⟩
      · obtain ⟨key, hlistener, hslot⟩ := tail.listener_slot x hx r hr
        exact ⟨key, hlistener, List.mem_append_right _ hslot⟩

end

/-! ## The picture of it -/

/-- The effect of directives that may stand together (`Directive.fit`): each kind has its own part of an
element. -/
theorem Rendering.effects_of_fit {g : Rendering} (hg : g.registry = .standard)
    (field : Option String) {ds : List Directive} (hfit : Directive.fit ds = true) :
    g.effects field ds =
      { field := ((Directive.keyOf? .model ds).map fun key => Value.display (g.data key)).or field
        text := (Directive.keyOf? .text ds).map fun key => Value.display (g.data key)
        markup := none } := by
  obtain ⟨htext, hmodel, hhtml⟩ := Directive.fit_iff.1 hfit
  clear hfit
  induction ds using List.reverseRec with
  | nil => rfl
  | append_singleton ds d ih =>
    have hds : ds.Sublist (ds ++ [d]) := List.sublist_append_left ds [d]
    have ih := ih (Nat.le_trans (hds.countP_le) htext) (Nat.le_trans (hds.countP_le) hmodel)
      fun x hx => hhtml x (List.mem_append_left _ hx)
    have hstep : g.effects field (ds ++ [d]) = g.step (g.effects field ds) d := by
      rw [Rendering.effects, List.foldl_append]
      rfl
    rw [hstep, ih]
    cases hkind : d.kind with
    | none =>
      rw [Rendering.step_of_none rfl (by rw [hkind]; rfl),
        Directive.keyOf?_append_of_ne ds (by simp [Directive.isOf, hkind]),
        Directive.keyOf?_append_of_ne ds (by simp [Directive.isOf, hkind])]
    | some kind =>
      have hget : ∀ s, Registry.standard.get? kind = some s →
          d.kind.bind g.registry.get? = some s := by
        intro s hs
        rw [hkind, hg]
        exact hs
      cases kind with
      | text =>
        have hd : d.isOf .text = true := by simp [Directive.isOf, hkind]
        rw [Rendering.step_of_some rfl (hget .textSync rfl),
          Directive.keyOf?_append_of_ne ds (by simp [Directive.isOf, hkind]),
          Directive.keyOf?_append, Directive.keyOf?_eq_none htext hd, hd]
        rfl
      | model =>
        have hd : d.isOf .model = true := by simp [Directive.isOf, hkind]
        have hnotText : d.isOf .text = false := by simp [Directive.isOf, hkind]
        rw [Rendering.step_of_some rfl (hget .valueSync rfl),
          Directive.keyOf?_append_of_ne ds hnotText, Directive.keyOf?_append,
          Directive.keyOf?_eq_none hmodel hd, hd]
        rfl
      | on =>
        rw [Rendering.step_of_some rfl (hget .eventBinding rfl),
          Directive.keyOf?_append_of_ne ds (by simp [Directive.isOf, hkind]),
          Directive.keyOf?_append_of_ne ds (by simp [Directive.isOf, hkind])]
        rfl
      | html =>
        have hd := hhtml d (by simp)
        simp [Directive.isOf, hkind] at hd

/-- How an element is drawn the directives of which may stand together. -/
theorem Rendering.render_of_fit {g : Rendering} (hg : g.registry = .standard) {n : Node κ}
    {tag : String} {attributes : List Attribute} {field : Option String}
    (hn : n.content = .element tag attributes field)
    (hfit : Directive.fit (n.directives g.options) = true) (row : List Picture) :
    g.render (.node n.content row) =
      .node (.element tag attributes
          (((Directive.keyOf? .model (n.directives g.options)).map fun key =>
            Value.display (g.data key)).or field))
        (match Directive.keyOf? .text (n.directives g.options) with
        | some key => [.node (.text (Value.display (g.data key))) []]
        | none => g.renderRow row) := by
  have hdirectives : g.directives attributes = n.directives g.options := by
    simp [Node.directives, Node.attributes, hn, Rendering.directives]
  rw [hn, Rendering.render, hdirectives]
  simp only [Rendering.effects_of_fit hg field hfit]
  cases Directive.keyOf? .text (n.directives g.options) with
  | none => rfl
  | some key => rfl

theorem ContentShown.textShown {row row' : Forest (Node κ)} {shown : String}
    (h : ContentShown first row shown row') : View.TextShown shown row' := by
  rcases h with h | ⟨id, n, hrow, hn, -⟩
  · exact Or.inl h
  · exact Or.inr ⟨id, n, hrow, hn⟩

/-- An element with a value field is drawn with what the field shows. -/
theorem FieldShown.content_eq {id : NodeId} {key? : Option String} {n n' : Node κ}
    {data : String → Option Value} (hok : ∀ s x, ok s x → x = Value.display (data s.key))
    (h : FieldShown options store ok id key? n n') {tag : String} {attributes : List Attribute}
    {field : Option String} (hn : n.content = .element tag attributes field) :
    n'.content =
      .element tag attributes ((key?.map fun key => Value.display (data key)).or field) := by
  cases key? with
  | none => exact h.1.trans hn
  | some key =>
    obtain ⟨shown, hcontent, hshown, -⟩ := h
    have hvalue : shown = Value.display (data key) := hok _ _ hshown
    rw [hcontent, Node.setValue, hn, hvalue]
    rfl

mutual

/-- A view all slots of which show their values has the picture that is to be rendered
(`Rendering.render`). -/
theorem Shows.alike {data : String → Option Value}
    (hok : ∀ s x, ok s x → x = Value.display (data s.key)) :
    ∀ {t t' : View κ}, Shows options store first ok t t' → View.isTemplate options t = true →
      Picture.Alike t'.picture ((⟨options, .standard, data⟩ : Rendering).render t.picture)
  | .node id n row, t', h, htemplate => by
    obtain ⟨-, -, -, hfit, hbelow⟩ := View.isTemplate_node.1 htemplate
    cases h with
    | text hn hmarker hcontent hlisteners =>
      rw [View.picture_node, View.picture_node, hn, hcontent, Rendering.render, Rendering.fill,
        hmarker]
      rfl
    | @marker _ _ n' payload marker shown hn hmarker hshown hcontent hlisteners =>
      have hvalue : shown = Value.display (data marker.key) := hok _ _ hshown
      rw [View.picture_node, View.picture_node, hn, hcontent, Rendering.render, Rendering.fill,
        hmarker, hvalue]
      rfl
    | @content _ _ n' key shown _ row' hn hkey hfield hshown hrow =>
      cases hcontent : n.content with
      | text payload => simp [Node.isElement, hcontent] at hn
      | element tag attributes field =>
        obtain rfl : shown = Value.display (data key) := hok _ _ hshown
        have hrender := Rendering.render_of_fit (g := ⟨options, .standard, data⟩) rfl hcontent hfit
        rw [View.picture_node, View.picture_node, hfield.content_eq hok hcontent, hrender, hkey]
        exact Picture.Alike.node hrow.textShown.solidRow_eq
    | @element _ _ n' _ row' hn hkey hfield hrow =>
      cases hcontent : n.content with
      | text payload => simp [Node.isElement, hcontent] at hn
      | element tag attributes field =>
        have hrender := Rendering.render_of_fit (g := ⟨options, .standard, data⟩) rfl hcontent hfit
        rw [View.picture_node, View.picture_node, hfield.content_eq hok hcontent, hrender, hkey]
        exact Picture.Alike.node (hrow.solidRow_pictureRow hok hbelow)

theorem ShowsRow.solidRow_pictureRow {data : String → Option Value}
    (hok : ∀ s x, ok s x → x = Value.display (data s.key)) :
    ∀ {ts ts' : Forest (Node κ)}, ShowsRow options store first ok ts ts' →
      View.isTemplateRow options ts = true →
        Picture.solidRow (View.pictureRow ts') = Picture.solidRow
          ((⟨options, .standard, data⟩ : Rendering).renderRow (View.pictureRow ts))
  | [], ts', h, _ => by
    cases h
    rw [View.pictureRow_nil, Rendering.renderRow]
  | t :: ts, ts', h, htemplate => by
    obtain ⟨ht, hts⟩ := View.isTemplateRow_cons.1 htemplate
    cases h with
    | cons head tail =>
      have hhead := head.alike hok ht
      rw [Picture.Alike] at hhead
      rw [View.pictureRow_cons, View.pictureRow_cons, Rendering.renderRow, Picture.solidRow_cons,
        Picture.solidRow_cons, hhead, tail.solidRow_pictureRow hok hts]

end

end ViewBinding
