import ViewBinding.Proofs.Live.Showing
import ViewBinding.World

/-!
# Refreshing one slot

When an observer of a slot is told of a value, one slot of the view shows another text and all others
show what they showed.

* `ShowsRow.exists_focus` — a slot of a template stands in one place of the view that became of it:
  what it is tied to is found there, and may be put there anew (`Focus`).
* `Focus.content`, `Focus.field`, `Focus.marker` — what the three parts of a node become.
* `refresh_displays` — the same for the forest of a world, with what was taken out of the view at the
  end of it.
-/

namespace ViewBinding

open Json (Value)

variable {κ : Type} {options : Options} {store : StoreId} {first : NodeId}
  {ok ok' : Slot → String → Prop} {s : Slot}

/-! ## The place of a slot -/

/-- The place of a slot in a row of a template, `ts`, and in what became of it, `us`: the slot is one
of the root of `t`, of which `u` became. -/
structure Focus (options : Options) (store : StoreId) (first : NodeId) (ok : Slot → String → Prop)
    (s : Slot) (ts us : Forest (Node κ)) (t u : View κ) : Prop where
  shows : Shows options store first ok t u
  id_eq : t.id = s.node
  mem : s ∈ View.slots options t
  template : View.isTemplate options t = true
  distinct : t.ids.Nodup
  hidden : ∀ i ∈ View.hidden options t, i ∈ View.hiddenRow options ts
  found : Forest.find? s.node us = some u
  /-- What is put there leaves all other slots as they were. -/
  replace : ∀ {ok' : Slot → String → Prop} {f : View κ → Forest (Node κ)} {u' : View κ},
    (∀ s' ∈ View.slotsRow options ts, s'.node ≠ s.node → ∀ x, ok s' x → ok' s' x) →
    Shows options store first ok' t u' → f u = [u'] →
      ShowsRow options store first ok' ts (Forest.expand s.node f us)

theorem Shows.focus_self {t t' : View κ} (h : Shows options store first ok t t')
    (htemplate : View.isTemplate options t = true) (hdistinct : t.ids.Nodup)
    (hid : t.id = s.node) (hs : s ∈ View.slots options t) :
    Focus options store first ok s [t] [t'] t t' where
  shows := h
  id_eq := hid
  mem := hs
  template := htemplate
  distinct := hdistinct
  hidden i hi := by simpa using hi
  found := by
    have hfound : Tree.find? s.node t' = some t' := by
      rw [← hid, ← h.id_eq]
      exact t'.find?_self
    rw [Forest.find?, hfound]
  replace {ok' f u'} _ hu' hf := by
    rw [← hid, ← h.id_eq, Forest.expand_singleton, hf]
    exact .cons hu' .nil

/-- The place of a slot below an element. -/
theorem Focus.below {id : NodeId} {n n' : Node κ} {row row' : Forest (Node κ)} {t u : View κ}
    (h : Focus options store first ok s row row' t u) (hne : id ≠ s.node)
    (hn : n.isElement = true) (hkey : Directive.keyOf? .text (n.directives options) = none)
    (hfield : FieldShown options store ok id (Directive.keyOf? .model (n.directives options)) n n') :
    Focus options store first ok s [.node id n row] [.node id n' row'] t u where
  shows := h.shows
  id_eq := h.id_eq
  mem := h.mem
  template := h.template
  distinct := h.distinct
  hidden i hi := by
    rw [View.hiddenRow_cons, View.hidden, hkey]
    simpa using h.hidden i hi
  found := by
    rw [Forest.find?, Tree.find?, if_neg hne, h.found]
  replace {ok' f u'} hok hu' hf := by
    rw [View.slotsRow_cons, View.slotsRow_nil, List.append_nil, View.slots_element hn, hkey] at hok
    rw [Forest.expand, Tree.expand, if_neg hne, Forest.expand, List.singleton_append]
    refine .cons (.element hn hkey (hfield.mono fun s' hs' => ?_) ?_) .nil
    · refine hok s' (List.mem_append_left _ hs') ?_
      rw [Slot.mem_ofDirectives_node hs']
      exact hne
    · exact h.replace (fun s' hs' => hok s' (List.mem_append_right _ hs')) hu' hf

/-- The place of a slot in the first part of a row. -/
theorem Focus.head {t' u' t u : View κ} {ts us : Forest (Node κ)}
    (h : Focus options store first ok s [t'] [u'] t u) (hnot : s.node ∉ Forest.ids ts)
    (hfirst : s.node < first) (hrest : ShowsRow options store first ok ts us) :
    Focus options store first ok s (t' :: ts) (u' :: us) t u where
  shows := h.shows
  id_eq := h.id_eq
  mem := h.mem
  template := h.template
  distinct := h.distinct
  hidden i hi := by
    have hin := h.hidden i hi
    rw [View.hiddenRow_cons, View.hiddenRow_nil, List.append_nil] at hin
    rw [View.hiddenRow_cons]
    exact List.mem_append_left _ hin
  found := by
    rw [← List.singleton_append, Forest.find?_append, h.found, Option.some_or]
  replace {ok' f v} hok hv hf := by
    have hgone : s.node ∉ Forest.ids us := fun hin =>
      (hrest.ids _ hin).elim hnot fun hle => Nat.not_lt.2 hle hfirst
    have hhead : ShowsRow options store first ok' [t'] (Forest.expand s.node f [u']) := by
      refine h.replace (fun s' hs' => hok s' ?_) hv hf
      rw [View.slotsRow_cons, View.slotsRow_nil, List.append_nil] at hs'
      rw [View.slotsRow_cons]
      exact List.mem_append_left _ hs'
    rw [Forest.expand, Forest.expand, List.append_nil] at hhead
    rw [Forest.expand, Forest.expand_of_not_mem hgone]
    generalize Tree.expand s.node f u' = vs at hhead ⊢
    cases hhead with
    | cons head tail =>
      cases tail
      refine .cons head (hrest.mono fun s' hs' => hok s' ?_ ?_)
      · rw [View.slotsRow_cons]
        exact List.mem_append_right _ hs'
      · intro heq
        exact hnot (heq ▸ View.node_mem_idsRow hs')

/-- The place of a slot in the rest of a row. -/
theorem Focus.tail {t' u' t u : View κ} {ts us : Forest (Node κ)}
    (h : Focus options store first ok s ts us t u) (hnot : s.node ∉ t'.ids)
    (hfirst : s.node < first) (hhead : Shows options store first ok t' u') :
    Focus options store first ok s (t' :: ts) (u' :: us) t u where
  shows := h.shows
  id_eq := h.id_eq
  mem := h.mem
  template := h.template
  distinct := h.distinct
  hidden i hi := by
    rw [View.hiddenRow_cons]
    exact List.mem_append_right _ (h.hidden i hi)
  found := by
    have hgone : s.node ∉ u'.ids := fun hin =>
      (hhead.ids _ hin).elim hnot fun hle => Nat.not_lt.2 hle hfirst
    rw [Forest.find?, Tree.find?_eq_none hgone, h.found]
  replace {ok' f v} hok hv hf := by
    have hgone : s.node ∉ u'.ids := fun hin =>
      (hhead.ids _ hin).elim hnot fun hle => Nat.not_lt.2 hle hfirst
    rw [Forest.expand, Tree.expand_of_not_mem hgone, List.singleton_append]
    rw [View.slotsRow_cons] at hok
    refine .cons (hhead.mono fun s' hs' => hok s' (List.mem_append_left _ hs') ?_)
      (h.replace (fun s' hs' => hok s' (List.mem_append_right _ hs')) hv hf)
    intro heq
    exact hnot (heq ▸ View.node_mem_ids hs')

mutual

theorem Shows.exists_focus : ∀ {t t' : View κ}, Shows options store first ok t t' →
    View.isTemplate options t = true → t.ids.Nodup → s.node < first → s ∈ View.slots options t →
      ∃ t₀ u, Focus options store first ok s [t] [t'] t₀ u
  | .node id n row, t', h, htemplate, hdistinct, hfirst, hs => by
    by_cases hid : id = s.node
    · exact ⟨_, _, h.focus_self htemplate hdistinct hid hs⟩
    · -- a slot of another node is one below an element the content of which is no slot
      cases h with
      | text hn | marker hn =>
        rw [View.slots_text hn] at hs
        exact absurd (Slot.mem_ofText_node hs).symm hid
      | content hn hkey hfield hshown hrow =>
        rw [View.slots_element hn, hkey, Option.isSome_some, if_pos rfl, List.append_nil] at hs
        exact absurd (Slot.mem_ofDirectives_node hs).symm hid
      | element hn hkey hfield hrow =>
        rw [View.slots_element hn, hkey, Option.isSome_none, if_neg Bool.false_ne_true,
          List.mem_append] at hs
        rcases hs with hs | hs
        · exact absurd (Slot.mem_ofDirectives_node hs).symm hid
        · obtain ⟨-, -, -, -, hbelow⟩ := View.isTemplate_node.1 htemplate
          rw [Tree.ids_node, List.nodup_cons] at hdistinct
          obtain ⟨t₀, u, hfocus⟩ := hrow.exists_focus hbelow hdistinct.2 hfirst hs
          exact ⟨t₀, u, hfocus.below hid hn hkey hfield⟩

/-- A slot of a template stands in one place of the view that became of it. -/
theorem ShowsRow.exists_focus : ∀ {ts us : Forest (Node κ)},
    ShowsRow options store first ok ts us → View.isTemplateRow options ts = true →
      (Forest.ids ts).Nodup → s.node < first → s ∈ View.slotsRow options ts →
        ∃ t u, Focus options store first ok s ts us t u
  | [], us, _, _, _, _, hs => by simp at hs
  | t :: ts, us, h, htemplate, hdistinct, hfirst, hs => by
    obtain ⟨ht, hts⟩ := View.isTemplateRow_cons.1 htemplate
    rw [Forest.ids_cons, List.nodup_append] at hdistinct
    obtain ⟨hdt, hdts, hdisjoint⟩ := hdistinct
    cases h with
    | cons head tail =>
      rw [View.slotsRow_cons, List.mem_append] at hs
      rcases hs with hs | hs
      · have hnot : s.node ∉ Forest.ids ts := fun hin =>
          hdisjoint _ (View.node_mem_ids hs) _ hin rfl
        obtain ⟨t₀, u, hfocus⟩ := head.exists_focus ht hdt hfirst hs
        exact ⟨t₀, u, hfocus.head hnot hfirst tail⟩
      · have hnot : s.node ∉ t.ids := fun hin =>
          hdisjoint _ hin _ (View.node_mem_idsRow hs) rfl
        obtain ⟨t₀, u, hfocus⟩ := tail.exists_focus hts hdts hfirst hs
        exact ⟨t₀, u, hfocus.tail hnot hfirst head⟩

end

/-! ## The three parts of a node -/

/-- What holds of a slot that shows another text, and of all others, whether they show what they are to
(`ok`). -/
structure Refreshes (s : Slot) (text : String) (ok ok' : Slot → String → Prop) : Prop where
  here : ok' s text
  others : ∀ s' ≠ s, ∀ x, ok s' x → ok' s' x

theorem FieldShown.others {id : NodeId} {ds : List Directive} {n n' : Node κ} {text : String}
    (h : FieldShown options store ok id (Directive.keyOf? .model ds) n n')
    (hr : Refreshes s text ok ok') (hs : ∀ key, s ≠ ⟨id, key, .field⟩) :
    FieldShown options store ok' id (Directive.keyOf? .model ds) n n' := by
  cases hkey : Directive.keyOf? .model ds with
  | none =>
    rw [hkey] at h
    exact h
  | some key =>
    rw [hkey] at h
    obtain ⟨shown, hcontent, hshown, hheard⟩ := h
    exact ⟨shown, hcontent, hr.others _ (hs key).symm _ hshown, hheard⟩

theorem FieldShown.isElement_eq {id : NodeId} {key? : Option String} {n n' : Node κ}
    (h : FieldShown options store ok id key? n n') : n'.isElement = n.isElement := by
  have hset : ∀ (x : String), (n.setValue x).isElement = n.isElement := by
    intro x
    cases hn : n.content <;> simp [Node.setValue, Node.isElement, hn]
  cases key? with
  | none => rw [Node.isElement, Node.isElement, h.1]
  | some key =>
    obtain ⟨shown, hcontent, -⟩ := h
    rw [← hset shown, Node.isElement, Node.isElement, hcontent]

/-- The value of an element the field of which was written. -/
theorem Node.value_eq_of_setValue {n n' : Node κ} {shown : String} (hn : n.isElement = true)
    (h : n'.content = (n.setValue shown).content) : n'.value = shown := by
  cases hc : n.content with
  | text payload => simp [Node.isElement, hc] at hn
  | element tag attributes field =>
    simp only [Node.setValue, hc] at h
    simp [Node.value, h]

/-- A value field that is written once more (`set_value`) shows what was written last. -/
theorem FieldShown.setValue {id : NodeId} {key? : Option String} {key text : String}
    {n n' : Node κ} (h : FieldShown options store ok id key? n n') (hkey : key? = some key)
    (hok : ok' ⟨id, key, .field⟩ text) :
    FieldShown options store ok' id key? n (n'.setValue text) := by
  subst hkey
  obtain ⟨shown, hcontent, -, r, hlisteners, hheard⟩ := h
  refine ⟨text, ?_, hok, r, ?_, hheard⟩
  · cases hn : n.content <;> simp [Node.setValue, hcontent, hn]
  · cases hn' : n'.content <;> simp [Node.setValue, hlisteners, hn']

/-- The content of an element shows another text (`set_text_content`); what makes room for it is bound to
nothing. -/
theorem ContentShown.setText (id : NodeId) {fresh : NodeId} {n' : Node κ} {row row' : Forest (Node κ)}
    {shown : String} (h : ContentShown first row shown row') (text : String)
    (hn : n'.isElement = true) (hfresh : first ≤ fresh) :
    ∃ row'', (View.setText fresh text (.node id n' row')).view = .node id n' row'' ∧
      ContentShown first row text row'' ∧
      ∀ x ∈ Forest.nodes (View.setText fresh text (.node id n' row')).removed,
        x.2.guards = [] ∧ (x.1 ∈ Forest.ids row ∨ first ≤ x.1) := by
  have hrow' : ∀ x ∈ Forest.nodes row', x.2.guards = [] ∧ (x.1 ∈ Forest.ids row ∨ first ≤ x.1) := by
    intro x hx
    rcases h with ⟨-, rfl⟩ | ⟨j, m, rfl, -, -, hguards, hj⟩
    · exact absurd hx (by simp [Forest.nodes])
    · obtain rfl : x = (j, m) := by simpa [Forest.nodes, Tree.nodes] using hx
      exact ⟨hguards, hj⟩
  rw [View.setText_element fresh id text hn]
  split
  · next halready =>
    refine ⟨row', rfl, ?_, fun x hx => absurd hx (by simp [Forest.nodes])⟩
    rcases h with ⟨-, rfl⟩ | ⟨j, m, rfl, hm, hrest⟩
    · simp [View.showsAlready] at halready
    · have htext : shown = text := by simpa [View.showsAlready, Node.payload?, hm] using halready
      exact Or.inr ⟨j, m, rfl, htext ▸ hm, hrest⟩
  · exact ⟨View.textRow fresh text, rfl, contentShown_textRow hfresh row text, hrow'⟩

namespace Focus

variable {ts us : Forest (Node κ)} {t u : View κ} {text : String}

/-- What the rest of a view shows is no matter of the slot. -/
theorem replace_of (h : Focus options store first ok s ts us t u)
    (hr : Refreshes s text ok ok') {f : View κ → Forest (Node κ)} {u' : View κ}
    (hu' : Shows options store first ok' t u') (hf : f u = [u']) :
    ShowsRow options store first ok' ts (Forest.expand s.node f us) :=
  h.replace (fun s' _ hne => hr.others s' fun heq => hne (heq ▸ rfl)) hu' hf

/-- A slot of an element is its content or its field. -/
theorem own {id : NodeId} {n : Node κ} {row : List (View κ)}
    (h : Focus options store first ok s ts us (.node id n row) u) (hn : n.isElement = true) :
    (Directive.keyOf? .text (n.directives options) = some s.key ∧ s.part = .content) ∨
      (Directive.keyOf? .model (n.directives options) = some s.key ∧ s.part = .field) :=
  View.own_slot hn h.template h.distinct h.mem h.id_eq.symm

/-- A slot of a text is the place of its first marker. -/
theorem own_text {id : NodeId} {n : Node κ} {row : List (View κ)} {payload : String}
    (h : Focus options store first ok s ts us (.node id n row) u) (hn : n.content = .text payload) :
    ∃ m, Marker.find? options.delimiters payload = some m ∧ s = ⟨id, m.key, .marker payload m⟩ := by
  have hmem := h.mem
  rw [View.slots_text hn, Slot.ofText] at hmem
  split at hmem
  · exact absurd hmem (by simp)
  · next m hm => exact ⟨m, hm, List.mem_singleton.1 hmem⟩

theorem eq_mk (h : Focus options store first ok s ts us t u) {part : Part} (hpart : s.part = part) :
    s = ⟨t.id, s.key, part⟩ := by
  rw [h.id_eq, ← hpart]

/-- A content shows another text. -/
theorem content (h : Focus options store first ok s ts us t u) (hpart : s.part = .content)
    (hr : Refreshes s text ok ok') {fresh : NodeId} (hfresh : first ≤ fresh) :
    Shows options store first ok' t (View.setText fresh text u).view ∧
      ∀ x ∈ Forest.nodes (View.setText fresh text u).removed,
        x.2.guards = [] ∧ (x.1 ∈ View.hiddenRow options ts ∨ first ≤ x.1) := by
  have hhidden := h.hidden
  have hs := h.eq_mk hpart
  have hhere : ok' ⟨t.id, s.key, .content⟩ text := hs ▸ hr.here
  cases h.shows with
  | text hn | marker hn =>
    obtain ⟨m, -, hother⟩ := h.own_text hn
    rw [hother] at hpart
    exact absurd hpart (by simp)
  | @content id n n' key shown row row' hn hkey hfield hshown hrow =>
    rcases h.own hn with ⟨hskey, -⟩ | ⟨-, hother⟩
    · obtain ⟨row'', hview, hrow'', hremoved⟩ :=
        hrow.setText id text (hfield.isElement_eq.trans hn) hfresh
      rw [hview]
      refine ⟨.content hn hskey (hfield.others hr fun key => ?_) hhere hrow'', fun x hx => ?_⟩
      · rw [hs]
        simp
      · refine ⟨(hremoved x hx).1, (hremoved x hx).2.imp (fun hin => hhidden _ ?_) fun hle => hle⟩
        rw [View.hidden, hkey]
        exact hin
    · exact absurd (hpart.symm.trans hother) (by simp)
  | element hn hkey =>
    rcases h.own hn with ⟨hskey, -⟩ | ⟨-, hother⟩
    · exact absurd (hkey.symm.trans hskey) (by simp)
    · exact absurd (hpart.symm.trans hother) (by simp)

/-- A value field shows another text. -/
theorem field (h : Focus options store first ok s ts us t u) (hpart : s.part = .field)
    (hr : Refreshes s text ok ok') :
    Shows options store first ok' t (u.mapRoot (·.setValue text)) := by
  have hdistinct := h.distinct
  have hs := h.eq_mk hpart
  have hhere : ok' ⟨t.id, s.key, .field⟩ text := hs ▸ hr.here
  cases h.shows with
  | text hn | marker hn =>
    obtain ⟨m, -, hother⟩ := h.own_text hn
    rw [hother] at hpart
    exact absurd hpart (by simp)
  | content hn hkey hfield hshown hrow =>
    rcases h.own hn with ⟨-, hother⟩ | ⟨hskey, -⟩
    · exact absurd (hpart.symm.trans hother) (by simp)
    · refine .content hn hkey (hfield.setValue hskey hhere) (hr.others _ ?_ _ hshown) hrow
      rw [hs]
      simp
  | element hn hkey hfield hrow =>
    rcases h.own hn with ⟨-, hother⟩ | ⟨hskey, -⟩
    · exact absurd (hpart.symm.trans hother) (by simp)
    · rw [Tree.ids_node, List.nodup_cons] at hdistinct
      refine .element hn hkey (hfield.setValue hskey hhere)
        (hrow.mono fun s' hs' => hr.others s' ?_)
      rintro rfl
      have hbelow := View.node_mem_idsRow hs'
      rw [← h.id_eq] at hbelow
      exact hdistinct.1 hbelow

/-- A marker shows another text. -/
theorem marker (h : Focus options store first ok s ts us t u) {template : String} {m : Marker}
    (hpart : s.part = .marker template m) (hr : Refreshes s text ok ok') :
    Shows options store first ok' t (u.mapRoot (·.setPayload (m.render template text))) := by
  have hhere := hr.here
  cases h.shows with
  | text hn hmarker =>
    obtain ⟨m', hm', -⟩ := h.own_text hn
    exact absurd (hmarker.symm.trans hm') (by simp)
  | @marker id n n' payload m' shown hn hmarker hshown hcontent hlisteners =>
    obtain ⟨m', hm', hs⟩ := h.own_text hn
    rw [hs] at hpart hhere
    obtain ⟨rfl, rfl⟩ := Part.marker.inj hpart
    have hset : n'.setPayload (m'.render payload text) =
        { n' with content := .text (m'.render payload text) } := by
      simp [Node.setPayload, hcontent]
    rw [Tree.mapRoot, hset]
    exact .marker hn hm' hhere rfl hlisteners
  | content hn | element hn =>
    rcases h.own hn with ⟨-, hother⟩ | ⟨-, hother⟩
    · exact absurd (hpart.symm.trans hother) (by simp)
    · exact absurd (hpart.symm.trans hother) (by simp)

/-- A value field shows what is `ok`, and typing into it is listened to. -/
theorem field_heard (h : Focus options store first ok s ts us t u) (hpart : s.part = .field) :
    ok s u.val.value ∧ ∃ r, u.val.listeners = [r] ∧ r.event = options.inputEvent ∧
      r.listener = .input s.node store s.key := by
  have hs := h.eq_mk hpart
  cases h.shows with
  | text hn | marker hn =>
    obtain ⟨m, -, hother⟩ := h.own_text hn
    rw [hother] at hpart
    exact absurd hpart (by simp)
  | content hn hkey hfield | element hn hkey hfield =>
    rcases h.own hn with ⟨-, hother⟩ | ⟨hskey, -⟩
    · exact absurd (hpart.symm.trans hother) (by simp)
    · rw [hskey] at hfield
      obtain ⟨shown, hcontent, hok, r, hr, hevent, hlistener⟩ := hfield
      rw [Tree.val, Node.value_eq_of_setValue hn hcontent]
      exact ⟨hs ▸ hok, r, hr, hevent, h.id_eq ▸ hlistener⟩

end Focus

/-! ## What is taken out -/

/-- Whether trees that were taken out of a view are bound to nothing, and have none of its slots. -/
def Clear (options : Options) (first : NodeId) (ts : Forest (Node κ)) (removed : Forest (Node κ)) :
    Prop :=
  ∀ x ∈ Forest.nodes removed, x.2.listeners = [] ∧ x.2.guards = [] ∧
    (x.1 ∈ View.hiddenRow options ts ∨ first ≤ x.1)

theorem Clear.append {ts a b : Forest (Node κ)} (ha : Clear options first ts a)
    (hb : Clear options first ts b) : Clear options first ts (a ++ b) := by
  intro x hx
  rw [Forest.nodes_append, List.mem_append] at hx
  exact hx.elim (ha x) (hb x)

/-- A slot is not among what was taken out. -/
theorem Clear.not_mem {ts removed : Forest (Node κ)} (h : Clear options first ts removed)
    (hdistinct : (Forest.ids ts).Nodup) (hs : s ∈ View.slotsRow options ts)
    (hfirst : s.node < first) : s.node ∉ Forest.ids removed := by
  intro hin
  obtain ⟨x, hx, heq⟩ := Forest.mem_ids.1 hin
  rcases (h x hx).2.2 with hhidden | hle
  · exact View.not_mem_hiddenRow hdistinct hs (heq ▸ hhidden)
  · exact Nat.not_lt.2 (heq ▸ hle) hfirst

/-- Discarding trees that hold no guards ends no subscription. -/
theorem Wiring.discardAll_of_clear {row : Forest (Node κ)}
    (h : ∀ x ∈ Forest.nodes row, x.2.guards = []) (w : Wiring κ) :
    w.discardAll row = { w with removed := w.removed ++ Forest.map Node.release row } := by
  induction row generalizing w with
  | nil => simp [Wiring.discardAll, Forest.map]
  | cons t ts ih =>
    have ht : View.guards t = [] :=
      List.flatMap_eq_nil_iff.2 fun x hx => h x (by simp [Forest.nodes, hx])
    have hts := ih (fun x hx => h x (by simp [Forest.nodes, hx])) (w.discard t)
    rw [Wiring.discardAll, List.foldl_cons]
    rw [Wiring.discardAll] at hts
    rw [hts]
    simp [Wiring.discard, ht, Stores.endGuards, Forest.map, View.released]

theorem clear_released {ts row : Forest (Node κ)}
    (h : ∀ x ∈ Forest.nodes row, x.1 ∈ View.hiddenRow options ts ∨ first ≤ x.1) :
    Clear options first ts (Forest.map Node.release row) := by
  intro x hx
  rw [Forest.nodes_map, List.mem_map] at hx
  obtain ⟨y, hy, rfl⟩ := hx
  exact ⟨rfl, rfl, h y hy⟩

/-! ## Worlds -/

/-- A forest the first tree of which became of a template with its root left alone, and all others
were taken out of it. -/
def Displays (options : Options) (store : StoreId) (first : NodeId) (ok : Slot → String → Prop)
    (root : View κ) (forest : Forest (Node κ)) : Prop :=
  ∃ us removed, forest = .node root.id root.val us :: removed ∧
    ShowsRow options store first ok root.children us ∧
    Clear options first root.children removed

section World

variable {root : View κ} {w : World κ} {value : Value}

/-- What is put in the place of a slot, and what is taken out of it. -/
theorem Displays.expand (hdistinct : root.ids.Nodup)
    (htemplate : View.isTemplateRow options root.children = true) (hfirst : s.node < first)
    (hs : s ∈ View.slotsRow options root.children)
    {forest : Forest (Node κ)} (h : Displays options store first ok root forest) :
    ∃ t u us, Focus options store first ok s root.children us t u ∧
      Forest.find? s.node forest = some u ∧
      ∀ {ok' : Slot → String → Prop} {text : String} {f : View κ → Forest (Node κ)} {u' : View κ}
        {more : Forest (Node κ)}, Refreshes s text ok ok' → Shows options store first ok' t u' →
        f u = [u'] → Clear options first root.children more →
        Displays options store first ok' root (Forest.expand s.node f forest ++ more) := by
  obtain ⟨us, removed, rfl, hrow, hclear⟩ := h
  obtain ⟨id, n, row⟩ := root
  rw [Tree.ids_node, List.nodup_cons] at hdistinct
  obtain ⟨t, u, hfocus⟩ := hrow.exists_focus htemplate hdistinct.2 hfirst hs
  have hne : id ≠ s.node := by
    rintro rfl
    exact hdistinct.1 (View.node_mem_idsRow hs)
  refine ⟨t, u, us, hfocus, ?_, ?_⟩
  · simp only [Tree.id]
    rw [Forest.find?, Tree.find?, if_neg hne, hfocus.found]
  · intro ok' text f u' more hr hu' hf hmore
    refine ⟨Forest.expand s.node f us, removed ++ more, ?_, hfocus.replace_of hr hu' hf,
      hclear.append hmore⟩
    simp only [Tree.id, Tree.val]
    rw [Forest.expand, Tree.expand, if_neg hne,
      Forest.expand_of_not_mem (hclear.not_mem hdistinct.2 hs hfirst)]
    rfl

/-- **Refreshing a slot.** Where an observer is told of a value (`World.refresh`), its slot shows the
value, and all others show what they showed. No subscription begins or ends. -/
theorem refresh_displays (hdistinct : root.ids.Nodup)
    (htemplate : View.isTemplateRow options root.children = true) (hfirst : s.node < first)
    (hnext : first ≤ w.next) (hs : s ∈ View.slotsRow options root.children)
    (h : Displays options store first ok root w.forest)
    (hr : Refreshes s (Value.display (some value)) ok ok') :
    Displays options store first ok' root (w.refresh s.observer value).forest ∧
      (w.refresh s.observer value).stores = w.stores ∧
      w.next ≤ (w.refresh s.observer value).next := by
  obtain ⟨t, u, us, hfocus, hfound, hexpand⟩ := h.expand hdistinct htemplate hfirst hs
  have hempty : Clear options first root.children [] := by simp [Clear, Forest.nodes]
  cases hpart : s.part with
  | content =>
    obtain ⟨hshows, hremoved⟩ := hfocus.content hpart hr hnext
    have hdiscard := fun w' : Wiring κ =>
      w'.discardAll_of_clear fun x hx => (hremoved x hx).1
    have hclear := clear_released fun x hx => (hremoved x hx).2
    have hobserver : (s.observer : Observer κ) = .content s.node := by
      rw [Slot.observer, hpart]
    simp only [hobserver, World.refresh, hfound, Wiring.writeText, World.wiring, hdiscard,
      World.settle, List.nil_append]
    exact ⟨hexpand hr hshows rfl hclear, trivial, Nat.le_succ _⟩
  | field =>
    have hobserver : (s.observer : Observer κ) = .field s.node := by
      rw [Slot.observer, hpart]
    have hshows := hfocus.field hpart hr
    have hforest := hexpand hr hshows (f := fun t => [t.mapRoot _]) rfl hempty
    rw [List.append_nil] at hforest
    rw [hobserver]
    exact ⟨hforest, rfl, Nat.le_refl _⟩
  | marker template m =>
    have hobserver : (s.observer : Observer κ) = .marker s.node template m := by
      rw [Slot.observer, hpart]
    have hshows := hfocus.marker hpart hr
    have hforest := hexpand hr hshows (f := fun t => [t.mapRoot _]) rfl hempty
    rw [List.append_nil] at hforest
    rw [hobserver]
    exact ⟨hforest, rfl, Nat.le_refl _⟩

end World

end ViewBinding
