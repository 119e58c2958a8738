import ViewBinding.Proofs.Live.Refresh

/-!
# What a pass binds

A compile pass over a template, with the standard strategies and without methods, makes every slot
show the value of its key, and subscribes one observer for each slot, in the order of the slots.
What it takes out of the view stood below elements with a text directive, and is bound to nothing.

* `Wired` — how the wiring of a pass grows; it composes (`Wired.trans`).
* `Dressed.dispatchOn` — one directive more on an element.
* `compileRow_binds` — the whole pass.
-/

namespace ViewBinding

open Json (Value)

variable {κ : Type}

/-! ## Growing wiring -/

/-- How the wiring of a pass has grown: an observer was subscribed for each of some slots, and trees
with some of the `gone` nodes were taken out. -/
structure Wired (store : StoreId) (slots : List Slot) (gone : List NodeId) (w w' : Wiring κ) :
    Prop where
  next_le : w.next ≤ w'.next
  stored : ∀ st : Store κ, w.stores[store]? = some st → ∃ st' : Store κ,
    w'.stores[store]? = some st' ∧ st'.data = st.data ∧
      ∀ key, (st'.observersOf key).map Prod.snd =
        (st.observersOf key).map Prod.snd ++ (slots.filter (·.key = key)).map Slot.observer
  removed : ∃ more, w'.removed = w.removed ++ more ∧
    ∀ x ∈ Forest.nodes more, x.2.listeners = [] ∧ x.2.guards = [] ∧ x.1 ∈ gone

namespace Wired

variable {store : StoreId} {slots slots₁ slots₂ : List Slot} {gone gone₁ gone₂ : List NodeId}
  {w w₁ w₂ : Wiring κ}

theorem refl (store : StoreId) (gone : List NodeId) (w : Wiring κ) : Wired store [] gone w w where
  next_le := Nat.le_refl _
  stored st hst := ⟨st, hst, rfl, fun _ => by simp⟩
  removed := ⟨[], by simp, by simp [Forest.nodes]⟩

theorem trans (h₁ : Wired store slots₁ gone₁ w w₁) (h₂ : Wired store slots₂ gone₂ w₁ w₂) :
    Wired store (slots₁ ++ slots₂) (gone₁ ++ gone₂) w w₂ where
  next_le := Nat.le_trans h₁.next_le h₂.next_le
  stored st hst := by
    obtain ⟨st₁, hst₁, hd₁, ho₁⟩ := h₁.stored st hst
    obtain ⟨st₂, hst₂, hd₂, ho₂⟩ := h₂.stored st₁ hst₁
    refine ⟨st₂, hst₂, hd₂.trans hd₁, fun key => ?_⟩
    rw [ho₂, ho₁, List.filter_append, List.map_append, List.append_assoc]
  removed := by
    obtain ⟨more₁, hm₁, hx₁⟩ := h₁.removed
    obtain ⟨more₂, hm₂, hx₂⟩ := h₂.removed
    refine ⟨more₁ ++ more₂, by rw [hm₂, hm₁, List.append_assoc], fun x hx => ?_⟩
    rw [Forest.nodes_append, List.mem_append] at hx
    rcases hx with hx | hx
    · obtain ⟨hlisteners, hguards, hin⟩ := hx₁ x hx
      exact ⟨hlisteners, hguards, List.mem_append_left _ hin⟩
    · obtain ⟨hlisteners, hguards, hin⟩ := hx₂ x hx
      exact ⟨hlisteners, hguards, List.mem_append_right _ hin⟩

theorem hold {data : String → Option Value} (h : Wired store slots gone w w₁)
    (hhold : w.stores.Hold store data) : w₁.stores.Hold store data := by
  obtain ⟨st, hst, hdata⟩ := hhold
  obtain ⟨st₁, hst₁, hd, -⟩ := h.stored st hst
  exact ⟨st₁, hst₁, fun key => by rw [Store.get?, hd, ← hdata key, Store.get?]⟩

/-- A finding changes nothing. -/
theorem report (h : Wired store slots gone w w₁) (d : Diagnostic) :
    Wired store slots gone w (w₁.report d) :=
  ⟨h.next_le, h.stored, h.removed⟩

end Wired

/-- One observer is subscribed (`Wiring.watch`), and it is that of the slot. -/
theorem wired_watch (w : Wiring κ) (store : StoreId) (s : Slot) (t : View κ) :
    Wired store [s] [] w (w.watch store s.key s.observer t).2 := by
  unfold Wiring.watch
  split
  · next hnone =>
    refine ⟨Nat.le_refl _, fun st hst => ?_, ⟨[], by simp, by simp [Forest.nodes]⟩⟩
    rw [hnone] at hst
    exact absurd hst (by simp)
  · next st hst =>
    refine ⟨Nat.le_refl _, fun st' hst' => ?_, ⟨[], by simp, by simp [Forest.nodes]⟩⟩
    obtain rfl : st = st' := Option.some.inj (hst.symm.trans hst')
    refine ⟨st.subscribe s.key s.observer, ?_, rfl, fun key => ?_⟩
    · rw [Stores.getElem?_update, hst', Option.map_some, if_pos rfl]
    · rw [Store.observersOf_subscribe]
      by_cases hkey : key = s.key
      · simp [hkey]
      · simp [hkey, Ne.symm hkey]

/-- A text content is written (`write_text`), where what makes room for it is bound to nothing. -/
theorem wired_writeText {w : Wiring κ} {store : StoreId} {id : NodeId} {n : Node κ}
    {row : Forest (Node κ)} (hrow : ∀ x ∈ Forest.nodes row, x.2.guards = []) (text : String) :
    Wired store [] (Forest.ids row) w (w.writeText text (.node id n row)).2.2 := by
  have hremoved : ∀ x ∈ Forest.nodes (View.setText w.next text (.node id n row)).removed,
      x ∈ Forest.nodes row := by
    intro x hx
    simp only [View.setText] at hx
    split at hx
    · exact absurd hx (by simp [Forest.nodes])
    · split at hx
      · exact absurd hx (by simp [Forest.nodes])
      · exact hx
  simp only [Wiring.writeText,
    Wiring.discardAll_of_clear fun x hx => hrow x (hremoved x hx)]
  refine ⟨Nat.le_succ _, fun st hst => ⟨st, hst, rfl, fun _ => by simp⟩, _, rfl, fun x hx => ?_⟩
  rw [Forest.nodes_map, List.mem_map] at hx
  obtain ⟨y, hy, rfl⟩ := hx
  exact ⟨rfl, rfl, Forest.mem_ids.2 ⟨y, hremoved y hy, rfl⟩⟩

/-! ## One element -/

/-- The text content of an element of a template is written. -/
theorem contentShown_setText {options : Options} {first fresh : NodeId} {row : Forest (Node κ)}
    (htemplate : View.isTemplateRow options row = true) (hfresh : first ≤ fresh) (text : String)
    (id : NodeId) {n : Node κ} (hn : n.isElement = true) :
    ∃ row', (View.setText fresh text (.node id n row)).view = .node id n row' ∧
      ContentShown first row text row' := by
  rw [View.setText_element fresh id text hn]
  split
  · next halready =>
    -- the only text that stood there in the template
    obtain ⟨j, m, below, rfl, hcontent⟩ := View.exists_of_showsAlready halready
    obtain ⟨hm, -⟩ := View.isTemplateRow_cons.1 htemplate
    obtain ⟨hlisteners, hguards, hbelow, -, -⟩ := View.isTemplate_node.1 hm
    obtain rfl := hbelow (by simp [Node.isElement, hcontent])
    exact ⟨_, rfl, Or.inr ⟨j, m, rfl, hcontent, hlisteners, hguards, Or.inl (by simp)⟩⟩
  · exact ⟨View.textRow fresh text, rfl, contentShown_textRow hfresh row text⟩

theorem FieldShown.congr {options : Options} {store : StoreId} {ok : Slot → String → Prop}
    {id : NodeId} {key? : Option String} {n n' n'' : Node κ}
    (h : FieldShown options store ok id key? n n') (hcontent : n''.content = n'.content)
    (hlisteners : n''.listeners = n'.listeners) : FieldShown options store ok id key? n n'' := by
  cases key? with
  | none => exact ⟨hcontent.trans h.1, hlisteners.trans h.2⟩
  | some key =>
    obtain ⟨shown, hshown, hok, r, hr, hheard⟩ := h
    exact ⟨shown, hcontent.trans hshown, hok, r, hlisteners.trans hr, hheard⟩

/-- What the slots of an up-to-date view show. -/
def upToDate (data : String → Option Value) (s : Slot) (shown : String) : Prop :=
  shown = Value.display (data s.key)

/-- Where a pass stands at an element some directives of which were bound: what is seen of them, and what
was subscribed. -/
structure Dressed (c : Compiler κ) (data : String → Option Value) (first : NodeId) (id : NodeId)
    (n : Node κ) (row : Forest (Node κ)) (w : Wiring κ) (seen : List Directive)
    (e : ElementPass κ) : Prop where
  gone : e.gone = false
  owned : e.owned = (Directive.keyOf? .text seen).isSome
  replaced : Directive.keyOf? .text seen = none → e.replaced = false
  wired : Wired c.store (Slot.ofDirectives id seen)
    (if (Directive.keyOf? .text seen).isSome then Forest.ids row else []) w e.pass.wiring
  view : ∃ n' row', e.view = .node id n' row' ∧
    FieldShown c.options c.store (upToDate data) id (Directive.keyOf? .model seen) n n' ∧
    (Directive.keyOf? .text seen = none → row' = row) ∧
    ∀ key, Directive.keyOf? .text seen = some key →
      ContentShown first row (Value.display (data key)) row'

theorem Slot.ofDirectives_append (id : NodeId) (seen : List Directive) (d : Directive) :
    ofDirectives id (seen ++ [d]) = ofDirectives id seen ++ (ofDirective? id d).toList := by
  rw [ofDirectives, List.filterMap_append]
  cases h : ofDirective? id d <;> simp [ofDirectives, h]

namespace Dressed

variable {c : Compiler κ} {data : String → Option Value} {first id : NodeId} {n : Node κ}
  {row : Forest (Node κ)} {w : Wiring κ} {seen : List Directive} {e : ElementPass κ} {d : Directive}

/-- A directive that binds nothing. -/
theorem skip (h : Dressed c data first id n row w seen e) (htext : d.isOf .text = false)
    (hmodel : d.isOf .model = false) {finding : Diagnostic}
    (hd : c.dispatch d true e.view e.pass.wiring =
      ⟨.skipped, e.view, false, e.pass.wiring.report finding⟩) :
    Dressed c data first id n row w (seen ++ [d]) (c.dispatchOn e d) := by
  have hskipped : (Outcome.skipped == Outcome.boundContent) = false := rfl
  have hslots : Slot.ofDirectives id (seen ++ [d]) = Slot.ofDirectives id seen := by
    simp [Slot.ofDirectives_append, Slot.ofDirective?, htext, hmodel]
  constructor
  · simp [Compiler.dispatchOn, hd]
  · simp [Compiler.dispatchOn, hd, Directive.keyOf?_append_of_ne _ htext, h.owned, hskipped]
  · simpa [Compiler.dispatchOn, hd, Directive.keyOf?_append_of_ne _ htext] using h.replaced
  · rw [hslots, Directive.keyOf?_append_of_ne _ htext]
    simpa [Compiler.dispatchOn, hd] using h.wired.report finding
  · rw [Directive.keyOf?_append_of_ne _ htext, Directive.keyOf?_append_of_ne _ hmodel]
    simpa [Compiler.dispatchOn, hd] using h.view

/-- The text directive (`applyTextSync`) makes the slot of the content. -/
theorem text (h : Dressed c data first id n row w seen e) (hregistry : c.registry = .standard)
    (htemplate : View.isTemplateRow c.options row = true) (hn : n.isElement = true)
    (hhold : w.stores.Hold c.store data) (hfirst : first ≤ w.next)
    (hkind : d.kind = some .text) (hnone : Directive.keyOf? .text seen = none) :
    Dressed c data first id n row w (seen ++ [d]) (c.dispatchOn e d) := by
  have htext : d.isOf .text = true := by simp [Directive.isOf, hkind]
  have hmodel : d.isOf .model = false := by simp [Directive.isOf, hkind]
  have hkey : Directive.keyOf? .text (seen ++ [d]) = some d.key := by
    rw [Directive.keyOf?_append, hnone, htext]
    rfl
  have hslots : Slot.ofDirectives id (seen ++ [d]) =
      Slot.ofDirectives id seen ++ [⟨id, d.key, .content⟩] := by
    simp [Slot.ofDirectives_append, Slot.ofDirective?, htext]
  have hstrategy : d.kind.bind c.registry.get? = some .textSync := by
    rw [hkind, hregistry]
    rfl
  have hvalue := (h.wired.hold hhold).value?_eq d.key
  obtain ⟨n', row', hview, hfield, hrow, -⟩ := h.view
  obtain rfl := hrow hnone
  have hn' : n'.isElement = true := hfield.isElement_eq.trans hn
  have hnext : first ≤ e.pass.wiring.next := Nat.le_trans hfirst h.wired.next_le
  have hguards := fun x hx => (View.unbound_of_isTemplateRow htemplate x hx).2
  obtain ⟨row'', hset, hshown⟩ :=
    contentShown_setText htemplate hnext (Value.display (data d.key)) id hn'
  have hwritten : Wired c.store [] (Forest.ids row') e.pass.wiring
      (e.pass.wiring.writeText (Value.display (data d.key)) (.node id n' row')).2.2 :=
    wired_writeText hguards _
  generalize hw : (e.pass.wiring.writeText (Value.display (data d.key)) (.node id n' row')) = written
    at hwritten
  obtain ⟨view, replaced, w₁⟩ := written
  obtain rfl : .node id n' row'' = view := by
    rw [← hset]
    exact congrArg (·.1) hw
  obtain ⟨n'', hn'', hcontent, hlisteners⟩ :=
    Wiring.watch_node w₁ c.store d.key (.content id) id n' row''
  have hwatched := wired_watch w₁ c.store ⟨id, d.key, .content⟩ (.node id n' row'')
  have hdispatch : c.dispatch d true e.view e.pass.wiring =
      ⟨.boundContent, .node id n'' row'', replaced,
        (w₁.watch c.store d.key (.content id) (.node id n' row'')).2⟩ := by
    rw [Compiler.dispatch_text hstrategy (congrArg Value.display hvalue), hview]
    simp only [hw, Tree.id]
    rw [← hn'']
  constructor
  · simp [Compiler.dispatchOn, hdispatch]
  · simp [Compiler.dispatchOn, hdispatch, hkey]
  · simp [hkey]
  · rw [hslots, hkey]
    have hall := (h.wired.trans hwritten).trans hwatched
    simpa [Compiler.dispatchOn, hdispatch, hnone, Slot.observer] using hall
  · rw [hkey, Directive.keyOf?_append_of_ne _ hmodel]
    refine ⟨n'', row'', by simp [Compiler.dispatchOn, hdispatch], ?_, by simp, ?_⟩
    · exact hfield.congr hcontent hlisteners
    · intro key hd
      exact Option.some.inj hd ▸ hshown

/-- The model directive (`applyValueSync`) makes the slot of the field. -/
theorem model (h : Dressed c data first id n row w seen e) (hregistry : c.registry = .standard)
    (hhold : w.stores.Hold c.store data) (hkind : d.kind = some .model)
    (hnone : Directive.keyOf? .model seen = none) :
    Dressed c data first id n row w (seen ++ [d]) (c.dispatchOn e d) := by
  have htext : d.isOf .text = false := by simp [Directive.isOf, hkind]
  have hmodel : d.isOf .model = true := by simp [Directive.isOf, hkind]
  have hkey : Directive.keyOf? .model (seen ++ [d]) = some d.key := by
    rw [Directive.keyOf?_append, hnone, hmodel]
    rfl
  have hslots : Slot.ofDirectives id (seen ++ [d]) =
      Slot.ofDirectives id seen ++ [⟨id, d.key, .field⟩] := by
    simp [Slot.ofDirectives_append, Slot.ofDirective?, htext, hmodel]
  have hstrategy : d.kind.bind c.registry.get? = some .valueSync := by
    rw [hkind, hregistry]
    rfl
  have hbound : (Outcome.bound == Outcome.boundContent) = false := rfl
  have hvalue := (h.wired.hold hhold).value?_eq d.key
  obtain ⟨n', row', hview, hfield, hrow, hshown⟩ := h.view
  rw [hnone] at hfield
  obtain ⟨hsame, hunheard⟩ := hfield
  have hset : (n'.setValue (Value.display (data d.key))).content =
      (n.setValue (Value.display (data d.key))).content := by
    cases hc : n.content <;> simp [Node.setValue, hsame, hc]
  have hsetListeners : (n'.setValue (Value.display (data d.key))).listeners = [] := by
    cases hc : n'.content <;> simp [Node.setValue, hunheard, hc]
  obtain ⟨n'', hn'', hcontent, hlisteners⟩ := Wiring.watch_node e.pass.wiring c.store d.key
    (.field id) id (n'.setValue (Value.display (data d.key))) row'
  have hwatched := wired_watch e.pass.wiring c.store ⟨id, d.key, .field⟩
    (.node id (n'.setValue (Value.display (data d.key))) row')
  have hdispatch : c.dispatch d true e.view e.pass.wiring =
      ⟨.bound,
        .node id (n''.addListener c.options.inputEvent (.input id c.store d.key)) row', false,
        (e.pass.wiring.watch c.store d.key (.field id)
          (.node id (n'.setValue (Value.display (data d.key))) row')).2⟩ := by
    rw [Compiler.dispatch_value hstrategy (congrArg Value.display hvalue), hview]
    simp only [Tree.mapRoot, Tree.id]
    rw [hn'']
  constructor
  · simp [Compiler.dispatchOn, hdispatch]
  · simp [Compiler.dispatchOn, hdispatch, Directive.keyOf?_append_of_ne _ htext, h.owned, hbound]
  · simpa [Compiler.dispatchOn, hdispatch, Directive.keyOf?_append_of_ne _ htext] using h.replaced
  · rw [hslots, Directive.keyOf?_append_of_ne _ htext]
    have hall := h.wired.trans hwatched
    simpa [Compiler.dispatchOn, hdispatch, Slot.observer] using hall
  · rw [hkey, Directive.keyOf?_append_of_ne _ htext]
    refine ⟨n''.addListener c.options.inputEvent (.input id c.store d.key), row',
      by simp [Compiler.dispatchOn, hdispatch], ?_, hrow, hshown⟩
    refine ⟨Value.display (data d.key), hcontent.trans hset, rfl,
      ⟨n''.nextListener, c.options.inputEvent, .input id c.store d.key⟩, ?_, rfl, rfl⟩
    rw [Node.addListener, hlisteners, hsetListeners]
    rfl

/-- One directive more. -/
theorem dispatchOn (h : Dressed c data first id n row w seen e)
    (hregistry : c.registry = .standard) (hmethods : c.methods = [])
    (htemplate : View.isTemplateRow c.options row = true) (hn : n.isElement = true)
    (hhold : w.stores.Hold c.store data) (hfirst : first ≤ w.next) {rest : List Directive}
    (hfit : Directive.fit (seen ++ d :: rest) = true) :
    Dressed c data first id n row w (seen ++ [d]) (c.dispatchOn e d) := by
  obtain ⟨htext, hmodel, hhtml⟩ := Directive.fit_iff.1 hfit
  cases hkind : d.kind with
  | none =>
    have hnone : c.binds d = false := by simp [Compiler.binds, Compiler.strategy?, hkind]
    exact h.skip (by simp [Directive.isOf, hkind]) (by simp [Directive.isOf, hkind])
      (Compiler.dispatch_unbound hnone _ _ _)
  | some kind =>
    cases kind with
    | text =>
      have hd : d.isOf .text = true := by simp [Directive.isOf, hkind]
      exact h.text hregistry htemplate hn hhold hfirst hkind (Directive.keyOf?_eq_none htext hd)
    | model =>
      have hd : d.isOf .model = true := by simp [Directive.isOf, hkind]
      exact h.model hregistry hhold hkind (Directive.keyOf?_eq_none hmodel hd)
    | on =>
      -- there is no method that could hear an event
      have hstrategy : d.kind.bind c.registry.get? = some .eventBinding := by
        rw [hkind, hregistry]
        rfl
      have hunbound : c.binds d = false := by
        have hs : c.strategy? d = some .eventBinding := hstrategy
        simp [Compiler.binds, hs, hmethods, Table.contains]
      exact h.skip (by simp [Directive.isOf, hkind]) (by simp [Directive.isOf, hkind])
        (Compiler.dispatch_unbound hunbound _ _ _)
    | html =>
      have hd := hhtml d (by simp)
      simp [Directive.isOf, hkind] at hd

/-- All directives on an element, one after the other (`dispatchOn`). -/
theorem dispatchAll (hregistry : c.registry = .standard) (hmethods : c.methods = [])
    (htemplate : View.isTemplateRow c.options row = true) (hn : n.isElement = true)
    (hhold : w.stores.Hold c.store data) (hfirst : first ≤ w.next) (ds : List Directive)
    (hfit : Directive.fit (seen ++ ds) = true) (h : Dressed c data first id n row w seen e) :
    Dressed c data first id n row w (seen ++ ds) (c.dispatchAll ds e) := by
  induction ds generalizing seen e with
  | nil =>
    rw [List.append_nil]
    exact h
  | cons d ds ih =>
    have hd := h.dispatchOn hregistry hmethods htemplate hn hhold hfirst hfit
    rw [Compiler.dispatchAll, if_neg (by simp [h.gone])]
    rw [List.append_cons] at hfit ⊢
    exact ih hfit hd

end Dressed

/-! ## The whole pass -/

section Pass

variable {c : Compiler κ} {data : String → Option Value} {first : NodeId}

/-- A text node of a template: its first marker makes a slot (`Slot.ofText`). -/
theorem compileText_binds {id : NodeId} {n : Node κ} {payload : String}
    (hn : n.content = .text payload) (hlisteners : n.listeners = []) {p : Pass κ}
    (hhold : p.wiring.stores.Hold c.store data) :
    Shows c.options c.store first (upToDate data) (.node id n [])
        (c.compileText (.node id n []) p).1 ∧
      Wired c.store (Slot.ofText c.options id payload) [] p.wiring
        (c.compileText (.node id n []) p).2.wiring := by
  have hpayload : n.payload? = some payload := by simp [Node.payload?, hn]
  simp only [Compiler.compileText, Wiring.bindMarker, Tree.val, hpayload, Slot.ofText]
  cases hmarker : Marker.find? c.options.delimiters payload with
  | none => exact ⟨.text hn hmarker hn hlisteners, Wired.refl _ _ _⟩
  | some marker =>
    have hvalue := hhold.value?_eq marker.key
    let shown := Value.display (data marker.key)
    let n' := n.setPayload (marker.render payload shown)
    have hset : n' = { n with content := .text (marker.render payload shown) } := by
      simp [n', Node.setPayload, hn]
    have hwired := wired_watch p.wiring c.store ⟨id, marker.key, .marker payload marker⟩
      (.node id n' [])
    obtain ⟨n'', hn'', hcontent, hheard⟩ := Wiring.watch_node p.wiring c.store marker.key
      (.marker id payload marker) id n' []
    simp only [hvalue, Tree.mapRoot, Tree.id]
    refine ⟨?_, hwired⟩
    rw [hn'']
    have hshown : n''.content = .text (marker.render payload shown) := by rw [hcontent, hset]
    refine .marker hn hmarker rfl hshown ?_
    rw [hheard, hset]
    exact hlisteners

mutual

/-- A node of a template with everything below it. -/
theorem compileNode_binds (hregistry : c.registry = .standard) (hmethods : c.methods = []) :
    ∀ (t : View κ) (p : Pass κ), View.isTemplate c.options t = true →
      p.wiring.stores.Hold c.store data → first ≤ p.wiring.next →
        Shows c.options c.store first (upToDate data) t (c.compileNode t p).1 ∧
          Wired c.store (View.slots c.options t) (View.hidden c.options t) p.wiring
            (c.compileNode t p).2.wiring
  | .node id n row, p, htemplate, hhold, hfirst => by
    obtain ⟨hlisteners, -, hbare, hfit, hbelow⟩ := View.isTemplate_node.1 htemplate
    rw [Compiler.compileNode]
    cases hn : n.isElement with
    | false =>
      obtain ⟨payload, hcontent⟩ : ∃ payload, n.content = .text payload := by
        cases hc : n.content with
        | text payload => exact ⟨payload, rfl⟩
        | element => simp [Node.isElement, hc] at hn
      have hdirectives : n.directives c.options = [] := by
        simp [Node.directives, Node.attributes, hcontent]
      obtain rfl := hbare hn
      rw [if_pos (by simp), View.slots_text hcontent, View.hidden, hdirectives]
      exact compileText_binds hcontent hlisteners
        (p := { p with visitedNodes := p.visitedNodes + 1 }) hhold
    | true =>
      have hstart : Dressed c data first id n row p.wiring []
          { view := .node id n row, pass := { p with visitedNodes := p.visitedNodes + 1 } } :=
        ⟨rfl, rfl, fun _ => rfl, Wired.refl _ _ _,
          ⟨n, row, rfl, ⟨rfl, hlisteners⟩, fun _ => rfl, fun key hkey => absurd hkey (by
            simp [Directive.keyOf?])⟩⟩
      have hdressed := hstart.dispatchAll hregistry hmethods hbelow hn hhold hfirst
        (n.directives c.options) hfit
      rw [List.nil_append] at hdressed
      rw [if_neg (by simp), View.slots_element hn, View.hidden]
      simp only
      generalize c.dispatchAll (n.directives c.options) _ = e at hdressed ⊢
      obtain ⟨n', row', hview, hfield, hrow, hshown⟩ := hdressed.view
      have hwired := hdressed.wired
      cases hkey : Directive.keyOf? .text (n.directives c.options) with
      | some key =>
        have howned : e.owned = true := by rw [hdressed.owned, hkey]; rfl
        rw [hkey] at hwired
        rw [if_pos (by simp [howned]), hview]
        refine ⟨.content hn hkey hfield rfl (hshown key hkey), ?_⟩
        simpa using hwired
      | none =>
        have howned : e.owned = false := by rw [hdressed.owned, hkey]; rfl
        rw [hkey] at hwired
        simp only [Option.isSome_none, Bool.false_eq_true, if_false] at hwired ⊢
        obtain ⟨hrowShows, hrowWired⟩ := compileRow_binds hregistry hmethods row e.pass hbelow
          (hwired.hold hhold) (Nat.le_trans hfirst hwired.next_le)
        rw [if_neg (by simp [howned, hdressed.gone]), if_neg (by simp [hdressed.replaced hkey]), hview]
        exact ⟨.element hn hkey hfield hrowShows, hwired.trans hrowWired⟩

/-- **What a pass binds.** Over a row of a template, a pass makes every slot show its value, and subscribes
one observer for each (`Slot.observer`). -/
theorem compileRow_binds (hregistry : c.registry = .standard) (hmethods : c.methods = []) :
    ∀ (row : Forest (Node κ)) (p : Pass κ), View.isTemplateRow c.options row = true →
      p.wiring.stores.Hold c.store data → first ≤ p.wiring.next →
        ShowsRow c.options c.store first (upToDate data) row (c.compileRow row p).1 ∧
          Wired c.store (View.slotsRow c.options row) (View.hiddenRow c.options row) p.wiring
            (c.compileRow row p).2.wiring
  | [], p, _, _, _ => by
    rw [Compiler.compileRow, View.slotsRow_nil, View.hiddenRow_nil]
    exact ⟨.nil, Wired.refl _ _ _⟩
  | t :: ts, p, htemplate, hhold, hfirst => by
    obtain ⟨ht, hts⟩ := View.isTemplateRow_cons.1 htemplate
    obtain ⟨hhead, hheadWired⟩ := compileNode_binds hregistry hmethods t p ht hhold hfirst
    obtain ⟨htail, htailWired⟩ := compileRow_binds hregistry hmethods ts (c.compileNode t p).2 hts
      (hheadWired.hold hhold) (Nat.le_trans hfirst hheadWired.next_le)
    rw [Compiler.compileRow, View.slotsRow_cons, View.hiddenRow_cons]
    exact ⟨.cons hhead htail, hheadWired.trans htailWired⟩

end

end Pass

end ViewBinding
