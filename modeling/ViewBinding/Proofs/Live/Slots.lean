import ViewBinding.Compiler
import ViewBinding.Proofs.Tree.Lookup

/-!
# Slots of a template

A template has slots: the contents, the value fields and the markers that a compile pass ties to a
key.  They are read off the template before the pass: `View.slotsRow` lists them in the order in which
the pass subscribes them.  What stands below an element with a text directive is hidden: the pass
takes it out of the view, and no slot is there (`not_mem_hiddenRow`).

`View.isTemplateRow` says what may stand in a template: nothing below a text, at most one text
directive and one model directive on an element, no html directive, and nothing that is bound
already.
-/

namespace ViewBinding

/-! ## Directives of a kind -/

namespace Directive

def isOf (kind : DirectiveKind) (d : Directive) : Bool := d.kind = some kind

/-- The key of the first directive of a kind. -/
def keyOf? (kind : DirectiveKind) (ds : List Directive) : Option String :=
  (ds.find? (isOf kind)).map (·.key)

theorem keyOf?_append (kind : DirectiveKind) (ds : List Directive) (d : Directive) :
    keyOf? kind (ds ++ [d]) =
      (keyOf? kind ds).or (if d.isOf kind then some d.key else none) := by
  rw [keyOf?, List.find?_append]
  cases hfound : ds.find? (isOf kind) with
  | some d' => simp [keyOf?, hfound]
  | none =>
    by_cases hd : d.isOf kind = true
    · simp [keyOf?, hfound, hd]
    · simp [keyOf?, hfound, hd]

theorem keyOf?_append_of_ne {kind : DirectiveKind} (ds : List Directive) {d : Directive}
    (hd : d.isOf kind = false) : keyOf? kind (ds ++ [d]) = keyOf? kind ds := by
  rw [keyOf?_append, hd]
  simp

/-- The second directive of a kind would be one too many. -/
theorem keyOf?_eq_none {kind : DirectiveKind} {seen rest : List Directive} {d : Directive}
    (hcount : (seen ++ d :: rest).countP (isOf kind) ≤ 1) (hd : d.isOf kind = true) :
    keyOf? kind seen = none := by
  rw [List.countP_append, List.countP_cons_of_pos hd] at hcount
  have hseen : seen.countP (isOf kind) = 0 := by omega
  have hnone : seen.find? (isOf kind) = none := by
    rw [List.find?_eq_none]
    exact fun x hx => by simpa using List.countP_eq_zero.1 hseen x hx
  rw [keyOf?, hnone]
  rfl

end Directive

/-! ## Slots -/

/-- What of a node follows a key: one part for each kind of `Observer` that shows a value. -/
inductive Part where
  | content
  | field
  | marker (template : String) (marker : Marker)
deriving DecidableEq

/-- A part of a node that follows a key. -/
structure Slot where
  node : NodeId
  key : String
  part : Part
deriving DecidableEq

/-- Who is told of the key of a slot: the observer that `Wiring.watch` subscribed. -/
def Slot.observer {κ : Type} (s : Slot) : Observer κ :=
  match s.part with
  | .content => .content s.node
  | .field => .field s.node
  | .marker template marker => .marker s.node template marker

/-- The slot that a directive makes of an element: a content for `v-text`, a field for `v-model`. -/
def Slot.ofDirective? (id : NodeId) (d : Directive) : Option Slot :=
  if d.isOf .text then some ⟨id, d.key, .content⟩
  else if d.isOf .model then some ⟨id, d.key, .field⟩
  else none

theorem Slot.ofDirective?_node {id : NodeId} {d : Directive} {s : Slot}
    (h : ofDirective? id d = some s) : s.node = id := by
  unfold ofDirective? at h
  split at h
  · exact Option.some.inj h ▸ rfl
  · split at h
    · exact Option.some.inj h ▸ rfl
    · exact absurd h (by simp)

/-- The slots that directives make of an element. -/
def Slot.ofDirectives (id : NodeId) (ds : List Directive) : List Slot :=
  ds.filterMap (ofDirective? id)

/-- The slot that the first marker makes of a text (`Marker.find?`). -/
def Slot.ofText (options : Options) (id : NodeId) (payload : String) : List Slot :=
  match Marker.find? options.delimiters payload with
  | none => []
  | some marker => [⟨id, marker.key, .marker payload marker⟩]

theorem Slot.mem_ofDirectives_node {id : NodeId} {ds : List Directive} {s : Slot}
    (h : s ∈ ofDirectives id ds) : s.node = id := by
  obtain ⟨d, -, hd⟩ := List.mem_filterMap.1 h
  exact ofDirective?_node hd

theorem Slot.mem_ofText_node {options : Options} {id : NodeId} {payload : String} {s : Slot}
    (h : s ∈ ofText options id payload) : s.node = id := by
  unfold ofText at h
  split at h
  · exact absurd h (by simp)
  · rw [List.mem_singleton.1 h]

/-- A content follows a key if there is a `v-text` directive. -/
theorem Slot.content_mem_ofDirectives {id : NodeId} {ds : List Directive} {key : String}
    (h : Directive.keyOf? .text ds = some key) : ⟨id, key, .content⟩ ∈ ofDirectives id ds := by
  obtain ⟨d, hd, rfl⟩ := Option.map_eq_some_iff.1 h
  have htext : d.isOf .text = true := List.find?_some hd
  exact List.mem_filterMap.2 ⟨d, List.mem_of_find?_eq_some hd, by simp [ofDirective?, htext]⟩

/-- A field follows a key if there is a `v-model` directive. -/
theorem Slot.field_mem_ofDirectives {id : NodeId} {ds : List Directive} {key : String}
    (h : Directive.keyOf? .model ds = some key) : ⟨id, key, .field⟩ ∈ ofDirectives id ds := by
  obtain ⟨d, hd, rfl⟩ := Option.map_eq_some_iff.1 h
  have hmodel : d.isOf .model = true := List.find?_some hd
  have htext : d.isOf .text = false := by
    simp only [Directive.isOf, decide_eq_true_eq] at hmodel
    simp [Directive.isOf, hmodel]
  refine List.mem_filterMap.2 ⟨d, List.mem_of_find?_eq_some hd, ?_⟩
  simp [ofDirective?, hmodel, htext]

/-- At most one directive of a kind: then its key is the only one. -/
theorem Directive.keyOf?_eq_of_mem {kind : DirectiveKind} {ds : List Directive} {d : Directive}
    (hcount : ds.countP (isOf kind) ≤ 1) (hd : d ∈ ds) (hkind : d.isOf kind = true) :
    keyOf? kind ds = some d.key := by
  obtain ⟨seen, rest, rfl⟩ := List.append_of_mem hd
  have hseen := keyOf?_eq_none hcount hkind
  rw [keyOf?, Option.map_eq_none_iff] at hseen
  simp [keyOf?, hseen, hkind]

/-- The slots of an element by its keys. -/
theorem Slot.mem_ofDirectives {id : NodeId} {ds : List Directive} {s : Slot}
    (htext : ds.countP (Directive.isOf .text) ≤ 1) (hmodel : ds.countP (Directive.isOf .model) ≤ 1)
    (h : s ∈ ofDirectives id ds) :
    (∃ key, Directive.keyOf? .text ds = some key ∧ s = ⟨id, key, .content⟩) ∨
      ∃ key, Directive.keyOf? .model ds = some key ∧ s = ⟨id, key, .field⟩ := by
  obtain ⟨d, hmem, hd⟩ := List.mem_filterMap.1 h
  unfold ofDirective? at hd
  split at hd
  · next hkind =>
    exact Or.inl ⟨d.key, Directive.keyOf?_eq_of_mem htext hmem hkind, (Option.some.inj hd).symm⟩
  · split at hd
    · next hkind =>
      exact Or.inr ⟨d.key, Directive.keyOf?_eq_of_mem hmodel hmem hkind, (Option.some.inj hd).symm⟩
    · exact absurd hd (by simp)

/-! ## Templates -/

/-- Whether directives may stand together on an element of a template: at most one of `v-text` and of
`v-model`, and none of `v-html`. -/
def Directive.fit (ds : List Directive) : Bool :=
  ds.countP (isOf .text) ≤ 1 && ds.countP (isOf .model) ≤ 1 && !ds.any (isOf .html)

theorem Directive.fit_iff {ds : List Directive} :
    Directive.fit ds = true ↔ ds.countP (isOf .text) ≤ 1 ∧ ds.countP (isOf .model) ≤ 1 ∧
      ∀ d ∈ ds, d.isOf .html = false := by
  simp [Directive.fit, and_assoc]

namespace View

variable {κ : Type} (options : Options)

mutual

/-- Whether a view is a part of a template: nothing binds it yet, nothing stands below a text, and the
directives of each element `fit`. -/
def isTemplate : View κ → Bool
  | .node _ n row =>
    n.listeners.isEmpty && n.guards.isEmpty && (n.isElement || row.isEmpty) &&
      Directive.fit (n.directives options) && isTemplateRow row

/-- Whether a row of views is a part of a template. -/
def isTemplateRow : Forest (Node κ) → Bool
  | [] => true
  | t :: ts => isTemplate t && isTemplateRow ts

end

mutual

/-- The slots of a view, in the order in which a pass subscribes them (`compileNode`). -/
def slots : View κ → List Slot
  | .node id n row =>
    match n.content with
    | .text payload => Slot.ofText options id payload
    | .element .. =>
      Slot.ofDirectives id (n.directives options) ++
        if (Directive.keyOf? .text (n.directives options)).isSome then [] else slotsRow row

/-- The slots of a row of views. -/
def slotsRow : Forest (Node κ) → List Slot
  | [] => []
  | t :: ts => slots t ++ slotsRow ts

end

mutual

/-- The nodes of a view that a pass takes out: those below an element with a `v-text` directive. -/
def hidden : View κ → List NodeId
  | .node _ n row =>
    if (Directive.keyOf? .text (n.directives options)).isSome then Forest.ids row
    else hiddenRow row

/-- The nodes of a row of views that a pass takes out. -/
def hiddenRow : Forest (Node κ) → List NodeId
  | [] => []
  | t :: ts => hidden t ++ hiddenRow ts

end

@[simp] theorem slotsRow_nil : slotsRow options ([] : Forest (Node κ)) = [] := by
  rw [slotsRow]

@[simp] theorem slotsRow_cons (t : View κ) (ts : Forest (Node κ)) :
    slotsRow options (t :: ts) = slots options t ++ slotsRow options ts := by
  rw [slotsRow]

@[simp] theorem hiddenRow_nil : hiddenRow options ([] : Forest (Node κ)) = [] := by
  rw [hiddenRow]

@[simp] theorem hiddenRow_cons (t : View κ) (ts : Forest (Node κ)) :
    hiddenRow options (t :: ts) = hidden options t ++ hiddenRow options ts := by
  rw [hiddenRow]

variable {options}

theorem isTemplateRow_cons {t : View κ} {ts : Forest (Node κ)} :
    isTemplateRow options (t :: ts) = true ↔
      isTemplate options t = true ∧ isTemplateRow options ts = true := by
  rw [isTemplateRow, Bool.and_eq_true]

/-- What there is to know of a node of a template. -/
theorem isTemplate_node {id : NodeId} {n : Node κ} {row : List (View κ)} :
    isTemplate options (.node id n row) = true ↔
      n.listeners = [] ∧ n.guards = [] ∧ (n.isElement = false → row = []) ∧
        Directive.fit (n.directives options) = true ∧ isTemplateRow options row = true := by
  rw [isTemplate]
  cases n.isElement <;> simp [and_assoc]

mutual

/-- Nothing in a template is bound already. -/
theorem unbound_of_isTemplate : ∀ {t : View κ}, isTemplate options t = true →
    ∀ x ∈ t.nodes, x.2.listeners = [] ∧ x.2.guards = []
  | .node id n row, h, x, hx => by
    obtain ⟨hlisteners, hguards, -, -, hbelow⟩ := isTemplate_node.1 h
    rw [Tree.nodes, List.mem_cons] at hx
    rcases hx with rfl | hx
    · exact ⟨hlisteners, hguards⟩
    · exact unbound_of_isTemplateRow hbelow x hx

theorem unbound_of_isTemplateRow : ∀ {ts : Forest (Node κ)}, isTemplateRow options ts = true →
    ∀ x ∈ Forest.nodes ts, x.2.listeners = [] ∧ x.2.guards = []
  | [], _, x, hx => absurd hx (by simp [Forest.nodes])
  | t :: ts, h, x, hx => by
    obtain ⟨ht, hts⟩ := isTemplateRow_cons.1 h
    rw [Forest.nodes, List.mem_append] at hx
    exact hx.elim (unbound_of_isTemplate ht x) (unbound_of_isTemplateRow hts x)

end

mutual

theorem node_mem_ids {s : Slot} : ∀ {t : View κ}, s ∈ slots options t → s.node ∈ t.ids
  | .node id n row, h => by
    rw [slots] at h
    rw [Tree.ids_node]
    split at h
    · rw [Slot.mem_ofText_node h]
      exact List.mem_cons_self
    · rcases List.mem_append.1 h with h | h
      · rw [Slot.mem_ofDirectives_node h]
        exact List.mem_cons_self
      · split at h
        · exact absurd h (by simp)
        · exact List.mem_cons_of_mem id (node_mem_idsRow h)

theorem node_mem_idsRow {s : Slot} : ∀ {ts : Forest (Node κ)}, s ∈ slotsRow options ts →
    s.node ∈ Forest.ids ts
  | [], h => by simp at h
  | t :: ts, h => by
    rw [slotsRow_cons, List.mem_append] at h
    rw [Forest.ids_cons, List.mem_append]
    exact h.imp node_mem_ids node_mem_idsRow

end

mutual

theorem hidden_subset : ∀ (t : View κ), ∀ i ∈ hidden options t, i ∈ t.ids
  | .node id n row, i, h => by
    rw [hidden] at h
    rw [Tree.ids_node]
    split at h
    · exact List.mem_cons_of_mem id h
    · exact List.mem_cons_of_mem id (hiddenRow_subset row i h)

theorem hiddenRow_subset : ∀ (ts : Forest (Node κ)), ∀ i ∈ hiddenRow options ts, i ∈ Forest.ids ts
  | [], i, h => by simp at h
  | t :: ts, i, h => by
    rw [hiddenRow_cons, List.mem_append] at h
    rw [Forest.ids_cons, List.mem_append]
    exact h.imp (hidden_subset t i) (hiddenRow_subset ts i)

end

mutual

theorem not_mem_hidden {s : Slot} : ∀ {t : View κ}, t.ids.Nodup → s ∈ slots options t →
    s.node ∉ hidden options t
  | .node id n row, hd, h => by
    rw [Tree.ids_node, List.nodup_cons] at hd
    have hown : s.node = id → s.node ∉ hidden options (.node id n row) := by
      rintro rfl
      rw [hidden]
      split
      · exact hd.1
      · exact fun hin => hd.1 (hiddenRow_subset row _ hin)
    rw [slots] at h
    split at h
    · exact hown (Slot.mem_ofText_node h)
    · rcases List.mem_append.1 h with h | h
      · exact hown (Slot.mem_ofDirectives_node h)
      · rw [hidden]
        split at h
        · exact absurd h (by simp)
        · next hnone =>
          rw [if_neg hnone]
          exact not_mem_hiddenRow hd.2 h

/-- A slot is not among what is taken out. -/
theorem not_mem_hiddenRow {s : Slot} : ∀ {ts : Forest (Node κ)}, (Forest.ids ts).Nodup →
    s ∈ slotsRow options ts → s.node ∉ hiddenRow options ts
  | [], _, h => by simp at h
  | t :: ts, hd, h => by
    rw [Forest.ids_cons, List.nodup_append] at hd
    rw [hiddenRow_cons, List.mem_append, not_or]
    rcases List.mem_append.1 (slotsRow_cons options t ts ▸ h) with h | h
    · exact ⟨not_mem_hidden hd.1 h, fun hin =>
        hd.2.2 _ (node_mem_ids h) _ (hiddenRow_subset ts _ hin) rfl⟩
    · exact ⟨fun hin => hd.2.2 _ (hidden_subset t _ hin) _ (node_mem_idsRow h) rfl,
        not_mem_hiddenRow hd.2.1 h⟩

end

theorem slots_text {id : NodeId} {n : Node κ} {row : List (View κ)} {payload : String}
    (hn : n.content = .text payload) :
    slots options (.node id n row) = Slot.ofText options id payload := by
  simp [slots, hn]

theorem slots_element {id : NodeId} {n : Node κ} {row : List (View κ)} (hn : n.isElement = true) :
    slots options (.node id n row) = Slot.ofDirectives id (n.directives options) ++
      if (Directive.keyOf? .text (n.directives options)).isSome then []
      else slotsRow options row := by
  cases hcontent : n.content with
  | text payload => simp [Node.isElement, hcontent] at hn
  | element tag attributes field => simp [slots, hcontent]

/-- The slots of an element itself are its content and its field. -/
theorem own_slot {id : NodeId} {n : Node κ} {row : List (View κ)} {s : Slot}
    (hn : n.isElement = true) (htemplate : isTemplate options (.node id n row) = true)
    (hdistinct : (Tree.node id n row).ids.Nodup) (hs : s ∈ slots options (.node id n row))
    (hid : s.node = id) :
    (Directive.keyOf? .text (n.directives options) = some s.key ∧ s.part = .content) ∨
      (Directive.keyOf? .model (n.directives options) = some s.key ∧ s.part = .field) := by
  obtain ⟨-, -, -, hfit, -⟩ := isTemplate_node.1 htemplate
  obtain ⟨htext, hmodel, -⟩ := Directive.fit_iff.1 hfit
  rw [Tree.ids_node, List.nodup_cons] at hdistinct
  rw [slots_element hn, List.mem_append] at hs
  rcases hs with hs | hs
  · rcases Slot.mem_ofDirectives htext hmodel hs with ⟨key, hkey, rfl⟩ | ⟨key, hkey, rfl⟩
    · exact Or.inl ⟨hkey, rfl⟩
    · exact Or.inr ⟨hkey, rfl⟩
  · split at hs
    · exact absurd hs (by simp)
    · exact absurd (hid ▸ node_mem_idsRow hs) hdistinct.1

end View

end ViewBinding
