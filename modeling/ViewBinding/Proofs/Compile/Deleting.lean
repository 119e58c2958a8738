import ViewBinding.Proofs.Compile.Record
import ViewBinding.Proofs.Compile.Tying
import ViewBinding.Proofs.Guards.Sessions
import ViewBinding.Proofs.View.Thinning

/-!
# Directives that cannot be bound

A directive that does not bind is a finding and nothing else.  A pass over a view from which some of
these directives were taken away goes the same way, does the same to stores and nodes, and leaves the
same view but for the attributes that are not there; among its findings only theirs are missing.

* `Compiler.follows_dispatch`, `Compiler.follows_dispatchOn_unbound` — one directive.
* `Compiler.follows_compileNode`, `Compiler.follows_compileRow` — a whole pass.
* `Compiler.findings_rowWithout` — what is found.
* `unbindable_directives_are_inert` — compiling with and without.
-/

namespace ViewBinding

open Json (Value)

variable {κ : Type}

/-! ## Two passes side by side -/

/-- What a pass works with, and what one works with that goes over the view without some attributes
(`View.without`). Only the findings may differ otherwise. -/
structure Wiring.Follows (drop : NodeId → Attribute → Bool) (w w' : Wiring κ) : Prop where
  stores : w'.stores = w.stores
  next : w'.next = w.next
  removed : w'.removed = View.rowWithout drop w.removed
  new : ∀ i, w.next ≤ i → ∀ a, drop i a = false

/-- A pass, and one over the view without some attributes. -/
structure Pass.Follows (drop : NodeId → Attribute → Bool) (p p' : Pass κ) : Prop where
  wiring : p.wiring.Follows drop p'.wiring
  visitedNodes : p'.visitedNodes = p.visitedNodes
  bindings : p'.bindings = p.bindings
  interpolations : p'.interpolations = p.interpolations

/-- A pass at an element, and one at the element without some attributes. -/
structure ElementPass.Follows (drop : NodeId → Attribute → Bool) (e e' : ElementPass κ) : Prop where
  view : e'.view = View.without drop e.view
  replaced : e'.replaced = e.replaced
  owned : e'.owned = e.owned
  gone : e'.gone = e.gone
  pass : e.pass.Follows drop e'.pass

/-- What a strategy comes to on a view, and on the view without some attributes (`Strategy.apply`). -/
structure Applied.Follows (drop : NodeId → Attribute → Bool) (a a' : Applied κ) : Prop where
  outcome : a'.outcome = a.outcome
  view : a'.view = View.without drop a.view
  replaced : a'.replaced = a.replaced
  wiring : a.wiring.Follows drop a'.wiring

namespace Wiring.Follows

variable {drop : NodeId → Attribute → Bool} {w w' : Wiring κ}

theorem report (h : w.Follows drop w') (d : Diagnostic) : (w.report d).Follows drop (w'.report d) :=
  { h with }

theorem report_left (h : w.Follows drop w') (d : Diagnostic) : (w.report d).Follows drop w' :=
  { h with }

theorem discard (h : w.Follows drop w') (t : View κ) :
    (w.discard t).Follows drop (w'.discard (View.without drop t)) where
  stores := by
    simp only [Wiring.discard]
    rw [View.guards_without, h.stores]
  next := h.next
  removed := by
    simp only [Wiring.discard]
    rw [View.rowWithout_append, View.rowWithout_cons, View.rowWithout_nil, View.without_released,
      h.removed]
  new := h.new

theorem discardAll (row : Forest (Node κ)) (h : w.Follows drop w') :
    (w.discardAll row).Follows drop (w'.discardAll (View.rowWithout drop row)) := by
  induction row generalizing w w' with
  | nil =>
    rw [View.rowWithout_nil]
    exact h
  | cons t ts ih =>
    rw [View.rowWithout_cons]
    exact ih (h.discard t)

theorem watch (h : w.Follows drop w') (store : StoreId) (key : String) (observer : Observer κ)
    (t : View κ) :
    (w'.watch store key observer (View.without drop t)).1 =
        View.without drop (w.watch store key observer t).1 ∧
      (w.watch store key observer t).2.Follows drop
        (w'.watch store key observer (View.without drop t)).2 := by
  unfold Wiring.watch
  rw [h.stores]
  cases w.stores[store]? with
  | none => exact ⟨rfl, h⟩
  | some s =>
    refine ⟨(View.without_mapRoot drop fun n => n.without_retain _ _).symm, ?_⟩
    exact { stores := rfl, next := h.next, removed := h.removed, new := h.new }

theorem writeText (h : w.Follows drop w') (text : String) (t : View κ) :
    let a := w.writeText text t
    let a' := w'.writeText text (View.without drop t)
    a'.1 = View.without drop a.1 ∧ a'.2.1 = a.2.1 ∧ a.2.2.Follows drop a'.2.2 := by
  have hnext : ({ w with next := w.next + 1 } : Wiring κ).Follows drop
      { w' with next := w'.next + 1 } :=
    { stores := h.stores
      next := congrArg (· + 1) h.next
      removed := h.removed
      new := fun i hi => h.new i (Nat.le_of_succ_le hi) }
  have hset := View.without_setText drop w.next text t
  simp only [Wiring.writeText]
  rw [h.next] at hnext ⊢
  rw [hset]
  exact ⟨rfl, rfl, hnext.discardAll _⟩

theorem bindMarker (h : w.Follows drop w') (store : StoreId) (delimiters : String × String)
    (t : View κ) :
    let a := w.bindMarker store delimiters t
    let a' := w'.bindMarker store delimiters (View.without drop t)
    a'.1 = a.1 ∧ a'.2.1 = View.without drop a.2.1 ∧ a.2.2.Follows drop a'.2.2 := by
  have hpayload : (View.without drop t).val.payload? = t.val.payload? := by
    rw [View.val_without, Node.payload?_without]
  simp only [Wiring.bindMarker, hpayload]
  cases t.val.payload? with
  | none => exact ⟨rfl, rfl, h⟩
  | some template =>
    cases hmarker : Marker.find? delimiters template with
    | none =>
      simp only [hmarker]
      exact ⟨trivial, trivial, h⟩
    | some marker =>
      simp only [hmarker, h.stores, View.id_without]
      have hshown := View.without_mapRoot drop (t := t) (f := (·.setPayload
        (marker.render template (Value.display (w.stores.value? store marker.key)))))
        fun n => n.without_setPayload _ _
      rw [← hshown]
      obtain ⟨hview, hwiring⟩ := h.watch store marker.key (.marker t.id template marker)
        (t.mapRoot (·.setPayload
          (marker.render template (Value.display (w.stores.value? store marker.key)))))
      exact ⟨trivial, hview, hwiring⟩

/-- A view of new nodes is built of markup, none of which is to lose an attribute (`Follows.new`). -/
theorem ofMarkup (h : w.Follows drop w') (m : Markup) :
    ({ w with next := (View.ofMarkup w.next m : View κ × NodeId).2 } : Wiring κ).Follows drop
      { w' with next := (View.ofMarkup w.next m : View κ × NodeId).2 } :=
  { stores := h.stores
    next := rfl
    removed := h.removed
    new := fun i hi => h.new i (Nat.le_trans (View.le_ofMarkup w.next m) hi) }

end Wiring.Follows

namespace Compiler

variable {c : Compiler κ} {drop : NodeId → Attribute → Bool}

/-! ## One directive -/

/-- What a directive does on a view and on the view without some attributes, where all strategies are
`Builtin`. -/
theorem follows_dispatch (hbuiltin : c.registry.Builtin) (d : Directive) (t : View κ)
    {w w' : Wiring κ} (h : w.Follows drop w') :
    (c.dispatch d true t w).Follows drop (c.dispatch d true (View.without drop t) w') := by
  have hshown : Value.display (w'.stores.value? c.store d.key) =
      Value.display (w.stores.value? c.store d.key) := by rw [h.stores]
  cases handled hbuiltin d with
  | unbound hd =>
    rw [dispatch_unbound hd, dispatch_unbound hd]
    exact ⟨rfl, rfl, rfl, h.report _⟩
  | text hs =>
    rw [dispatch_text hs rfl, dispatch_text hs hshown]
    obtain ⟨hview, hreplaced, hwritten⟩ :=
      h.writeText (Value.display (w.stores.value? c.store d.key)) t
    obtain ⟨hbound, hwatched⟩ := hwritten.watch c.store d.key (.content t.id)
      (w.writeText (Value.display (w.stores.value? c.store d.key)) t).1
    rw [View.id_without, hview]
    exact ⟨rfl, hbound, hreplaced, hwatched⟩
  | value hs =>
    rw [dispatch_value hs rfl, dispatch_value hs hshown]
    have hset := View.without_mapRoot drop (t := t)
      (f := (·.setValue (Value.display (w.stores.value? c.store d.key)))) fun n => n.without_setValue _ _
    obtain ⟨hbound, hwatched⟩ := h.watch c.store d.key (.field t.id)
      (t.mapRoot (·.setValue (Value.display (w.stores.value? c.store d.key))))
    rw [View.id_without, ← hset, hbound]
    exact ⟨rfl, (View.without_mapRoot drop fun n => n.without_addListener _ _ _).symm, rfl, hwatched⟩
  | method hs hevent hcode =>
    rw [dispatch_method hs hevent hcode, dispatch_method hs hevent hcode]
    exact ⟨rfl, (View.without_mapRoot drop fun n => n.without_addListener _ _ _).symm, rfl, h⟩
  | markup hs =>
    -- a finding of markup injected as text comes in both passes
    have hreported : ∀ fallback : Bool, (if fallback then w.report (.markupFallback d.name d.key)
        else w).Follows drop (if fallback then w'.report (.markupFallback d.name d.key) else w') := by
      intro fallback
      cases fallback with
      | false => exact h
      | true => exact h.report _
    rw [dispatch_markup hs rfl rfl,
      dispatch_markup hs (congrArg (Injected.ofText · c.options.markupWrapper) hshown) rfl]
    generalize Injected.ofText (Value.display (w.stores.value? c.store d.key))
      c.options.markupWrapper = injected
    have hv := hreported injected.fallback
    generalize (if injected.fallback then w.report (.markupFallback d.name d.key) else w) = v at *
    generalize (if injected.fallback then w'.report (.markupFallback d.name d.key) else w') = v' at *
    rw [hv.next]
    exact ⟨rfl, (View.without_ofMarkup hv.new injected.markup).symm, rfl,
      (hv.ofMarkup injected.markup).discard t⟩

/-! ## One element -/

theorem follows_dispatchOn (hbuiltin : c.registry.Builtin) (d : Directive) {e e' : ElementPass κ}
    (h : e.Follows drop e') : (c.dispatchOn e d).Follows drop (c.dispatchOn e' d) := by
  have ha := follows_dispatch hbuiltin d e.view h.pass.wiring
  rw [← h.view] at ha
  exact
    { view := ha.view
      replaced := by simp only [dispatchOn, h.replaced, ha.replaced]
      owned := by simp only [dispatchOn, h.owned, ha.outcome]
      gone := by simp only [dispatchOn, ha.outcome]
      pass :=
        { wiring := ha.wiring
          visitedNodes := h.pass.visitedNodes
          bindings := by simp only [dispatchOn, ha.outcome, h.pass.bindings]
          interpolations := h.pass.interpolations } }

/-- One pass dispatches a directive that does not bind (`binds`), the other one does not meet it. -/
theorem follows_dispatchOn_unbound {d : Directive} (hd : c.binds d = false) {e e' : ElementPass κ}
    (hgone : e.gone = false) (h : e.Follows drop e') : (c.dispatchOn e d).Follows drop e' := by
  have ha := dispatch_unbound hd true e.view e.pass.wiring
  exact
    { view := by simp only [dispatchOn, ha, h.view]
      replaced := by simp only [dispatchOn, ha, h.replaced, Bool.or_false]
      owned := by
        simp only [dispatchOn, ha, h.owned]
        exact (Bool.or_false _).symm
      gone := by
        rw [h.gone, hgone]
        simp only [dispatchOn, ha]
        rfl
      pass :=
        { wiring := by
            simp only [dispatchOn, ha]
            exact h.pass.wiring.report_left _
          visitedNodes := h.pass.visitedNodes
          bindings := by simp only [dispatchOn, ha, if_true, h.pass.bindings]
          interpolations := h.pass.interpolations } }

theorem follows_dispatchAll (hbuiltin : c.registry.Builtin) {lost : Directive → Bool}
    (ds : List Directive) (hlost : ∀ d ∈ ds, lost d = true → c.binds d = false)
    {e e' : ElementPass κ} (h : e.Follows drop e') :
    (c.dispatchAll ds e).Follows drop (c.dispatchAll (ds.filter fun d => !lost d) e') := by
  induction ds generalizing e e' with
  | nil => exact h
  | cons d ds ih =>
    have hrest := fun b hb => hlost b (List.mem_cons_of_mem d hb)
    cases hgone : e.gone with
    | true =>
      rw [dispatchAll_gone _ hgone, dispatchAll_gone _ (h.gone.trans hgone)]
      exact h
    | false =>
      rw [dispatchAll, if_neg (by simp [hgone])]
      cases hd : lost d with
      | true =>
        rw [List.filter_cons_of_neg (by simp [hd])]
        exact ih hrest (follows_dispatchOn_unbound (hlost d List.mem_cons_self hd) hgone h)
      | false =>
        rw [List.filter_cons_of_pos (by simp [hd]), dispatchAll,
          if_neg (by simp [h.gone, hgone])]
        exact ih hrest (follows_dispatchOn hbuiltin d h)

end Compiler

/-- The attribute that a directive is, from which `Directive.parse` makes it. -/
def Directive.attribute (d : Directive) : Attribute := ⟨d.name, d.key⟩

theorem Directive.attribute_of_parse {a : Attribute} {options : Options} {d : Directive}
    (h : Directive.parse a.name a.value options = some d) : d.attribute = a := by
  obtain ⟨parts, -, rfl⟩ := Option.map_eq_some_iff.1 h
  rfl

/-- The directives on a node without some attributes are those that are left. -/
theorem Node.directives_without (drop : Attribute → Bool) (n : Node κ) (options : Options) :
    (n.without drop).directives options =
      (n.directives options).filter fun d => !drop d.attribute := by
  rw [directives, directives, attributes_without, List.filterMap_filter, List.filter_filterMap]
  refine List.filterMap_congr fun a _ => ?_
  cases hd : Directive.parse a.name a.value options with
  | none => simp
  | some d => simp [Option.filter, Directive.attribute_of_parse hd]

namespace Compiler

variable {c : Compiler κ} {drop : NodeId → Attribute → Bool} {data : String → Option Value}

/-- Whether the attributes that are taken away from some nodes are directives that do not bind (`binds`).
-/
def OnlyUnbound (c : Compiler κ) (drop : NodeId → Attribute → Bool) (ns : List (NodeId × Node κ)) :
    Prop :=
  ∀ x ∈ ns, ∀ a ∈ x.2.attributes, drop x.1 a = true →
    (Directive.parse a.name a.value c.options).any (fun d => !c.binds d) = true

theorem OnlyUnbound.binds_eq_false {ns : List (NodeId × Node κ)} (h : c.OnlyUnbound drop ns)
    {id : NodeId} {n : Node κ} (hn : (id, n) ∈ ns) {d : Directive}
    (hd : d ∈ n.directives c.options) (hdrop : drop id d.attribute = true) : c.binds d = false := by
  obtain ⟨a, ha, hparse⟩ := List.mem_filterMap.1 hd
  have hany := h (id, n) hn a ha (Directive.attribute_of_parse hparse ▸ hdrop)
  simpa [hparse] using hany

/-! ## A whole pass -/

theorem follows_visit {p p' : Pass κ} (h : p.Follows drop p') :
    ({ p with visitedNodes := p.visitedNodes + 1 } : Pass κ).Follows drop
      { p' with visitedNodes := p'.visitedNodes + 1 } :=
  { h with visitedNodes := congrArg (· + 1) h.visitedNodes }

theorem follows_compileText (t : View κ) {p p' : Pass κ} (h : p.Follows drop p') :
    (c.compileText (View.without drop t) p').1 = View.without drop (c.compileText t p).1 ∧
      (c.compileText t p).2.Follows drop (c.compileText (View.without drop t) p').2 := by
  obtain ⟨hmarker, hview, hwiring⟩ := h.wiring.bindMarker c.store c.options.delimiters t
  refine ⟨hview, hwiring, h.visitedNodes, h.bindings, ?_⟩
  simp only [compileText, hmarker, h.interpolations]

/-- Directives that do not bind keep no pass from going below their element (`seals`). -/
theorem seals_without {id : NodeId} {n : Node κ} {ns : List (NodeId × Node κ)}
    (hdrop : c.OnlyUnbound drop ns) (hn : (id, n) ∈ ns) :
    c.seals (n.without (drop id)) = c.seals n := by
  rw [seals, seals, Node.directives_without, List.any_filter, Bool.eq_iff_iff, List.any_eq_true,
    List.any_eq_true]
  refine exists_congr fun d => and_congr_right fun hd => ?_
  cases hlost : drop id d.attribute with
  | false => simp
  | true =>
    have hbinds := hdrop.binds_eq_false hn hd hlost
    simp [replaces_eq_false hbinds, ownsContent_eq_false hbinds]

mutual

/-- A pass over a node, and over the node without some attributes: views and wirings follow (`Follows`). -/
theorem follows_compileNode (hbuiltin : c.registry.Builtin) : ∀ (t : View κ) {p p' : Pass κ},
    c.OnlyUnbound drop t.nodes → p.wiring.stores.Hold c.store data → p.Follows drop p' →
      (c.compileNode (View.without drop t) p').1 = View.without drop (c.compileNode t p).1 ∧
        (c.compileNode t p).2.Follows drop (c.compileNode (View.without drop t) p').2
  | .node id n row, p, p', hdrop, hhold, h => by
    rw [Tree.nodes] at hdrop
    have hhold' : p'.wiring.stores.Hold c.store data := h.wiring.stores ▸ hhold
    have hseals := seals_without hdrop List.mem_cons_self
    cases hn : n.isElement with
    | false =>
      have htext := follows_compileText (c := c) (.node id n row) (follows_visit h)
      rw [View.without_node] at htext ⊢
      rw [compileNode_text hn, compileNode_text ((Node.isElement_without _ _).trans hn)]
      exact htext
    | true =>
      have hn' := (Node.isElement_without (drop id) n).trans hn
      have he : (c.enter id n row p).Follows drop
          (c.enter id (n.without (drop id)) (View.rowWithout drop row) p') := by
        rw [enter, enter, Node.directives_without]
        refine follows_dispatchAll hbuiltin _ (fun d hd hlost => ?_)
          ⟨(View.without_node drop id n row).symm, rfl, rfl, rfl, follows_visit h⟩
        exact hdrop.binds_eq_false List.mem_cons_self hd hlost
      rw [View.without_node]
      cases hsealed : c.seals n with
      | true =>
        rw [compileNode_sealed hbuiltin hn hhold hsealed,
          compileNode_sealed hbuiltin hn' hhold' (hseals.trans hsealed)]
        exact ⟨he.view, he.pass⟩
      | false =>
        rw [compileNode_open hbuiltin hn hhold hsealed,
          compileNode_open hbuiltin hn' hhold' (hseals.trans hsealed)]
        obtain ⟨hrow, hpass⟩ := follows_compileRow hbuiltin row
          (fun x hx => hdrop x (List.mem_cons_of_mem _ hx)) (hold_enter id n row hhold) he.pass
        refine ⟨?_, hpass⟩
        rw [View.without_mapChildren, he.view, hrow]

/-- A pass over a row, and over the row without some attributes. -/
theorem follows_compileRow (hbuiltin : c.registry.Builtin) : ∀ (row : Forest (Node κ))
    {p p' : Pass κ}, c.OnlyUnbound drop row.nodes → p.wiring.stores.Hold c.store data →
      p.Follows drop p' →
      (c.compileRow (View.rowWithout drop row) p').1 =
          View.rowWithout drop (c.compileRow row p).1 ∧
        (c.compileRow row p).2.Follows drop (c.compileRow (View.rowWithout drop row) p').2
  | [], p, p', _, _, h => by
    rw [View.rowWithout_nil, compileRow, compileRow]
    exact ⟨(View.rowWithout_nil drop).symm, h⟩
  | t :: ts, p, p', hdrop, hhold, h => by
    rw [Forest.nodes] at hdrop
    obtain ⟨hview, hpass⟩ := follows_compileNode hbuiltin t
      (fun x hx => hdrop x (List.mem_append_left _ hx)) hhold h
    obtain ⟨hrow, hrest⟩ := follows_compileRow hbuiltin ts
      (fun x hx => hdrop x (List.mem_append_right _ hx))
      ((c.advances_compileNode t p).stores.hold hhold) hpass
    rw [View.rowWithout_cons, compileRow, compileRow, View.rowWithout_cons]
    exact ⟨congrArg₂ List.cons hview hrow, hrest⟩

end

/-! ## What is found -/

/-- The findings of a pass over a row (`finding?`), each with the node and the directive that it is about.
-/
def findings (c : Compiler κ) (data : String → Option Value) (row : Forest (Node κ)) :
    List (NodeId × Directive × Diagnostic) :=
  (c.itineraryRow row).flatMap fun stop =>
    stop.dispatched.filterMap fun d => (c.finding? data d).map fun f => (stop.node, d, f)

theorem diagnostics_tally_eq_findings (row : Forest (Node κ)) :
    (c.tally data (c.itineraryRow row)).diagnostics =
      (c.findings data row).map fun x => x.2.2 := by
  rw [tally, findings]
  simp only [List.map_flatMap, List.filterMap_flatMap, List.map_filterMap, Option.map_map]
  refine List.flatMap_congr fun stop _ => List.filterMap_congr fun d _ => ?_
  cases c.finding? data d <;> rfl

theorem upToReplacing_filter {lost : Directive → Bool} (ds : List Directive)
    (hlost : ∀ d ∈ ds, lost d = true → c.replaces d = false) :
    c.upToReplacing (ds.filter fun d => !lost d) = (c.upToReplacing ds).filter fun d => !lost d := by
  induction ds with
  | nil => rfl
  | cons d ds ih =>
    have hrest := ih fun b hb => hlost b (List.mem_cons_of_mem d hb)
    rw [upToReplacing]
    cases hd : lost d with
    | true =>
      have hstays := hlost d List.mem_cons_self hd
      rw [List.filter_cons_of_neg (by simp [hd]), List.filter_cons_of_neg (by simp [hd]),
        if_neg (by simp [hstays]), hrest]
    | false =>
      rw [List.filter_cons_of_pos (by simp [hd]), List.filter_cons_of_pos (by simp [hd]),
        upToReplacing]
      split
      · rfl
      · rw [hrest]

end Compiler

/-- The stop at a node without some attributes. -/
def Stop.without (drop : NodeId → Attribute → Bool) (stop : Stop κ) : Stop κ :=
  ⟨stop.node, stop.val.without (drop stop.node),
    stop.dispatched.filter fun d => !drop stop.node d.attribute⟩

namespace Compiler

variable {c : Compiler κ} {drop : NodeId → Attribute → Bool} {data : String → Option Value}

theorem stopAt_without {id : NodeId} {n : Node κ} {ns : List (NodeId × Node κ)}
    (hdrop : c.OnlyUnbound drop ns) (hn : (id, n) ∈ ns) :
    c.stopAt id (n.without (drop id)) = (c.stopAt id n).without drop := by
  rw [stopAt, Node.directives_without, upToReplacing_filter _ fun d hd hlost =>
    replaces_eq_false (hdrop.binds_eq_false hn hd hlost)]
  rfl

mutual

theorem itinerary_without : ∀ {t : View κ}, c.OnlyUnbound drop t.nodes →
    c.itinerary (View.without drop t) = (c.itinerary t).map (Stop.without drop)
  | .node id n row, hdrop => by
    rw [Tree.nodes] at hdrop
    have hrow := itineraryRow_without fun x hx => hdrop x (List.mem_cons_of_mem _ hx)
    rw [View.without_node, itinerary, itinerary, stopAt_without hdrop List.mem_cons_self,
      seals_without hdrop List.mem_cons_self, Node.isElement_without, List.map_cons, hrow]
    split <;> rfl

/-- A pass goes the same way over a row without some attributes (`itineraryRow`). -/
theorem itineraryRow_without : ∀ {row : Forest (Node κ)}, c.OnlyUnbound drop row.nodes →
    c.itineraryRow (View.rowWithout drop row) = (c.itineraryRow row).map (Stop.without drop)
  | [], _ => by rw [View.rowWithout_nil, itineraryRow, List.map_nil]
  | t :: ts, hdrop => by
    rw [Forest.nodes] at hdrop
    rw [View.rowWithout_cons, itineraryRow, itineraryRow, List.map_append,
      itinerary_without fun x hx => hdrop x (List.mem_append_left _ hx),
      itineraryRow_without fun x hx => hdrop x (List.mem_append_right _ hx)]

end

/-- **Only the findings about what was taken away are missing**, and the others stay in their order
(`findings`). -/
theorem findings_rowWithout {row : Forest (Node κ)} (hdrop : c.OnlyUnbound drop row.nodes) :
    c.findings data (View.rowWithout drop row) =
      (c.findings data row).filter fun x => !drop x.1 x.2.1.attribute := by
  rw [findings, itineraryRow_without hdrop, findings, List.flatMap_map, List.filter_flatMap]
  refine List.flatMap_congr fun stop _ => ?_
  rw [Stop.without, List.filterMap_filter, List.filter_filterMap]
  refine List.filterMap_congr fun d _ => ?_
  cases c.finding? data d with
  | none => simp
  | some f => simp [Option.filter]

end Compiler

/-! ## The command -/

namespace Session

/-- The session without some attributes of its nodes (`View.rowWithout`). -/
def without (s : Session) (drop : NodeId → Attribute → Bool) : Session :=
  s.changeForest (View.rowWithout drop)

theorem view?_without {s : Session} {name : String} {t : View Client} (ht : s.view? name = some t)
    (drop : NodeId → Attribute → Bool) :
    (s.without drop).view? name = some (View.without drop t) := by
  obtain ⟨hname, hfound⟩ := view?_eq_some ht
  have hnames : (s.without drop).nodes.get? name = some t.id := hname
  rw [view?, hnames, Option.bind_some]
  exact (View.find?_rowWithout drop t.id s.world.forest).trans (by rw [hfound, Option.map_some])

/-- Attributes may be taken away before or after a view is put in its place (`World.settle`). -/
theorem without_settle {s : Session} {drop : NodeId → Attribute → Bool} {t : View Client}
    {row row' : Forest (Node Client)} {w w' : Wiring Client} (hw : w.Follows drop w')
    (hrow : row' = View.rowWithout drop row) :
    { s.without drop with
      world := (s.without drop).world.settle (View.without drop t).id
        ((View.without drop t).mapChildren fun _ => row') w' } =
      { s with world := s.world.settle t.id (t.mapChildren fun _ => row) w }.without drop := by
  simp only [without, changeForest, World.settle, View.rowWithout_append, View.rowWithout_expand,
    View.without_mapChildren, View.id_without, hrow, hw.stores, hw.next, hw.removed]

/-- **Directives that cannot be bound are inert.**  Take any session that can be reached and a view
the root of which is an element, and take away, anywhere below the root, attributes that are
directives which do not bind: no strategy is registered for them, or they are to let a method hear an
event and name no event or no method that is there.  Compiling the view with valid options and builtin
strategies succeeds before and after.  The pass meets and binds as many nodes, and what comes of it is
the same but for the attributes that are not there: the stores with all their subscriptions, the
guards and listeners of every node, the texts, the value fields and the tree.  Its findings are those
of the other pass, in order, without the ones about what was taken away. -/
theorem unbindable_directives_are_inert {model : Value} {methods : List (String × Client)}
    {s : Session} (hreachable : Moves (start model methods) s) {name : String} {t : View Client}
    {options : Options} {registry : Registry} {st : Store Client} (ht : s.view? name = some t)
    (hroot : t.val.isElement = true) (hvalid : options.flaw? = none)
    (hbuiltin : registry.Builtin) (hst : s.world.stores[s.store]? = some st)
    {drop : NodeId → Attribute → Bool}
    (hbelow : ∀ i a, drop i a = true → i ∈ Forest.ids t.children)
    (hunbound : (s.compiler options registry).OnlyUnbound drop (Forest.nodes t.children)) :
    let c := s.compiler options registry
    let found := c.findings st.get? t.children
    ∃ r r' u,
      s.bind (.compile name options registry) = (.report r, u) ∧
      (s.without drop).bind (.compile name options registry) = (.report r', u.without drop) ∧
      r'.visitedNodes = r.visitedNodes ∧ r'.bindings = r.bindings ∧
      r'.interpolations = r.interpolations ∧
      r.diagnostics = found.map (fun x => x.2.2) ∧
      r'.diagnostics =
        (found.filter fun x => !drop x.1 x.2.1.attribute).map (fun x => x.2.2) := by
  intro c found
  have haccounted := hreachable.accounted.world
  have hfound := (view?_eq_some ht).2
  have hhold : s.world.wiring.stores.Hold c.store st.get? := ⟨st, hst, fun _ => rfl⟩
  have hinside : Forest.ids t.children ⊆ Forest.ids s.world.forest := fun i hi => by
    refine Forest.ids_subset_of_find? haccounted.distinct hfound ?_
    obtain ⟨id, n, row⟩ := t
    rw [Tree.ids_node]
    exact List.mem_cons_of_mem id hi
  have hnew : ∀ i, s.world.next ≤ i → ∀ a, drop i a = false := fun i hi a => by
    by_contra hlost
    have hin := hinside (hbelow i a (Bool.not_eq_false _ ▸ hlost))
    exact absurd (haccounted.lt_next hin) (Nat.not_lt.2 hi)
  have hstart : ({ wiring := s.world.wiring } : Pass Client).Follows drop
      { wiring := (s.without drop).world.wiring } :=
    ⟨⟨rfl, rfl, (View.rowWithout_nil drop).symm, hnew⟩, rfl, rfl, rfl⟩
  obtain ⟨hrow, hpass⟩ := Compiler.follows_compileRow hbuiltin t.children hunbound hhold hstart
  have ht' := view?_without ht drop
  have hroot' : (View.without drop t).val.isElement = true := by
    rw [View.val_without, Node.isElement_without, hroot]
  obtain ⟨r, hbind⟩ := bind_compile registry ht hroot hvalid
  obtain ⟨r', hbind'⟩ := bind_compile registry ht' hroot' hvalid
  have hr := report_bind_compile ht hbind
  have hr' := report_bind_compile ht' hbind'
  rw [View.children_without] at hr' hbind'
  refine ⟨r, r', _, hbind, ?_, ?_, ?_, ?_, ?_, ?_⟩
  · exact hbind'.trans (congrArg (Prod.mk _) (without_settle hpass.wiring hrow))
  · rw [hr, hr']
    exact hpass.visitedNodes
  · rw [hr, hr']
    exact hpass.bindings
  · rw [hr, hr']
    exact hpass.interpolations
  · rw [hr, Compiler.report_compileRow hbuiltin _ _ hhold,
      ← Compiler.diagnostics_tally_eq_findings]
    rfl
  · have hfindings : c.findings st.get? (View.rowWithout drop t.children) =
        found.filter fun x => !drop x.1 x.2.1.attribute := Compiler.findings_rowWithout hunbound
    rw [hr', Compiler.report_compileRow hbuiltin _ _ hhold, ← hfindings,
      ← Compiler.diagnostics_tally_eq_findings]
    rfl

/-- A view with directives that bind and others that do not, some of them on one element. -/
def someUnbound : List Action :=
  [.command (.handle (.build "root" (.element "div" []
    [.element "p" [⟨"v-nope", "x"⟩, ⟨"v-model", "name"⟩, ⟨"v-on", "save"⟩, ⟨"v-text", "name"⟩] [],
      .element "button" [⟨"v-on:click", "lost"⟩, ⟨"title", "Go"⟩] [.text "\x7b\x7b name \x7d\x7d"]])))]

/-- Two of the three directives in `someUnbound` that do not bind. -/
def twoUnbound (i : NodeId) (a : Attribute) : Bool :=
  (i == 1 && a.name == "v-nope") || (i == 2 && a.name == "v-on:click")

theorem two_unbound_were_inert :
    let s := (start (.ofMembers [("name", .string "Ada")]) []).runs someUnbound
    let compile := fun s : Session => s.bind (.compile "root" {} .standard)
    ∃ r r' u, compile s = (.report r, u) ∧
      compile (s.without twoUnbound) = (.report r', u.without twoUnbound) ∧ r'.bindings = r.bindings ∧ r.diagnostics.length = 3 ∧ r'.diagnostics.length = 1 := by
  intro s compile
  have hreachable : Moves _ s := moves_runs _ someUnbound
  have ht : s.view? "root" = some _ := rfl
  have hst : s.world.stores[s.store]? = some _ := rfl
  have hvalid : ({} : Options).flaw? = none := rfl
  have hbelow : ∀ i a, twoUnbound i a = true → i = 1 ∨ i = 2 := by
    intro i a h
    simp only [twoUnbound, Bool.or_eq_true, Bool.and_eq_true, beq_iff_eq] at h
    exact h.imp (fun h => h.1) (fun h => h.1)
  obtain ⟨r, r', u, hbind, hbind', -, hbindings, -, hfound, hfound'⟩ :=
    unbindable_directives_are_inert hreachable ht rfl hvalid Registry.builtin_standard hst
      (fun i a h => by rcases hbelow i a h with rfl | rfl <;> decide +kernel) (by
        unfold Compiler.OnlyUnbound
        decide +kernel)
  refine ⟨r, r', u, hbind, hbind', hbindings, ?_, ?_⟩
  · rw [hfound]
    decide +kernel
  · rw [hfound']
    decide +kernel

end Session

end ViewBinding
