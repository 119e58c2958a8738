import ViewBinding.Proofs.Compile.Rendering

/-!
# Where a compile pass stops

A pass takes its way through a view while it changes it: contents are written and nodes replaced
under its feet.  Still the way can be read off the view as it was before.  `Compiler.itinerary` lists
the stops of a pass by a recursion on the view alone, each with the directives that are dispatched
there.

* `dispatch_answers` — what comes of a directive depends on the registry, the methods and the value,
  and not on the view.
* `itineraryRow_eq_filter` — the itinerary is made of the nodes above none of which content is
  sealed, in document order.
* `report_compileRow` — what a pass reports is the tally of its itinerary.
-/

namespace ViewBinding

open Json (Value)

/-! ## Nodes with what is above them -/

mutual

/-- The nodes of a tree in document order, each with the values of the nodes above it; `above` stand
above the tree. -/
def Tree.lineage {α : Type} (above : List α) : Tree α → List (List α × Nat × α)
  | .node n a ts => (above, n, a) :: Forest.lineage (a :: above) ts

/-- The nodes of a forest in document order, each with the values of the nodes above it. -/
def Forest.lineage {α : Type} (above : List α) : Forest α → List (List α × Nat × α)
  | [] => []
  | t :: ts => Tree.lineage above t ++ Forest.lineage above ts

end

mutual

theorem Tree.lineage_nodes {α : Type} (above : List α) : ∀ t : Tree α,
    (Tree.lineage above t).map (fun x => x.2) = t.nodes
  | .node n a ts => by
    rw [Tree.lineage, Tree.nodes, List.map_cons, Forest.lineage_nodes (a :: above) ts]

/-- Every node is listed once in a `lineage`, with what is above it. -/
theorem Forest.lineage_nodes {α : Type} (above : List α) : ∀ ts : Forest α,
    (Forest.lineage above ts).map (fun x => x.2) = Forest.nodes ts
  | [] => by rw [Forest.lineage, Forest.nodes, List.map_nil]
  | t :: ts => by
    rw [Forest.lineage, Forest.nodes, List.map_append, Tree.lineage_nodes above t,
      Forest.lineage_nodes above ts]

end

mutual

/-- What stands above a tree stands above all its nodes. -/
theorem Tree.above_of_mem_lineage {α : Type} {above : List α} : ∀ {t : Tree α},
    ∀ x ∈ Tree.lineage above t, ∀ a ∈ above, a ∈ x.1
  | .node n b ts, x, hx, a, ha => by
    rw [Tree.lineage, List.mem_cons] at hx
    rcases hx with rfl | hx
    · exact ha
    · exact Forest.above_of_mem_lineage x hx a (List.mem_cons_of_mem b ha)

theorem Forest.above_of_mem_lineage {α : Type} {above : List α} : ∀ {ts : Forest α},
    ∀ x ∈ Forest.lineage above ts, ∀ a ∈ above, a ∈ x.1
  | [], x, hx, _, _ => by simp [Forest.lineage] at hx
  | t :: ts, x, hx, a, ha => by
    rw [Forest.lineage, List.mem_append] at hx
    exact hx.elim (fun hx => Tree.above_of_mem_lineage x hx a ha)
      (fun hx => Forest.above_of_mem_lineage x hx a ha)

end

/-! ## Stops -/

/-- A stop of a pass: a node as it is met, and the directives that are dispatched on it, in this order. -/
structure Stop (κ : Type) where
  node : NodeId
  val : Node κ
  dispatched : List Directive

/-- Whether a stop is at a text with a marker to bind (`bind_text`). -/
def Stop.interpolates {κ : Type} (delimiters : String × String) (stop : Stop κ) : Bool :=
  (stop.val.payload?.bind (Marker.find? delimiters)).isSome

namespace Compiler

variable {κ : Type} (c : Compiler κ)

/-- Whether a directive on a node keeps the pass from going below it: it `replaces` the element or
`ownsContent`. -/
def seals (n : Node κ) : Bool :=
  (n.directives c.options).any fun d => c.replaces d || c.ownsContent d

/-- Some directives up to and including the first that replaces the element (`replaces`). -/
def upToReplacing : List Directive → List Directive
  | [] => []
  | d :: ds => d :: if c.replaces d then [] else upToReplacing ds

/-- The stop at a node, with the directives `upToReplacing`. -/
def stopAt (id : NodeId) (n : Node κ) : Stop κ :=
  ⟨id, n, c.upToReplacing (n.directives c.options)⟩

mutual

/-- The stops of a pass at a node and below it, unless the node `seals` its content. -/
def itinerary : View κ → List (Stop κ)
  | .node id n row =>
    c.stopAt id n :: if n.isElement && !c.seals n then itineraryRow row else []

/-- The stops of a pass over a row. -/
def itineraryRow : Forest (Node κ) → List (Stop κ)
  | [] => []
  | t :: ts => itinerary t ++ itineraryRow ts

end

mutual

theorem itinerary_eq_filter {above : List (Node κ)} (habove : above.any c.seals = false) :
    ∀ {t : View κ}, t.bare = true → c.itinerary t =
      ((Tree.lineage above t).filter fun x => !x.1.any c.seals).map fun x => c.stopAt x.2.1 x.2.2
  | .node id n row, hbare => by
    rw [View.bare_node, Bool.and_eq_true] at hbare
    rw [itinerary, Tree.lineage, List.filter_cons_of_pos (by simp [habove]), List.map_cons]
    congr 1
    cases hseals : c.seals n with
    | true =>
      -- the node stands above everything below it
      have hnone : (Forest.lineage (n :: above) row).filter (fun x => !x.1.any c.seals) = [] := by
        rw [List.filter_eq_nil_iff]
        intro x hx
        have hany : x.1.any c.seals = true :=
          List.any_eq_true.2 ⟨n, Forest.above_of_mem_lineage x hx n List.mem_cons_self, hseals⟩
        simp [hany]
      rw [hnone]
      simp
    | false =>
      have hthrough : (n :: above).any c.seals = false := by simp [hseals, habove]
      have hbelow := itineraryRow_eq_filter hthrough hbare.2
      cases hn : n.isElement with
      | true => simpa using hbelow
      | false =>
        have hrow : row = [] := by simpa [hn] using hbare.1
        rw [hrow]
        rfl

/-- Where nothing stands below a text (`bareRow`), a pass stops at the nodes above none of which the
content is sealed, in document order. -/
theorem itineraryRow_eq_filter {above : List (Node κ)} (habove : above.any c.seals = false) :
    ∀ {row : Forest (Node κ)}, View.bareRow row = true → c.itineraryRow row =
      ((Forest.lineage above row).filter fun x => !x.1.any c.seals).map fun x => c.stopAt x.2.1 x.2.2
  | [], _ => by rw [itineraryRow, Forest.lineage, List.filter_nil, List.map_nil]
  | t :: ts, hbare => by
    rw [View.bareRow_cons, Bool.and_eq_true] at hbare
    rw [itineraryRow, Forest.lineage, List.filter_append, List.map_append,
      itinerary_eq_filter habove hbare.1, itineraryRow_eq_filter habove hbare.2]

end

/-! ## The tally -/

/-- Whether a directive injects its markup as text (`Injected.fallback`). -/
def fallsBack (data : String → Option Value) (d : Directive) : Bool :=
  c.replaces d && (Injected.ofText (Value.display (data d.key)) c.options.markupWrapper).fallback

/-- The finding about a directive: one if it does not bind (`complaint`), or if its markup is injected as
text. -/
def finding? (data : String → Option Value) (d : Directive) : Option Diagnostic :=
  if c.binds d then
    if c.fallsBack data d then some (.markupFallback d.name d.key) else none
  else some (c.complaint d)

/-- What a pass with the given stops is to report (`CompileReport`). -/
def tally (data : String → Option Value) (stops : List (Stop κ)) : Report :=
  let dispatched := stops.flatMap (·.dispatched)
  { visitedNodes := stops.length
    bindings := dispatched.countP c.binds
    interpolations := stops.countP (·.interpolates c.options.delimiters)
    diagnostics := dispatched.filterMap (c.finding? data) }

end Compiler

/-- What is reported of one part of a pass and then of another. -/
def Report.add (a b : Report) : Report :=
  { visitedNodes := a.visitedNodes + b.visitedNodes
    bindings := a.bindings + b.bindings
    interpolations := a.interpolations + b.interpolations
    diagnostics := a.diagnostics ++ b.diagnostics }

theorem Report.add_assoc (a b d : Report) : (a.add b).add d = a.add (b.add d) := by
  simp [add, Nat.add_assoc]

/-- What a pass has to report so far (`CompileReport`). -/
def Pass.report {κ : Type} (p : Pass κ) : Report :=
  ⟨p.visitedNodes, p.bindings, p.interpolations, p.wiring.diagnostics⟩

theorem Compiler.tally_append {κ : Type} (c : Compiler κ) (data : String → Option Value)
    (a b : List (Stop κ)) : c.tally data (a ++ b) = (c.tally data a).add (c.tally data b) := by
  simp [tally, Report.add]

/-! ## Findings -/

namespace Wiring

variable {κ : Type}

@[simp] theorem diagnostics_watch (w : Wiring κ) (store : StoreId) (key : String)
    (observer : Observer κ) (t : View κ) :
    (w.watch store key observer t).2.diagnostics = w.diagnostics := by
  unfold watch
  split <;> rfl

@[simp] theorem diagnostics_discard (w : Wiring κ) (t : View κ) :
    (w.discard t).diagnostics = w.diagnostics := rfl

@[simp] theorem diagnostics_discardAll (row : Forest (Node κ)) (w : Wiring κ) :
    (w.discardAll row).diagnostics = w.diagnostics := by
  induction row generalizing w with
  | nil => rfl
  | cons t ts ih => exact ih (w.discard t)

@[simp] theorem diagnostics_writeText (w : Wiring κ) (text : String) (t : View κ) :
    (w.writeText text t).2.2.diagnostics = w.diagnostics :=
  diagnostics_discardAll _ { w with next := w.next + 1 }

@[simp] theorem diagnostics_bindMarker (w : Wiring κ) (store : StoreId)
    (delimiters : String × String) (t : View κ) :
    (w.bindMarker store delimiters t).2.2.diagnostics = w.diagnostics := by
  unfold bindMarker
  split
  · rfl
  · split
    · rfl
    · exact w.diagnostics_watch _ _ _ _

/-- Which marker is bound is a matter of the text alone (`Marker.find?`). -/
theorem marker_bindMarker (w : Wiring κ) (store : StoreId) (delimiters : String × String)
    (t : View κ) :
    (w.bindMarker store delimiters t).1 = t.val.payload?.bind (Marker.find? delimiters) := by
  unfold bindMarker
  split
  · next h => rw [h, Option.bind_none]
  · next template h =>
    rw [h, Option.bind_some]
    split
    · next hm => rw [hm]
    · next marker hm => rw [hm]

end Wiring

/-! ## One element -/

namespace Compiler

variable {κ : Type} {c : Compiler κ} {data : String → Option Value}

/-- What dispatching a directive is seen to do, whatever the view: its outcome, its findings, and when
it replaces the children. -/
structure Answers (c : Compiler κ) (data : String → Option Value) (d : Directive) (w : Wiring κ)
    (a : Applied κ) : Prop where
  detached : a.outcome = .detached ↔ c.replaces d = true
  owned : a.outcome = .boundContent ↔ c.ownsContent d = true
  skipped : a.outcome = .skipped ↔ c.binds d = false
  replaced : a.replaced = true → (c.replaces d || c.ownsContent d) = true
  diagnostics : a.wiring.diagnostics = w.diagnostics ++ (c.finding? data d).toList

/-- **One directive.** Outcome and findings of a directive below a root do not depend on the view
(`Answers`). -/
theorem dispatch_answers (hbuiltin : c.registry.Builtin) (d : Directive) (t : View κ)
    {w : Wiring κ} (hhold : w.stores.Hold c.store data) :
    Answers c data d w (c.dispatch d true t w) := by
  have hshown : Value.display (w.stores.value? c.store d.key) = Value.display (data d.key) := by
    rw [hhold.value?_eq]
  cases handled hbuiltin d with
  | unbound hd =>
    rw [dispatch_unbound hd]
    constructor <;> simp [replaces_eq_false hd, ownsContent_eq_false hd, finding?, hd, Wiring.report]
  | text hs =>
    rw [dispatch_text hs hshown]
    constructor <;> simp [replaces, ownsContent, hs, finding?, binds_of_text hs, fallsBack]
  | value hs =>
    rw [dispatch_value hs hshown]
    constructor <;> simp [replaces, ownsContent, hs, finding?, binds_of_value hs, fallsBack]
  | method hs hevent hcode =>
    rw [dispatch_method hs hevent hcode]
    constructor <;>
      simp [replaces, ownsContent, hs, finding?, binds_of_method hs hevent hcode, fallsBack]
  | markup hs =>
    have hbinds := binds_of_markup hs
    have hreplaces : c.replaces d = true := by simp [replaces, hs]
    rw [dispatch_markup hs (congrArg (Injected.ofText · c.options.markupWrapper) hshown) rfl]
    constructor
    · simp [hreplaces]
    · simp [ownsContent, hs]
    · simp [hbinds]
    · simp [hreplaces]
    · simp only [finding?, hbinds, if_true, fallsBack, hreplaces, Bool.true_and,
        Wiring.diagnostics_discard]
      split <;> simp_all [Wiring.report]

/-- What is reported of some directives that are dispatched (`finding?`). -/
def tallyOf (c : Compiler κ) (data : String → Option Value) (ds : List Directive) : Report :=
  { visitedNodes := 0
    bindings := ds.countP c.binds
    interpolations := 0
    diagnostics := ds.filterMap (c.finding? data) }

theorem report_dispatchOn {e : ElementPass κ} {d : Directive}
    (h : Answers c data d e.pass.wiring (c.dispatch d true e.view e.pass.wiring)) :
    (c.dispatchOn e d).pass.report = e.pass.report.add (c.tallyOf data [d]) := by
  have hskipped := h.skipped
  have hdiagnostics := h.diagnostics
  simp only [dispatchOn, Pass.report, Report.add, tallyOf, hskipped, hdiagnostics]
  cases hb : c.binds d <;> cases hf : c.finding? data d <;> simp [hb, hf]

/-- All directives on an element: what is reported (`tallyOf`), and whether the pass goes on below it. -/
theorem dispatchAll_answers (hbuiltin : c.registry.Builtin) (ds : List Directive)
    {e : ElementPass κ} (hgone : e.gone = false) (hhold : e.pass.wiring.stores.Hold c.store data) :
    let after := c.dispatchAll ds e
    after.pass.report = e.pass.report.add (c.tallyOf data (c.upToReplacing ds)) ∧
      (after.gone || after.owned) =
        (e.owned || ds.any fun d => c.replaces d || c.ownsContent d) ∧
      ((after.gone || after.owned) = false → after.replaced = e.replaced) := by
  induction ds generalizing e with
  | nil => simp [dispatchAll, upToReplacing, tallyOf, Report.add, Pass.report, hgone]
  | cons d ds ih =>
    have ha := dispatch_answers hbuiltin d e.view hhold
    have hreport := report_dispatchOn ha
    rw [dispatchAll, if_neg (by simp [hgone]), upToReplacing]
    by_cases hr : c.replaces d = true
    · -- the element is gone, and nothing more is dispatched
      have hdetached : (c.dispatchOn e d).gone = true := by simp [dispatchOn, ha.detached.2 hr]
      have hstop : c.dispatchAll ds (c.dispatchOn e d) = c.dispatchOn e d := by
        cases ds <;> simp [dispatchAll, hdetached]
      simp only [hstop, if_pos hr, hreport, hdetached]
      simp [hr]
    · rw [if_neg hr]
      have hstays : (c.dispatchOn e d).gone = false := by
        have : (c.dispatch d true e.view e.pass.wiring).outcome ≠ .detached :=
          fun hd => hr (ha.detached.1 hd)
        simp [dispatchOn, this]
      have howned : (c.dispatchOn e d).owned = (e.owned || c.ownsContent d) := by
        have hiff := ha.owned
        simp only [dispatchOn]
        cases ho : c.ownsContent d
        · simp_all
        · simp_all
      obtain ⟨hrest, hclosed, hkept⟩ := ih hstays ((c.advances_dispatch d true e.view
        e.pass.wiring).stores.hold hhold)
      refine ⟨?_, ?_, fun hopen => ?_⟩
      · rw [hrest, hreport, Report.add_assoc]
        simp [Report.add, tallyOf, List.countP_cons, Nat.add_comm, List.filterMap_cons]
        cases c.finding? data d <;> rfl
      · simp [hclosed, howned, hr, Bool.or_assoc]
      · have hd : c.ownsContent d = false := by
          rw [hclosed, howned] at hopen
          simp only [Bool.or_eq_false_iff] at hopen
          exact hopen.1.2
        have hnot : (c.dispatch d true e.view e.pass.wiring).replaced = false := by
          have := ha.replaced
          simp only [Bool.not_eq_true] at hr
          simpa [hr, hd] using this
        rw [hkept hopen]
        simp [dispatchOn, hnot]

/-! ## One node -/

theorem directives_of_not_element {n : Node κ} (hn : n.isElement = false) (options : Options) :
    n.directives options = [] := by
  cases hc : n.content with
  | text payload => simp [Node.directives, Node.attributes, hc]
  | element tag attributes field => simp [Node.isElement, hc] at hn

theorem payload?_of_element {n : Node κ} (hn : n.isElement = true) : n.payload? = none := by
  cases hc : n.content with
  | text payload => simp [Node.isElement, hc] at hn
  | element tag attributes field => simp [Node.payload?, hc]

/-- The state of a pass at an element once its directives are dispatched (`dispatchAll`). -/
def enter (c : Compiler κ) (id : NodeId) (n : Node κ) (row : Forest (Node κ)) (p : Pass κ) :
    ElementPass κ :=
  c.dispatchAll (n.directives c.options)
    { view := .node id n row, pass := { p with visitedNodes := p.visitedNodes + 1 } }

variable {id : NodeId} {n : Node κ} {row : Forest (Node κ)} {p : Pass κ}

theorem hold_enter (id : NodeId) (n : Node κ) (row : Forest (Node κ))
    (hhold : p.wiring.stores.Hold c.store data) :
    (c.enter id n row p).pass.wiring.stores.Hold c.store data :=
  (c.advances_dispatchAll (n.directives c.options)
    { view := .node id n row, pass := { p with visitedNodes := p.visitedNodes + 1 } }).stores.hold hhold

/-- Whether a pass goes on below an element is seen from its directives (`seals`). -/
theorem closed_enter (id : NodeId) (n : Node κ) (row : Forest (Node κ))
    (hbuiltin : c.registry.Builtin) (hhold : p.wiring.stores.Hold c.store data) :
    ((c.enter id n row p).gone || (c.enter id n row p).owned) = c.seals n ∧
      (c.seals n = false → (c.enter id n row p).replaced = false) := by
  obtain ⟨-, hclosed, hkept⟩ := dispatchAll_answers hbuiltin (n.directives c.options)
    (e := { view := .node id n row, pass := { p with visitedNodes := p.visitedNodes + 1 } }) rfl hhold
  rw [Bool.false_or] at hclosed
  exact ⟨hclosed, fun hopen => hkept (hclosed.trans hopen)⟩

theorem compileNode_text (hn : n.isElement = false) :
    c.compileNode (.node id n row) p =
      c.compileText (.node id n row) { p with visitedNodes := p.visitedNodes + 1 } := by
  rw [compileNode, if_pos (by simp [hn])]

/-- A pass does not go below an element the content of which is sealed (`seals`). -/
theorem compileNode_sealed (hbuiltin : c.registry.Builtin) (hn : n.isElement = true)
    (hhold : p.wiring.stores.Hold c.store data) (hsealed : c.seals n = true) :
    c.compileNode (.node id n row) p =
      ((c.enter id n row p).view, (c.enter id n row p).pass) := by
  have hclosed := (closed_enter id n row hbuiltin hhold).1
  rw [compileNode, if_neg (by simp [hn])]
  exact if_pos (hclosed.trans hsealed)

/-- Below any other element a pass meets what stood there before. -/
theorem compileNode_open (hbuiltin : c.registry.Builtin) (hn : n.isElement = true)
    (hhold : p.wiring.stores.Hold c.store data) (hopen : c.seals n = false) :
    c.compileNode (.node id n row) p =
      ((c.enter id n row p).view.mapChildren fun _ =>
          (c.compileRow row (c.enter id n row p).pass).1,
        (c.compileRow row (c.enter id n row p).pass).2) := by
  obtain ⟨hclosed, hkept⟩ := closed_enter id n row hbuiltin hhold
  rw [compileNode, if_neg (by simp [hn])]
  refine (if_neg (Bool.not_eq_true _ ▸ hclosed.trans hopen)).trans ?_
  rw [if_neg (Bool.not_eq_true _ ▸ hkept hopen)]
  rfl

/-! ## What is reported -/

theorem report_compileText (t : View κ) (p : Pass κ) :
    (c.compileText t p).2.report = p.report.add
      ⟨0, 0, if (t.val.payload?.bind (Marker.find? c.options.delimiters)).isSome then 1 else 0, []⟩ := by
  have hmarker := p.wiring.marker_bindMarker c.store c.options.delimiters t
  simp [compileText, Pass.report, Report.add, hmarker]

theorem report_enter (id : NodeId) (row : Forest (Node κ)) (hbuiltin : c.registry.Builtin)
    (hn : n.isElement = true) (hhold : p.wiring.stores.Hold c.store data) :
    (c.enter id n row p).pass.report = p.report.add (c.tally data [c.stopAt id n]) := by
  obtain ⟨hreport, -⟩ := dispatchAll_answers hbuiltin (n.directives c.options)
    (e := { view := .node id n row, pass := { p with visitedNodes := p.visitedNodes + 1 } }) rfl hhold
  rw [enter, hreport]
  simp [Report.add, Pass.report, tally, tallyOf, stopAt, Stop.interpolates, payload?_of_element hn]

mutual

theorem report_compileNode (hbuiltin : c.registry.Builtin) : ∀ (t : View κ) (p : Pass κ),
    p.wiring.stores.Hold c.store data →
      (c.compileNode t p).2.report = p.report.add (c.tally data (c.itinerary t))
  | .node id n row, p, hhold => by
    rw [itinerary]
    cases hn : n.isElement with
    | false =>
      rw [compileNode_text hn, report_compileText, stopAt, directives_of_not_element hn]
      simp only [Report.add, Pass.report, tally, Tree.val, upToReplacing, List.flatMap_cons,
        List.flatMap_nil, List.append_nil, List.countP_singleton, List.countP_nil,
        List.filterMap_nil, Nat.add_zero, Bool.false_and, Bool.false_eq_true, if_false]
      rfl
    | true =>
      have hhere := report_enter id row hbuiltin hn hhold
      cases hseals : c.seals n with
      | true =>
        rw [compileNode_sealed hbuiltin hn hhold hseals, hhere]
        rfl
      | false =>
        rw [compileNode_open hbuiltin hn hhold hseals,
          report_compileRow hbuiltin row _ (hold_enter id n row hhold), hhere, Report.add_assoc,
          ← tally_append]
        rfl

/-- What a pass over a row reports is the `tally` of its itinerary. -/
theorem report_compileRow (hbuiltin : c.registry.Builtin) : ∀ (row : Forest (Node κ)) (p : Pass κ),
    p.wiring.stores.Hold c.store data →
      (c.compileRow row p).2.report = p.report.add (c.tally data (c.itineraryRow row))
  | [], p, _ => by
    rw [compileRow, itineraryRow]
    simp [Report.add, Pass.report, tally]
  | t :: ts, p, hhold => by
    rw [compileRow, itineraryRow, tally_append, ← Report.add_assoc]
    rw [← report_compileNode hbuiltin t p hhold]
    exact report_compileRow hbuiltin ts _ ((c.advances_compileNode t p).stores.hold hhold)

end

end Compiler

end ViewBinding
