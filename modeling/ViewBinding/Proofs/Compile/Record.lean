import ViewBinding.Proofs.Compile.Itinerary

/-!
# A pass that keeps a record

`Compiler.recordRow` is the compile pass with a record: a stop for every node that it meets, with the
directives that it dispatches there.  Keeping a record changes nothing, and with builtin strategies
the record is the itinerary, which is known before the pass.

* `recordRow_eq` — a pass that keeps a record is the pass that keeps none.
* `stops_recordRow` — with builtin strategies, the record is the itinerary.
* `report_accounts` — the report of the command to compile is the tally of its record.
-/

namespace ViewBinding

open Json (Value)

/-! ## The pass with a record -/

namespace Compiler

variable {κ : Type} (c : Compiler κ)

/-- `dispatchAll`, with the directives that are dispatched. -/
def recordAll : List Directive → ElementPass κ → ElementPass κ × List Directive
  | [], e => (e, [])
  | d :: ds, e =>
    if e.gone then (e, [])
    else
      let (e, rest) := recordAll ds (c.dispatchOn e d)
      (e, d :: rest)

/-- `compileWritten`, with the stops that are made. -/
def recordWritten : Forest (Node κ) → Pass κ → (Forest (Node κ) × Pass κ) × List (Stop κ)
  | [], p => (([], p), [])
  | .node id n row :: ts, p =>
    let (t, p) := c.compileText (.node id n row) { p with visitedNodes := p.visitedNodes + 1 }
    let ((ts, p), stops) := recordWritten ts p
    ((t :: ts, p), ⟨id, n, []⟩ :: stops)

mutual

/-- `compileNode`, with the stops that are made. -/
def recordNode : View κ → Pass κ → (View κ × Pass κ) × List (Stop κ)
  | .node id n row, p =>
    let p := { p with visitedNodes := p.visitedNodes + 1 }
    if !n.isElement then (c.compileText (.node id n row) p, [⟨id, n, []⟩])
    else
      let (e, dispatched) := c.recordAll (n.directives c.options)
        { view := .node id n row, pass := p }
      if e.gone || e.owned then ((e.view, e.pass), [⟨id, n, dispatched⟩])
      else
        let ((row, p), stops) :=
          if e.replaced then c.recordWritten e.view.children e.pass
          else recordRow row e.pass
        ((e.view.mapChildren fun _ => row, p), ⟨id, n, dispatched⟩ :: stops)

/-- `compileRow`, with the stops that are made. -/
def recordRow : Forest (Node κ) → Pass κ → (Forest (Node κ) × Pass κ) × List (Stop κ)
  | [], p => (([], p), [])
  | t :: ts, p =>
    let ((t, p), here) := recordNode t p
    let ((ts, p), stops) := recordRow ts p
    ((t :: ts, p), here ++ stops)

end

/-! ## The record changes nothing -/

theorem recordAll_eq (ds : List Directive) (e : ElementPass κ) :
    (c.recordAll ds e).1 = c.dispatchAll ds e := by
  induction ds generalizing e with
  | nil => rfl
  | cons d ds ih =>
    rw [recordAll, dispatchAll]
    split
    · rfl
    · exact ih _

theorem recordWritten_eq (row : Forest (Node κ)) (p : Pass κ) :
    (c.recordWritten row p).1 = c.compileWritten row p := by
  induction row generalizing p with
  | nil => rfl
  | cons t ts ih =>
    obtain ⟨id, n, row⟩ := t
    simp only [recordWritten, compileWritten, ← ih]

mutual

theorem recordNode_eq : ∀ (t : View κ) (p : Pass κ), (c.recordNode t p).1 = c.compileNode t p
  | .node id n row, p => by
    rw [recordNode, compileNode]
    simp only [← recordAll_eq]
    split
    · rfl
    · split
      · rfl
      · split
        · rw [← recordWritten_eq]
        · rw [← recordRow_eq]

/-- A pass that keeps a record is the pass that keeps none (`compileRow`). -/
theorem recordRow_eq : ∀ (row : Forest (Node κ)) (p : Pass κ),
    (c.recordRow row p).1 = c.compileRow row p
  | [], p => by rw [recordRow, compileRow]
  | t :: ts, p => by
    rw [recordRow, compileRow]
    simp only [← recordNode_eq, ← recordRow_eq]

end

/-! ## The record is the itinerary -/

variable {c} {data : String → Option Value}

theorem dispatched_recordAll (hbuiltin : c.registry.Builtin) (ds : List Directive)
    {e : ElementPass κ} (hgone : e.gone = false) (hhold : e.pass.wiring.stores.Hold c.store data) :
    (c.recordAll ds e).2 = c.upToReplacing ds := by
  induction ds generalizing e with
  | nil => rfl
  | cons d ds ih =>
    have ha := dispatch_answers hbuiltin d e.view hhold
    rw [recordAll, if_neg (by simp [hgone]), upToReplacing]
    by_cases hr : c.replaces d = true
    · have hdetached : (c.dispatchOn e d).gone = true := by simp [dispatchOn, ha.detached.2 hr]
      have hstop : (c.recordAll ds (c.dispatchOn e d)).2 = [] := by
        cases ds <;> simp [recordAll, hdetached]
      simp [hr, hstop]
    · have hstays : (c.dispatchOn e d).gone = false := by
        have hnot : (c.dispatch d true e.view e.pass.wiring).outcome ≠ .detached :=
          fun hd => hr (ha.detached.1 hd)
        simp [dispatchOn, hnot]
      simp [hr, ih hstays ((c.advances_dispatch d true e.view e.pass.wiring).stores.hold hhold)]

mutual

theorem stops_recordNode (hbuiltin : c.registry.Builtin) : ∀ (t : View κ) (p : Pass κ),
    p.wiring.stores.Hold c.store data → (c.recordNode t p).2 = c.itinerary t
  | .node id n row, p, hhold => by
    rw [recordNode, itinerary]
    cases hn : n.isElement with
    | false =>
      rw [stopAt, directives_of_not_element hn c.options]
      rfl
    | true =>
      obtain ⟨hclosed, hkept⟩ := closed_enter id n row hbuiltin hhold
      have hafter := hold_enter id n row hhold
      have hdispatched := dispatched_recordAll hbuiltin (n.directives c.options)
        (e := { view := .node id n row, pass := { p with visitedNodes := p.visitedNodes + 1 } })
        rfl hhold
      rw [enter, ← recordAll_eq] at hclosed hkept hafter
      rw [if_neg (by simp), stopAt, ← hdispatched]
      simp only [hclosed]
      cases hseals : c.seals n with
      | true => rfl
      | false =>
        rw [if_neg (by simp), if_neg (by simp [hkept hseals])]
        rw [← stops_recordRow hbuiltin row _ hafter]
        rfl

/-- With builtin strategies, the record of a pass is its itinerary (`itineraryRow`). -/
theorem stops_recordRow (hbuiltin : c.registry.Builtin) : ∀ (row : Forest (Node κ)) (p : Pass κ),
    p.wiring.stores.Hold c.store data → (c.recordRow row p).2 = c.itineraryRow row
  | [], p, _ => by rw [recordRow, itineraryRow]
  | t :: ts, p, hhold => by
    have hafter : (c.recordNode t p).1.2.wiring.stores.Hold c.store data := by
      rw [recordNode_eq]
      exact (c.advances_compileNode t p).stores.hold hhold
    rw [recordRow, itineraryRow, ← stops_recordNode hbuiltin t p hhold,
      ← stops_recordRow hbuiltin ts _ hafter]

end

/-- What a pass over an element reports is what `compileRow` counts below it. -/
theorem report_compile {t view : View κ} {w after : Wiring κ} {report : Report}
    (h : c.compile t w = .ok (report, view, after)) :
    report = (c.compileRow t.children { wiring := { w with diagnostics := [] } }).2.report := by
  simp only [compile, bind, Except.bind, pure, Except.pure] at h
  split at h
  · exact absurd h (by simp)
  · split at h
    · exact absurd h (by simp)
    · simp only [Except.ok.injEq, Prod.mk.injEq] at h
      exact h.1.symm

end Compiler

theorem World.report_compile {κ : Type} {w after : World κ} {c : Compiler κ} {n : NodeId}
    {t : View κ} {report : Report} (ht : w.forest.find? n = some t)
    (h : w.compile c n = .ok (report, after)) :
    report = (c.compileRow t.children { wiring := w.wiring }).2.report := by
  simp only [compile, ht] at h
  cases hc : c.compile t w.wiring with
  | error e => simp [hc, bind, Except.bind] at h
  | ok result =>
    obtain ⟨r, view, wiring⟩ := result
    simp only [hc, bind, Except.bind, pure, Except.pure, Except.ok.injEq, Prod.mk.injEq] at h
    rw [← h.1]
    exact Compiler.report_compile hc

/-! ## The command -/

namespace Session

/-- What the command to compile an element reports (`compileRow`). -/
theorem report_bind_compile {s s' : Session} {name : String} {t : View Client} {options : Options}
    {registry : Registry} {report : Report} (ht : s.view? name = some t)
    (h : s.bind (.compile name options registry) = (.report report, s')) :
    report = ((s.compiler options registry).compileRow t.children
      { wiring := s.world.wiring }).2.report := by
  simp only [Session.bind, changeAt, ht] at h
  cases hc : s.world.compile (s.compiler options registry) t.id with
  | error e => simp [hc] at h
  | ok result =>
    obtain ⟨r, world⟩ := result
    simp only [hc, Prod.mk.injEq, Reply.report.injEq] at h
    rw [← h.1]
    exact World.report_compile (view?_eq_some ht).2 hc

/-- **The report accounts for every node and every directive.**  Compiling an element below which
nothing stands under a text, with valid options and builtin strategies, succeeds.  The pass, with a
record of its stops, is the one that makes the session what it is afterwards.  It stops in document
order at the nodes above none of which a directive replaces the element or owns its content; on each
it dispatches the directives up to the first that replaces the element.  The report counts the stops,
the texts with a marker among them, and the directives that bind, and lists one finding for each
dispatched directive that does not bind and for each whose markup is injected as text. -/
theorem report_accounts {s : Session} {name : String} {t : View Client} {options : Options}
    {registry : Registry} {st : Store Client} (ht : s.view? name = some t)
    (hroot : t.val.isElement = true) (hbare : t.bare = true) (hvalid : options.flaw? = none)
    (hbuiltin : registry.Builtin) (hst : s.world.stores[s.store]? = some st) :
    let c := s.compiler options registry
    let pass := c.recordRow t.children { wiring := s.world.wiring }
    let stops := pass.2
    let dispatched := stops.flatMap (·.dispatched)
    ∃ report s',
      (∀ call scope, s.perform call scope (.bind (.compile name options registry)) =
        some (.report report, s')) ∧
      pass.1 = c.compileRow t.children { wiring := s.world.wiring } ∧
      s'.world = s.world.settle t.id (t.mapChildren fun _ => pass.1.1) pass.1.2.wiring ∧
      stops.map (fun stop => (stop.node, stop.val)) =
        ((Forest.lineage [] t.children).filter fun x => !x.1.any c.seals).map (fun x => x.2) ∧
      (∀ stop ∈ stops, stop.dispatched = c.upToReplacing (stop.val.directives options)) ∧
      report.visitedNodes = stops.length ∧
      report.interpolations = stops.countP (·.interpolates options.delimiters) ∧
      report.bindings = dispatched.countP c.binds ∧
      report.diagnostics = dispatched.filterMap (c.finding? st.get?) := by
  intro c pass stops dispatched
  have hhold : s.world.wiring.stores.Hold s.store st.get? := ⟨st, hst, fun _ => rfl⟩
  obtain ⟨report, hbind⟩ := bind_compile registry ht hroot hvalid
  have hpass : pass.1 = c.compileRow t.children { wiring := s.world.wiring } :=
    c.recordRow_eq t.children _
  have hstops : stops = c.itineraryRow t.children :=
    Compiler.stops_recordRow hbuiltin t.children _ hhold
  have hbelow : View.bareRow t.children = true := by
    obtain ⟨id, n, row⟩ := t
    rw [View.bare_node, Bool.and_eq_true] at hbare
    exact hbare.2
  have hroots : ([] : List (Node Client)).any c.seals = false := rfl
  have hway := c.itineraryRow_eq_filter hroots hbelow
  have hreport : report = c.tally st.get? stops := by
    rw [report_bind_compile ht hbind, Compiler.report_compileRow hbuiltin t.children _ hhold, hstops]
    simp [Report.add, Pass.report, World.wiring, c]
  refine ⟨report, _, fun call scope => congrArg some hbind, hpass, by rw [hpass], ?_, ?_, ?_⟩
  · rw [hstops, hway, List.map_map]
    rfl
  · rw [hstops, hway]
    intro stop hstop
    obtain ⟨x, -, rfl⟩ := List.mem_map.1 hstop
    rfl
  · rw [hreport]
    exact ⟨rfl, rfl, rfl, rfl⟩

/-- A session with a view on which some directives bind and some do not. -/
def somePruned : Session :=
  ((start (.ofMembers [("name", .string "Ada"), ("bio", .string "")]) []).run
    (.command (.handle (.build "root" (.element "div" []
      [.element "p" [⟨"v-text", "name"⟩] [.text "\x7b\x7b name \x7d\x7d"],
       .element "b" [⟨"v-html", "bio"⟩, ⟨"v-text", "name"⟩] [],
       .element "a" [⟨"v-on:click", "go"⟩, ⟨"v-blink", "name"⟩]
         [.text "Hello \x7b\x7b name \x7d\x7d!"]]))))).2

/-- Options without a wrapper for injected markup. -/
def unwrapped : Options where
  markupWrapper := none

/-- The text in the paragraph is not met, the second directive on the bold element is not dispatched,
and without a wrapper an empty value is no single node. -/
theorem report_of_some_pruned : ∃ report s',
    (∀ call scope, somePruned.perform call scope (.bind (.compile "root" unwrapped .standard)) =
      some (.report report, s')) ∧
    report.visitedNodes = 4 ∧ report.interpolations = 1 ∧ report.bindings = 2 ∧
    report.diagnostics = [.markupFallback "v-html" "bio", .missingHandler "v-on:click" "go",
      .unknownDirective "v-blink" "name"] := by
  have ht : somePruned.view? "root" = some _ := rfl
  have hst : somePruned.world.stores[somePruned.store]? = some _ := rfl
  have hvalid : unwrapped.flaw? = none := rfl
  obtain ⟨report, s', hperform, -, -, -, -, hvisited, htexts, hbindings, hfindings⟩ :=
    report_accounts ht rfl rfl hvalid Registry.builtin_standard hst
  exact ⟨report, s', hperform, hvisited.trans (by decide +kernel), htexts.trans (by decide +kernel),
    hbindings.trans (by decide +kernel), hfindings.trans (by decide +kernel)⟩

end Session

end ViewBinding
