import ViewBinding.Strategy

/-!
# Compiling a view

A compile pass goes over everything below a root in document order. A text node is bound to the
first marker in it. On an element the directives are dispatched in the order of the attributes, each
at once, up to one that replaces the element; then the pass goes on below it, unless the element was
replaced or a directive owns its content. Content that a directive wrote without owning it is new
text, in which a marker is bound like in any other.

What is wrong with one directive is a finding and never ends the pass.
-/

namespace ViewBinding

/-- What a pass came to (`CompileReport`). -/
structure Report where
  /-- The nodes met below the root (`visited_nodes`). -/
  visitedNodes : Nat
  /-- The directives whose strategy did not answer `.skipped`. -/
  bindings : Nat
  /-- The text nodes in which a marker was bound. -/
  interpolations : Nat
  diagnostics : List Diagnostic
deriving DecidableEq, Repr, Inhabited

/-- A compiler: the `Setting` for the strategies, and the strategies for the kinds of directive. -/
structure Compiler (κ : Type) extends Setting κ where
  registry : Registry := .standard

/-- The state of a pass: the `Wiring` so far, and what the `Report` counts. -/
structure Pass (κ : Type) where
  wiring : Wiring κ
  visitedNodes : Nat := 0
  bindings : Nat := 0
  interpolations : Nat := 0

/-- The state of a pass at one element, between two of its directives. -/
structure ElementPass (κ : Type) where
  /-- What stands in the place of the element. -/
  view : View κ
  /-- Whether its children were replaced. -/
  replaced : Bool := false
  /-- Whether a directive owns its content (`.boundContent`). -/
  owned : Bool := false
  /-- Whether the element was replaced (`.detached`). -/
  gone : Bool := false
  pass : Pass κ

/-- The directives on a node, in the order of its attributes (`parse_directives`). -/
def Node.directives {κ : Type} (n : Node κ) (options : Options) : List Directive :=
  n.attributes.filterMap fun a => Directive.parse a.name a.value options

namespace Compiler

variable {κ : Type}

/-- Binds a directive with the current value of its key (`dispatch`). A directive without a strategy is the
finding `W-DIRECTIVE-UNKNOWN`, and nothing else. -/
def dispatch (c : Compiler κ) (d : Directive) (hasParent : Bool) (t : View κ) (w : Wiring κ) :
    Applied κ :=
  match d.kind.bind c.registry.get? with
  | none => ⟨.skipped, t, false, w.report (.unknownDirective d.name d.key)⟩
  | some s =>
    s.apply c.toSetting ⟨w.stores.value? c.store d.key, d.key, d.modifier, d.name⟩ hasParent t w

/-- Dispatches one directive on an element below the root of a pass, and counts it. -/
def dispatchOn (c : Compiler κ) (e : ElementPass κ) (d : Directive) : ElementPass κ :=
  let a := c.dispatch d true e.view e.pass.wiring
  { view := a.view
    replaced := e.replaced || a.replaced
    owned := e.owned || a.outcome == .boundContent
    gone := a.outcome == .detached
    pass :=
      { e.pass with
        wiring := a.wiring
        bindings := if a.outcome = .skipped then e.pass.bindings else e.pass.bindings + 1 } }

/-- Dispatches directives on an element, up to one that replaces it. -/
def dispatchAll (c : Compiler κ) : List Directive → ElementPass κ → ElementPass κ
  | [], e => e
  | d :: ds, e => if e.gone then e else dispatchAll c ds (c.dispatchOn e d)

/-- Meets a text node (`visit_text`): binds its first marker. -/
def compileText (c : Compiler κ) (t : View κ) (p : Pass κ) : View κ × Pass κ :=
  let (marker, t, w) := p.wiring.bindMarker c.store c.options.delimiters t
  (t, { p with wiring := w, interpolations := p.interpolations + if marker.isSome then 1 else 0 })

/-- Meets nodes that a directive wrote without owning them; they are texts. -/
def compileWritten (c : Compiler κ) : Forest (Node κ) → Pass κ → Forest (Node κ) × Pass κ
  | [], p => ([], p)
  | t :: ts, p =>
    let (t, p) := c.compileText t { p with visitedNodes := p.visitedNodes + 1 }
    let (ts, p) := compileWritten c ts p
    (t :: ts, p)

mutual

/-- Meets a node and everything below it (`visit_node`), unless a directive replaced it or owns its
content. -/
def compileNode (c : Compiler κ) : View κ → Pass κ → View κ × Pass κ
  | .node id n row, p =>
    let p := { p with visitedNodes := p.visitedNodes + 1 }
    if !n.isElement then c.compileText (.node id n row) p
    else
      let e := c.dispatchAll (n.directives c.options) { view := .node id n row, pass := p }
      if e.gone || e.owned then (e.view, e.pass)
      else
        let (row, p) :=
          if e.replaced then c.compileWritten e.view.children e.pass
          else compileRow c row e.pass
        (e.view.mapChildren fun _ => row, p)

/-- Meets a row of nodes and everything below them, one after the other. -/
def compileRow (c : Compiler κ) : Forest (Node κ) → Pass κ → Forest (Node κ) × Pass κ
  | [], p => ([], p)
  | t :: ts, p =>
    let (t, p) := compileNode c t p
    let (ts, p) := compileRow c ts p
    (t :: ts, p)

end

/-- Compiles everything below the root of a view (`compile`). The root itself is not met: a pass
is refused if it is no element or the options are not valid. -/
def compile (c : Compiler κ) (root : View κ) (w : Wiring κ) :
    Except CompileError (Report × View κ × Wiring κ) := do
  if !root.val.isElement then .error .rootNotElement
  c.options.validate
  let (row, p) := c.compileRow root.children { wiring := { w with diagnostics := [] } }
  return (⟨p.visitedNodes, p.bindings, p.interpolations, p.wiring.diagnostics⟩,
    root.mapChildren fun _ => row, p.wiring)

end Compiler

end ViewBinding
