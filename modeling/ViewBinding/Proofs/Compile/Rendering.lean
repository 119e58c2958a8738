import ViewBinding.Proofs.Compile.Dispatching
import ViewBinding.Proofs.Session.Quiet
import ViewBinding.Proofs.Tree.Lookup
import ViewBinding.Proofs.View.Picture

/-!
# What a compile pass makes of a view

The pass changes the view that it goes over: contents are written, nodes are replaced, subscriptions
end on its way.  What comes out can be said without any of that, by a recursion on the picture of the
view with the data at hand (`Rendering.render`): the first marker of a text gives way to its value,
the directives on an element take effect in the order of the attributes, and the children are rendered
only if no directive wrote the content.

* `picture_compileNode` — node by node, the pass draws that picture, up to empty texts.
* `compile_draws_rendering` — so does the command; it leaves the root itself and all values alone,
  and runs no client.
-/

namespace ViewBinding

open Json (Value)

/-! ## The picture that is asked for -/

/-- What the directives on an element come to: its value field, the text that is its content, and what
stands in its place. -/
structure Effect where
  field : Option String
  text : Option String := none
  markup : Option Markup := none

/-- What a picture depends on: the options, the registry, and the value of every key. -/
structure Rendering where
  options : Options
  registry : Registry
  data : String → Option Value

namespace Rendering

variable (g : Rendering)

/-- The effect of a strategy, on top of that of others. A method that hears an event (`eventBinding`) is
not seen. -/
def effect (s : Strategy) (key : String) (f : Effect) : Effect :=
  let shown := Value.display (g.data key)
  match s with
  | .textSync => { f with text := some shown }
  | .valueSync => { f with field := some shown }
  | .markupReplace =>
    { f with markup := some (Injected.ofText shown g.options.markupWrapper).markup }
  | _ => f

/-- The effect of one more directive. An element that was replaced (`markup`) is done with. -/
def step (f : Effect) (d : Directive) : Effect :=
  if f.markup.isSome then f
  else
    match d.kind.bind g.registry.get? with
    | none => f
    | some s => g.effect s d.key f

/-- The effect of some directives one after the other (`step`). -/
def effects (field : Option String) (ds : List Directive) : Effect :=
  ds.foldl g.step { field := field }

/-- The directives among some attributes (`parse_directives`). -/
def directives (attributes : List Attribute) : List Directive :=
  attributes.filterMap fun a => Directive.parse a.name a.value g.options

/-- A text with the value in the place of its first marker (`Marker.render`). -/
def fill (payload : String) : String :=
  match Marker.find? g.options.delimiters payload with
  | none => payload
  | some marker => marker.render payload (Value.display (g.data marker.key))

mutual

/-- A picture as it is rendered: no store, no node and no subscription takes part in it. -/
def render : Picture → Picture
  | .node (.text payload) row => .node (.text (g.fill payload)) row
  | .node (.element tag attributes field) row =>
    let f := g.effects field (g.directives attributes)
    match f.markup with
    | some m => .ofMarkup m
    | none =>
      .node (.element tag attributes f.field)
        (match f.text with
        | some text => [.node (.text text) []]
        | none => renderRow row)

/-- A row of pictures as it is rendered. -/
def renderRow : List Picture → List Picture
  | [] => []
  | p :: ps => render p :: renderRow ps

end

/-- The picture of a view the root of which is left alone, as `compile` leaves it. -/
def renderBelow : Picture → Picture
  | .node content row => .node content (g.renderRow row)

variable {g} {f : Effect} {d : Directive}

theorem step_of_none (hf : f.markup = none) (hs : d.kind.bind g.registry.get? = none) :
    g.step f d = f := by
  simp [step, hf, hs]

theorem step_of_some (hf : f.markup = none) {s : Strategy}
    (hs : d.kind.bind g.registry.get? = some s) : g.step f d = g.effect s d.key f := by
  simp [step, hf, hs]

theorem step_of_replaced (hf : f.markup.isSome) : g.step f d = f := by
  simp [step, hf]

end Rendering

/-! ## One element -/

/-- Stores one of which has the given values (`Stores.value?`). -/
def Stores.Hold {κ : Type} (id : StoreId) (data : String → Option Value) (stores : Stores κ) :
    Prop :=
  ∃ st : Store κ, stores[id]? = some st ∧ ∀ key, st.get? key = data key

theorem Stores.Hold.value?_eq {κ : Type} {id : StoreId} {data : String → Option Value}
    {stores : Stores κ} (h : stores.Hold id data) (key : String) :
    stores.value? id key = data key := by
  obtain ⟨st, hst, hdata⟩ := h
  simp [Stores.value?, hst, hdata]

theorem Stores.Changes.hold {κ : Type} {a b : Stores κ} (h : a.Changes b) {id : StoreId}
    {data : String → Option Value} (ha : a.Hold id data) : b.Hold id data := by
  obtain ⟨st, hst, hdata⟩ := ha
  obtain ⟨st', hst', -, hd⟩ := h.rewired.kept id st hst
  exact ⟨st', hst', fun key => by rw [Store.get?, hd, ← hdata key, Store.get?]⟩

theorem Wiring.watch_node {κ : Type} (w : Wiring κ) (store : StoreId) (key : String)
    (observer : Observer κ) (id : NodeId) (n : Node κ) (row : Forest (Node κ)) :
    ∃ n', (w.watch store key observer (.node id n row)).1 = .node id n' row ∧
      n'.content = n.content ∧ n'.listeners = n.listeners := by
  unfold Wiring.watch
  split
  · exact ⟨n, rfl, rfl, rfl⟩
  · next st _ => exact ⟨n.retain ⟨store, st.nextSubscription key⟩, rfl, rfl, rfl⟩

namespace Compiler

variable {κ : Type} (c : Compiler κ) (data : String → Option Value)

/-- The picture that a compiler is to draw of some data. -/
def rendering : Rendering := ⟨c.options, c.registry, data⟩

@[simp] theorem data_rendering : (c.rendering data).data = data := rfl

variable {c} in
theorem step_of_strategy {d : Directive} {s : Strategy} (hs : c.strategy? d = some s) {f : Effect}
    (hf : f.markup = none) : (c.rendering data).step f d = (c.rendering data).effect s d.key f :=
  Rendering.step_of_some hf hs

variable {c} in
/-- A directive that does not bind (`binds`) is not seen. -/
theorem step_unbound {d : Directive} (hd : c.binds d = false) (f : Effect) :
    (c.rendering data).step f d = f := by
  cases hf : f.markup with
  | some m => exact Rendering.step_of_replaced (by rw [hf]; rfl)
  | none =>
    rcases strategy?_of_unbound hd with hs | ⟨hs, -⟩
    · exact Rendering.step_of_none hf hs
    · exact step_of_strategy data hs hf

variable {id : NodeId} {tag : String} {attributes : List Attribute} {row : Forest (Node κ)}

/-- An element that was not replaced has its field, and its content unless a directive wrote it. -/
structure Stands (id : NodeId) (tag : String) (attributes : List Attribute) (row : Forest (Node κ))
    (f : Effect) (view : View κ) (owned replaced : Bool) : Prop where
  shape : ∃ n row', view = .node id n row' ∧ n.content = .element tag attributes f.field ∧
    View.bareRow row' = true ∧ (f.text = none → row' = row) ∧
    ∀ text, f.text = some text → View.TextShown text row'
  owned : owned = f.text.isSome
  replaced : f.text = none → replaced = false

namespace Stands

variable {f : Effect} {view : View κ} {owned replaced : Bool}

theorem mapRoot (h : Stands id tag attributes row f view owned replaced) {g : Node κ → Node κ}
    (hg : ∀ n, (g n).content = n.content) :
    Stands id tag attributes row f (view.mapRoot g) owned replaced := by
  obtain ⟨n, row', rfl, hn, hrest⟩ := h.shape
  exact ⟨⟨g n, row', rfl, (hg n).trans hn, hrest⟩, h.owned, h.replaced⟩

theorem watch (h : Stands id tag attributes row f view owned replaced) (w : Wiring κ)
    (store : StoreId) (key : String) (observer : Observer κ) :
    Stands id tag attributes row f (w.watch store key observer view).1 owned replaced := by
  unfold Wiring.watch
  split
  · exact h
  · exact h.mapRoot fun _ => rfl

theorem setValue (h : Stands id tag attributes row f view owned replaced) (value : String) :
    Stands id tag attributes row { f with field := some value } (view.mapRoot (·.setValue value))
      owned replaced := by
  obtain ⟨n, row', rfl, hn, hrest⟩ := h.shape
  refine ⟨⟨n.setValue value, row', rfl, ?_, hrest⟩, h.owned, h.replaced⟩
  rw [Node.setValue, hn]

theorem writeText (h : Stands id tag attributes row f view owned replaced) (w : Wiring κ)
    (text : String) :
    Stands id tag attributes row { f with text := some text } (w.writeText text view).1 true
      (replaced || (w.writeText text view).2.1) := by
  obtain ⟨n, row', rfl, hn, hbare, -⟩ := h.shape
  have helement : n.isElement = true := by simp [Node.isElement, hn]
  obtain ⟨row'', hview, hshown⟩ := View.TextShown.setText w.next id text helement hbare
  refine ⟨⟨n, row'', hview, hn, hshown.bareRow_eq, fun hnone => absurd hnone (by simp), ?_⟩, rfl,
    fun hnone => absurd hnone (by simp)⟩
  intro text' htext
  exact Option.some.inj htext ▸ hshown

end Stands

/-- Where a pass stands at an element some directives of which have taken effect. -/
structure Drawn (id : NodeId) (tag : String) (attributes : List Attribute)
    (row : Forest (Node κ)) (f : Effect) (e : ElementPass κ) : Prop where
  hold : e.pass.wiring.stores.Hold c.store data
  gone : e.gone = f.markup.isSome
  drawn : ∀ m, f.markup = some m → e.view.picture = .ofMarkup m
  stands : f.markup = none → Stands id tag attributes row f e.view e.owned e.replaced

variable {c data} {f : Effect} {e : ElementPass κ}

/-- One more directive takes effect: `dispatchOn` does what `Rendering.step` says. -/
theorem Drawn.dispatchOn (h : Drawn c data id tag attributes row f e) (hgone : e.gone = false)
    (hbuiltin : c.registry.Builtin) (d : Directive) :
    Drawn c data id tag attributes row ((c.rendering data).step f d) (c.dispatchOn e d) := by
  have hhold := (c.advances_dispatch d true e.view e.pass.wiring).stores.hold h.hold
  have hshown : Value.display (e.pass.wiring.stores.value? c.store d.key) = Value.display (data d.key) := by
    rw [h.hold.value?_eq]
  have hmarkup : f.markup = none := by
    rw [h.gone] at hgone
    exact Option.not_isSome_iff_eq_none.1 (by simp [hgone])
  have hstands := h.stands hmarkup
  have hskipped : (Outcome.skipped == Outcome.boundContent) = false := rfl
  have hbound : (Outcome.bound == Outcome.boundContent) = false := rfl
  rw [Compiler.dispatchOn]
  cases handled hbuiltin d with
  | unbound hd =>
    rw [step_unbound data hd]
    rw [dispatch_unbound hd] at hhold ⊢
    exact ⟨hhold, by simp [hmarkup], fun m hm => absurd hm (by simp [hmarkup]),
      fun _ => by simpa [hskipped] using hstands⟩
  | text hs =>
    rw [step_of_strategy data hs hmarkup]
    rw [dispatch_text hs hshown] at hhold ⊢
    refine ⟨hhold, by simp [Rendering.effect, hmarkup],
      fun m hm => absurd hm (by simp [Rendering.effect, hmarkup]), fun _ => ?_⟩
    have hwritten := hstands.writeText e.pass.wiring (Value.display (data d.key))
    simpa [Rendering.effect] using hwritten.watch _ _ _ _
  | value hs =>
    rw [step_of_strategy data hs hmarkup]
    rw [dispatch_value hs hshown] at hhold ⊢
    refine ⟨hhold, by simp [Rendering.effect, hmarkup],
      fun m hm => absurd hm (by simp [Rendering.effect, hmarkup]), fun _ => ?_⟩
    have hset := hstands.setValue (Value.display (data d.key))
    have hheard := (hset.watch e.pass.wiring c.store d.key (.field e.view.id)).mapRoot
      (g := (·.addListener c.options.inputEvent (.input e.view.id c.store d.key)))
      fun _ => rfl
    simpa [Rendering.effect, hbound] using hheard
  | @method hs event hevent code hcode =>
    rw [step_of_strategy data hs hmarkup]
    rw [dispatch_method hs hevent hcode] at hhold ⊢
    refine ⟨hhold, by simp [Rendering.effect, hmarkup],
      fun m hm => absurd hm (by simp [Rendering.effect, hmarkup]), fun _ => ?_⟩
    have hheard := hstands.mapRoot (g := (·.addListener event (.method c.store code))) fun _ => rfl
    simpa [Rendering.effect, hbound] using hheard
  | markup hs =>
    rw [step_of_strategy data hs hmarkup]
    rw [dispatch_markup hs (congrArg (Injected.ofText · c.options.markupWrapper) hshown) rfl] at hhold ⊢
    refine ⟨hhold, by simp [Rendering.effect], ?_, fun hnone => absurd hnone (by simp [Rendering.effect])⟩
    intro m hm
    rw [← Option.some.inj hm]
    exact View.picture_ofMarkup _ _

/-- All directives on an element take effect (`dispatchAll`). -/
theorem Drawn.dispatchAll (hbuiltin : c.registry.Builtin) (ds : List Directive)
    (h : Drawn c data id tag attributes row f e) :
    Drawn c data id tag attributes row (ds.foldl (c.rendering data).step f) (c.dispatchAll ds e) := by
  induction ds generalizing f e with
  | nil => exact h
  | cons d ds ih =>
    rw [Compiler.dispatchAll, List.foldl_cons]
    split
    · next hgone =>
      -- nothing more is done, and nothing more takes effect
      have hreplaced : f.markup.isSome = true := by rw [← h.gone, hgone]
      have hrest : ds.foldl (c.rendering data).step f = f := by
        clear ih
        induction ds with
        | nil => rfl
        | cons d' ds ih => rw [List.foldl_cons, Rendering.step_of_replaced hreplaced, ih]
      rw [Rendering.step_of_replaced hreplaced, hrest]
      exact h
    · next hgone => exact ih (h.dispatchOn (Bool.not_eq_true _ ▸ hgone) hbuiltin d)

/-! ## The whole pass -/

theorem picture_compileText {n : Node κ} {payload : String} (hn : n.content = .text payload)
    (id : NodeId) (row : Forest (Node κ)) {p : Pass κ} (hhold : p.wiring.stores.Hold c.store data) :
    (c.compileText (.node id n row) p).1.picture =
      .node (.text ((c.rendering data).fill payload)) (View.pictureRow row) := by
  have hpayload : n.payload? = some payload := by simp [Node.payload?, hn]
  simp only [compileText, Wiring.bindMarker, Tree.val, hpayload, Rendering.fill, rendering]
  cases Marker.find? c.options.delimiters payload with
  | none => simp [hn]
  | some marker =>
    simp only [hhold.value?_eq, Tree.mapRoot, Tree.id]
    obtain ⟨n', hn', hcontent, -⟩ := Wiring.watch_node p.wiring c.store marker.key
      (.marker id payload marker) id
      (n.setPayload (marker.render payload (Value.display (data marker.key)))) row
    rw [hn', View.picture_node, hcontent, Node.setPayload, hn]

mutual

/-- Node by node, a pass draws what is to be rendered, up to empty texts (`Alike`). -/
theorem picture_compileNode (hbuiltin : c.registry.Builtin) : ∀ (t : View κ) (p : Pass κ),
    p.wiring.stores.Hold c.store data → t.bare = true →
      Picture.Alike (c.compileNode t p).1.picture ((c.rendering data).render t.picture)
  | .node id n row, p, hhold, hbare => by
    rw [View.bare_node, Bool.and_eq_true] at hbare
    rw [compileNode, View.picture_node]
    cases hn : n.content with
    | text payload =>
      have htext : n.isElement = false := by simp [Node.isElement, hn]
      have hrow : row = [] := by simpa [htext] using hbare.1
      have hpicture := picture_compileText hn id row
        (p := { p with visitedNodes := p.visitedNodes + 1 }) hhold
      rw [if_pos (by simp [htext]), hpicture, hrow, View.pictureRow_nil, Rendering.render]
      rfl
    | element tag attributes field =>
      have helement : n.isElement = true := by simp [Node.isElement, hn]
      have hdirectives : n.directives c.options = (c.rendering data).directives attributes := by
        simp [Node.directives, Node.attributes, hn, Rendering.directives, rendering]
      have hstart : Drawn c data id tag attributes row { field := field }
          { view := .node id n row, pass := { p with visitedNodes := p.visitedNodes + 1 } } :=
        ⟨hhold, rfl, fun m hm => absurd hm (by simp), fun _ =>
          ⟨⟨n, row, rfl, hn, hbare.2, fun _ => rfl, fun text htext => absurd htext (by simp)⟩, rfl,
            fun _ => rfl⟩⟩
      have hdrawn := hstart.dispatchAll hbuiltin (n.directives c.options)
      rw [if_neg (by simp [helement]), Rendering.render, Rendering.effects, ← hdirectives]
      simp only
      generalize (n.directives c.options).foldl (c.rendering data).step { field := field } = f
        at hdrawn ⊢
      generalize c.dispatchAll (n.directives c.options) _ = e at hdrawn ⊢
      cases hmarkup : f.markup with
      | some m =>
        have hgone : e.gone = true := by rw [hdrawn.gone, hmarkup]; rfl
        rw [if_pos (by simp [hgone]), hdrawn.drawn m hmarkup]
        rfl
      | none =>
        have hgone : e.gone = false := by rw [hdrawn.gone, hmarkup]; rfl
        have hstands := hdrawn.stands hmarkup
        obtain ⟨n', row', hview, hn', -, hkept, hwritten⟩ := hstands.shape
        cases htext : f.text with
        | some text =>
          have howned : e.owned = true := by rw [hstands.owned, htext]; rfl
          rw [if_pos (by simp [howned]), hview, View.picture_node, hn']
          exact Picture.Alike.node (hwritten text htext).solidRow_eq
        | none =>
          have howned : e.owned = false := by rw [hstands.owned, htext]; rfl
          rw [if_neg (by simp [howned, hgone]), if_neg (by simp [hstands.replaced htext]), hview,
            hkept htext]
          simp only [Tree.mapChildren, View.picture_node, hn']
          exact Picture.Alike.node (picture_compileRow hbuiltin row e.pass hdrawn.hold hbare.2)

theorem picture_compileRow (hbuiltin : c.registry.Builtin) : ∀ (row : Forest (Node κ)) (p : Pass κ),
    p.wiring.stores.Hold c.store data → View.bareRow row = true →
      Picture.solidRow (View.pictureRow (c.compileRow row p).1) =
        Picture.solidRow ((c.rendering data).renderRow (View.pictureRow row))
  | [], p, _, _ => by
    rw [compileRow, View.pictureRow_nil, Rendering.renderRow]
  | t :: ts, p, hhold, hbare => by
    rw [View.bareRow_cons, Bool.and_eq_true] at hbare
    rw [compileRow, View.pictureRow_cons, View.pictureRow_cons, Rendering.renderRow,
      Picture.solidRow_cons, Picture.solidRow_cons,
      picture_compileRow hbuiltin ts _ ((c.advances_compileNode t p).stores.hold hhold) hbare.2]
    rw [show (c.compileNode t p).1.picture.solid = _ from picture_compileNode hbuiltin t p hhold
      hbare.1]

end

/-- A pass over an element with options that are valid (`flaw?`) succeeds, and leaves the root itself
alone. -/
theorem compile_eq_ok {t : View κ} (hroot : t.val.isElement = true) (hvalid : c.options.flaw? = none)
    (w : Wiring κ) :
    ∃ report, c.compile t w = .ok (report,
      t.mapChildren fun _ => (c.compileRow t.children { wiring := { w with diagnostics := [] } }).1,
      (c.compileRow t.children { wiring := { w with diagnostics := [] } }).2.wiring) := by
  have hoptions : c.options.validate = .ok () := by
    rw [Options.validate, hvalid]
  simp only [compile, hroot, hoptions, bind, Except.bind, pure, Except.pure]
  exact ⟨_, rfl⟩

theorem picture_mapChildren_compileRow (hbuiltin : c.registry.Builtin) {t : View κ}
    (hbare : t.bare = true) {p : Pass κ} (hhold : p.wiring.stores.Hold c.store data) :
    Picture.Alike (View.picture (t.mapChildren fun _ => (c.compileRow t.children p).1))
      ((c.rendering data).renderBelow t.picture) := by
  obtain ⟨id, n, row⟩ := t
  rw [View.bare_node, Bool.and_eq_true] at hbare
  simp only [Tree.mapChildren, Tree.children, View.picture_node, Rendering.renderBelow]
  exact Picture.Alike.node (picture_compileRow hbuiltin row p hhold hbare.2)

end Compiler

/-! ## The command -/

namespace Session

theorem view?_eq_some {s : Session} {name : String} {t : View Client}
    (h : s.view? name = some t) :
    s.nodes.get? name = some t.id ∧ s.world.forest.find? t.id = some t := by
  obtain ⟨n, hn, hfound⟩ := Option.bind_eq_some_iff.1 h
  have hid : t.id = n := Forest.find?_id hfound
  exact ⟨hid ▸ hn, hid ▸ hfound⟩

/-- What a view was worked to is found in its place (`World.settle`). -/
theorem find?_settle {κ : Type} {w : World κ} {n : NodeId} {t view : View κ}
    (ht : w.forest.find? n = some t) (hid : view.id = n) (wiring : Wiring κ) :
    (w.settle n view wiring).forest.find? n = some view := by
  rw [World.settle, Forest.find?_append, Forest.find?_expand_self hid ht, Option.some_or]

/-- What the command to compile an element does (`World.settle` puts what `compileRow` made in its place).
-/
theorem bind_compile {s : Session} {name : String} {t : View Client} {options : Options}
    (registry : Registry) (ht : s.view? name = some t) (hroot : t.val.isElement = true)
    (hvalid : options.flaw? = none) :
    let after := (s.compiler options registry).compileRow t.children { wiring := s.world.wiring }
    ∃ report, s.bind (.compile name options registry) =
      (.report report,
        { s with world := s.world.settle t.id (t.mapChildren fun _ => after.1) after.2.wiring }) := by
  intro after
  obtain ⟨report, hok⟩ := (s.compiler options registry).compile_eq_ok hroot hvalid s.world.wiring
  have hworld : s.world.compile (s.compiler options registry) t.id =
      .ok (report, s.world.settle t.id (t.mapChildren fun _ => after.1) after.2.wiring) := by
    simp only [World.compile, (view?_eq_some ht).2, hok]
    rfl
  refine ⟨report, ?_⟩
  simp only [Session.bind, changeAt, ht, hworld]

/-- **A compile pass draws what is to be rendered.**  Compiling an element below which nothing stands
under a text, with valid options and builtin strategies, succeeds.  Its view is afterwards, up to
empty texts, the picture that is to be rendered of it with the values of the store.  The root itself
stays as it was, and so do all values.  Nobody is told or called: the command does the same whatever
clients would do, and nothing is added to the history. -/
theorem compile_draws_rendering {s : Session} {name : String} {t : View Client} {options : Options}
    {registry : Registry} {st : Store Client} (ht : s.view? name = some t)
    (hroot : t.val.isElement = true) (hbare : t.bare = true) (hvalid : options.flaw? = none)
    (hbuiltin : registry.Builtin) (hst : s.world.stores[s.store]? = some st) :
    ∃ report s' t', (∀ call scope, s.perform call scope (.bind (.compile name options registry)) =
        some (.report report, s')) ∧
      s'.view? name = some t' ∧
      t'.picture.Alike ((⟨options, registry, st.get?⟩ : Rendering).renderBelow t.picture) ∧
      t'.val = t.val ∧
      (∀ (id : StoreId) (old : Store Client), s.world.stores[id]? = some old →
        ∃ new : Store Client, s'.world.stores[id]? = some new ∧ new.data = old.data) ∧
      s'.history = s.history ∧ s'.deliveries = s.deliveries := by
  obtain ⟨report, hbind⟩ := bind_compile registry ht hroot hvalid
  obtain ⟨hname, hfound⟩ := view?_eq_some ht
  have hhold : s.world.stores.Hold s.store st.get? := ⟨st, hst, fun _ => rfl⟩
  have halike := Compiler.picture_mapChildren_compileRow (c := s.compiler options registry)
    (p := { wiring := s.world.wiring }) hbuiltin hbare hhold
  refine ⟨report, _, _, fun call scope => congrArg some hbind, ?_, halike, ?_, ?_, rfl, rfl⟩
  · rw [view?, hname, Option.bind_some]
    refine find?_settle hfound ?_ _
    obtain ⟨id, n, row⟩ := t
    rfl
  · obtain ⟨id, n, row⟩ := t
    rfl
  · intro id old hold
    have hpass := (s.compiler options registry).advances_compileRow t.children
      { wiring := s.world.wiring }
    obtain ⟨new, hnew, -, hdata⟩ := hpass.stores.rewired.kept id old hold
    exact ⟨new, hnew, hdata⟩

/-- A session with a view of three texts that follow a name. -/
def greeting : Session :=
  ((start (.ofMembers [("name", .string "Ada")]) []).run
    (.command (.handle (.build "root" (.element "div" []
      [.element "p" [⟨"v-text", "name"⟩] [.text "nobody"],
       .element "input" [⟨"v-model", "name"⟩] [],
       .text "Hello \x7b\x7b name \x7d\x7d!"]))))).2

/-- The paragraph, the input and the text all show the name. -/
theorem greeting_shows_name :
    ∃ t st report s' t', greeting.view? "root" = some t ∧
      greeting.world.stores[greeting.store]? = some st ∧
      (∀ call scope, greeting.perform call scope (.bind (.compile "root" {} .standard)) =
        some (.report report, s')) ∧
      s'.view? "root" = some t' ∧ s'.history = greeting.history ∧
      t'.picture.Alike (.node (.element "div" [] none)
        [.node (.element "p" [⟨"v-text", "name"⟩] none) [.node (.text "Ada") []],
         .node (.element "input" [⟨"v-model", "name"⟩] (some "Ada")) [],
         .node (.text "Hello Ada!") []]) := by
  have ht : greeting.view? "root" = some _ := rfl
  have hst : greeting.world.stores[greeting.store]? = some _ := rfl
  have hvalid : ({} : Options).flaw? = none := rfl
  obtain ⟨report, s', t', hperform, ht', halike, -, -, hhistory, -⟩ :=
    compile_draws_rendering ht rfl rfl hvalid Registry.builtin_standard hst
  refine ⟨_, _, report, s', t', ht, hst, hperform, ht', hhistory, halike.trans ?_⟩
  rfl
end Session

end ViewBinding
