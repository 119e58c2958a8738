import ViewBinding.Directive
import ViewBinding.Html.Fragment
import ViewBinding.View.Wiring

/-!
# Strategies

A strategy says what binding a directive to a node comes to. The four that belong to the kinds of
directive (`TextSync`, `ValueSync`, `EventBinding`, `MarkupReplace`) each write the view once and then
add what keeps it up to date: text content and value field follow a key by a subscription that the node
holds, the input event takes the value field into the key, a method hears an event, and markup replaces
the node once and for all.

A client can register strategies of its own (`with_strategy`). Two of these are given here, `once` and
`mark`, so that a pass can be run with strategies that bind nothing or answer any outcome.
`Registry.standard` has neither of them.
-/

namespace ViewBinding

open Json (Value)

/-- What a strategy did to a node (`Applied`). -/
inductive Outcome where
  | bound
  /-- The node is bound, and the binding owns its content, which a pass does not walk (`compileNode`). -/
  | boundContent
  | skipped
  /-- The node was replaced, and nothing more is done to it. -/
  | detached
deriving DecidableEq, Repr, Inhabited

/-- The name of an outcome. -/
def Outcome.name : Outcome → String
  | bound => "Bound"
  | boundContent => "BoundContent"
  | skipped => "Skipped"
  | detached => "Detached"

/-- What a strategy can count on, whatever the node: the `store` to bind to, the methods by name, and the
options. -/
structure Setting (κ : Type) where
  store : StoreId
  methods : Table κ
  options : Options

/-- A directive that is being bound to a node. -/
structure Binding where
  /-- The value of the key when the binding starts. -/
  value : Option Value
  key : String
  modifier : Option String
  /-- The name of the attribute as written, for the findings. -/
  name : String

/-- What `Strategy.apply` comes to: the outcome, and the view that stands in the place of the node. -/
structure Applied (κ : Type) where
  outcome : Outcome
  view : View κ
  /-- Whether the children were replaced, so that `Compiler.compileNode` meets the new ones. -/
  replaced : Bool
  wiring : Wiring κ

/-- The ways to bind a directive to a node: those of `Registry.standard`, and two of clients. -/
inductive Strategy where
  /-- For `v-text`, the text content follows the key. -/
  | textSync
  /-- For `v-model`, the value field follows the key, and the key follows the typed value. -/
  | valueSync
  /-- For `v-on`, a method hears the event that the modifier names. -/
  | eventBinding
  /-- For `v-html`, the markup of the value replaces the node. -/
  | markupReplace
  /-- A client's own: the text content shows the value in brackets, once. -/
  | once
  /-- A client's own: an attribute notes the directive and the value, and the outcome is any. -/
  | mark (outcome : Outcome)
deriving DecidableEq, Repr, Inhabited

namespace Strategy

variable {κ : Type}

/-- Binds the text content of a node to a key: `write_text` now, and whenever the observer `.content` is
told. -/
def applyTextSync (cx : Setting κ) (binding : Binding) (t : View κ) (w : Wiring κ) : Applied κ :=
  let (view, replaced, w) := w.writeText (Value.display binding.value) t
  let (view, w) := w.watch cx.store binding.key (.content t.id) view
  ⟨.boundContent, view, replaced, w⟩

/-- Binds the value field of a node to a key in both directions: an observer `.field` calls `set_value`,
and a listener `.input` for the `inputEvent` sets the key to what was typed. -/
def applyValueSync (cx : Setting κ) (binding : Binding) (t : View κ) (w : Wiring κ) : Applied κ :=
  let shown := t.mapRoot (·.setValue (Value.display binding.value))
  let (view, w) := w.watch cx.store binding.key (.field t.id) shown
  let heard := view.mapRoot
    (·.addListener cx.options.inputEvent (.input t.id cx.store binding.key))
  ⟨.bound, heard, false, w⟩

/-- Lets the method that the key names hear the event that the modifier names. Without either there is a
finding, `W-EVENT-NAME-MISSING` or `W-HANDLER-MISSING`. -/
def applyEventBinding (cx : Setting κ) (binding : Binding) (t : View κ) (w : Wiring κ) :
    Applied κ :=
  match binding.modifier.filter (· ≠ "") with
  | none => ⟨.skipped, t, false, w.report (.missingEvent binding.name binding.key)⟩
  | some event =>
    match cx.methods.get? binding.key with
    | none => ⟨.skipped, t, false, w.report (.missingHandler binding.name binding.key)⟩
    | some code => ⟨.bound, t.mapRoot (·.addListener event (.method cx.store code)), false, w⟩

/-- Replaces a node that has a parent by the markup of the value (`create_markup_node`): the new node comes
by `insert_before`, the old one goes by `remove_child` and `release_subtree`. Text that stands in for
markup is the finding `W-MARKUP-FALLBACK`. -/
def applyMarkupReplace (cx : Setting κ) (binding : Binding) (hasParent : Bool) (t : View κ)
    (w : Wiring κ) : Applied κ :=
  if !hasParent then ⟨.skipped, t, false, w⟩
  else
    let injected := Injected.ofText (Value.display binding.value) cx.options.markupWrapper
    let w := if injected.fallback then w.report (.markupFallback binding.name binding.key) else w
    let (view, next) := View.ofMarkup w.next injected.markup
    ⟨.detached, view, true, { w with next := next }.discard t⟩

/-! ## Strategies of clients -/

/-- Shows the value of the key in brackets. Former children keep what binds them, unlike with
`applyTextSync`. -/
def applyOnce (binding : Binding) (t : View κ) (w : Wiring κ) : Applied κ :=
  let written := t.setText w.next ("[" ++ Value.display binding.value ++ "]")
  ⟨.bound, written.view, written.replaced,
    { w with next := w.next + 1, removed := w.removed ++ written.removed }⟩

def markName : String := "data-mark"

/-- The code of the finding that `applyMark` makes of a modifier. -/
def markCode : String := "X-MARK"

/-- Notes the directive and the value in an attribute. -/
def applyMark (outcome : Outcome) (binding : Binding) (t : View κ) (w : Wiring κ) : Applied κ :=
  let note := binding.name ++ "=" ++ Value.display binding.value
  let w := match binding.modifier with
    | some modifier => w.report { code := markCode, message := modifier }
    | none => w
  ⟨outcome, t.mapRoot (·.setAttribute markName note), false, w⟩

/-! ## Any strategy -/

/-- Binds a directive to the root of a view; `hasParent` says whether that stands below another
node. -/
def apply (s : Strategy) (cx : Setting κ) (binding : Binding) (hasParent : Bool) (t : View κ)
    (w : Wiring κ) : Applied κ :=
  match s with
  | textSync => applyTextSync cx binding t w
  | valueSync => applyValueSync cx binding t w
  | eventBinding => applyEventBinding cx binding t w
  | markupReplace => applyMarkupReplace cx binding hasParent t w
  | once => applyOnce binding t w
  | mark outcome => applyMark outcome binding t w

end Strategy

/-! ## Registries -/

/-- The strategy for each kind of directive that has one. -/
structure Registry where
  get? : DirectiveKind → Option Strategy

namespace Registry

/-- The registry without any strategy. -/
def empty : Registry := ⟨fun _ => none⟩

/-- The registry with a strategy for a kind, in the place of any other (`with_strategy`). -/
def register (r : Registry) (kind : DirectiveKind) (s : Strategy) : Registry :=
  ⟨fun k => if k = kind then some s else r.get? k⟩

/-- The registry with the strategy that belongs to each kind, of which every one is `Strategy.isBuiltin`.
-/
def standard : Registry :=
  (((empty.register .text .textSync).register .model .valueSync).register .on
    .eventBinding).register .html .markupReplace

def contains (r : Registry) (kind : DirectiveKind) : Bool :=
  (r.get? kind).isSome

/-- The kinds that have a strategy, by name in their order. -/
def kinds (r : Registry) : List DirectiveKind :=
  [DirectiveKind.html, .model, .on, .text].filter r.contains

end Registry

end ViewBinding
