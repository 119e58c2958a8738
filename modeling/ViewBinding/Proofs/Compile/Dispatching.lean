import ViewBinding.Compiler
import Mathlib.Tactic.Common

/-!
# What a directive comes to

With builtin strategies a directive is dispatched in one of five ways (`Compiler.Handled`): it does not
bind and is a finding, its key shows as the text content or in the value field, a method hears an event,
or markup takes the place of the element.  Which of them it is does not depend on the view
(`Compiler.handled`), and to each there is an equation that says what `Compiler.dispatch` does
(`dispatch_unbound`, `dispatch_text`, `dispatch_value`, `dispatch_method`, `dispatch_markup`).
-/

namespace ViewBinding

open Json (Value)

/-- Whether a strategy is one of the four that belong to the kinds of directive, and not one of a client.
-/
def Strategy.isBuiltin : Strategy → Bool
  | textSync | valueSync | eventBinding | markupReplace => true
  | once | mark _ => false

/-- A registry of builtin strategies, for any kinds, as `Registry.standard` is one. -/
def Registry.Builtin (r : Registry) : Prop :=
  ∀ kind s, r.get? kind = some s → s.isBuiltin = true

theorem Registry.builtin_standard : Registry.standard.Builtin := by
  intro kind s h
  cases kind <;> obtain rfl := Option.some.inj h <;> rfl

/-- The event that the modifier of a directive names, such as `click`. -/
def Directive.event? (d : Directive) : Option String := d.modifier.filter (· ≠ "")

namespace Compiler

variable {κ : Type} (c : Compiler κ)

/-- The strategy that is registered for a directive. -/
def strategy? (d : Directive) : Option Strategy := d.kind.bind c.registry.get?

/-- Whether a directive replaces its element, as one of `v-html` does. -/
def replaces (d : Directive) : Bool := c.strategy? d = some .markupReplace

/-- Whether a directive owns the content of its element, as one of `v-text` does. -/
def ownsContent (d : Directive) : Bool := c.strategy? d = some .textSync

/-- Whether a directive binds: a method that is to hear an event has to be there, and the event has
to have a name. -/
def binds (d : Directive) : Bool :=
  match c.strategy? d with
  | none => false
  | some .eventBinding => d.event?.isSome && c.methods.contains d.key
  | some _ => true

/-- The finding about a directive that does not bind (see `dispatch_unbound`). -/
def complaint (d : Directive) : Diagnostic :=
  if (c.strategy? d).isNone then .unknownDirective d.name d.key
  else if d.event?.isSome then .missingHandler d.name d.key
  else .missingEvent d.name d.key

/-! ## The ways of a directive -/

/-- How a directive is handled where all strategies are builtin: one case for each strategy that binds. -/
inductive Handled (d : Directive) : Prop
  | unbound (h : c.binds d = false)
  | text (hs : c.strategy? d = some .textSync)
  | value (hs : c.strategy? d = some .valueSync)
  | method (hs : c.strategy? d = some .eventBinding) {event : String} (hevent : d.event? = some event)
      {code : κ} (hcode : c.methods.get? d.key = some code)
  | markup (hs : c.strategy? d = some .markupReplace)

variable {c} {d : Directive}

theorem handled (hbuiltin : c.registry.Builtin) (d : Directive) : c.Handled d := by
  cases hs : c.strategy? d with
  | none => exact .unbound (by simp [binds, hs])
  | some s =>
    obtain ⟨kind, -, hkind⟩ := Option.bind_eq_some_iff.1 hs
    have hbuilt : s.isBuiltin = true := hbuiltin kind s hkind
    cases s with
    | textSync => exact .text hs
    | valueSync => exact .value hs
    | eventBinding =>
      cases hevent : d.event? with
      | none => exact .unbound (by simp [binds, hs, hevent])
      | some event =>
        cases hcode : c.methods.get? d.key with
        | none => exact .unbound (by simp [binds, hs, Table.contains, hcode])
        | some code => exact .method hs hevent hcode
    | markupReplace => exact .markup hs
    | once => exact absurd hbuilt (by simp [Strategy.isBuiltin])
    | mark outcome => exact absurd hbuilt (by simp [Strategy.isBuiltin])

/-- A directive that does not bind has no strategy, or it is one of `v-on` and names no event or no method.
-/
theorem strategy?_of_unbound (hd : c.binds d = false) :
    c.strategy? d = none ∨ c.strategy? d = some .eventBinding ∧
      (d.event? = none ∨ c.methods.get? d.key = none) := by
  unfold binds at hd
  split at hd
  · next hs => exact Or.inl hs
  · next hs =>
      exact Or.inr ⟨hs, by simpa [Table.contains, imp_iff_not_or, Option.isSome_iff_ne_none] using hd⟩
  · exact absurd hd (by simp)

theorem replaces_eq_false (hd : c.binds d = false) : c.replaces d = false := by
  rcases strategy?_of_unbound hd with hs | ⟨hs, -⟩ <;> simp [replaces, hs]

theorem ownsContent_eq_false (hd : c.binds d = false) : c.ownsContent d = false := by
  rcases strategy?_of_unbound hd with hs | ⟨hs, -⟩ <;> simp [ownsContent, hs]

theorem binds_of_text (hs : c.strategy? d = some .textSync) : c.binds d = true := by simp [binds, hs]

theorem binds_of_value (hs : c.strategy? d = some .valueSync) : c.binds d = true := by simp [binds, hs]

theorem binds_of_method (hs : c.strategy? d = some .eventBinding) {event : String}
    (hevent : d.event? = some event) {code : κ} (hcode : c.methods.get? d.key = some code) :
    c.binds d = true := by
  simp [binds, hs, hevent, Table.contains, hcode]

theorem binds_of_markup (hs : c.strategy? d = some .markupReplace) : c.binds d = true := by
  simp [binds, hs]

/-! ## What is done -/

theorem dispatch_of_none (hs : c.strategy? d = none) (hasParent : Bool) (t : View κ) (w : Wiring κ) :
    c.dispatch d hasParent t w = ⟨.skipped, t, false, w.report (.unknownDirective d.name d.key)⟩ := by
  have hnone : d.kind.bind c.registry.get? = none := hs
  simp [dispatch, hnone]

theorem dispatch_of_some {s : Strategy} (hs : c.strategy? d = some s) (hasParent : Bool) (t : View κ)
    (w : Wiring κ) :
    c.dispatch d hasParent t w =
      s.apply c.toSetting ⟨w.stores.value? c.store d.key, d.key, d.modifier, d.name⟩ hasParent t
        w := by
  have hsome : d.kind.bind c.registry.get? = some s := hs
  simp [dispatch, hsome]

/-- **A directive that does not bind does nothing but report itself**, by its `complaint`. -/
theorem dispatch_unbound (hd : c.binds d = false) (hasParent : Bool) (t : View κ) (w : Wiring κ) :
    c.dispatch d hasParent t w = ⟨.skipped, t, false, w.report (c.complaint d)⟩ := by
  rcases strategy?_of_unbound hd with hs | ⟨hs, hmissing⟩
  · rw [dispatch_of_none hs, complaint, hs]
    rfl
  · rw [dispatch_of_some hs]
    simp only [Strategy.apply, Strategy.applyEventBinding]
    cases hevent : d.modifier.filter (· ≠ "") with
    | none =>
      have hnone : d.event? = none := hevent
      simp [complaint, hs, hnone]
    | some event =>
      have hsome : d.event? = some event := hevent
      have hnone : c.methods.get? d.key = none := hmissing.resolve_left (by simp [hsome])
      simp [complaint, hs, hsome, hnone]

variable {w : Wiring κ} {shown : String}

theorem dispatch_text (hs : c.strategy? d = some .textSync)
    (hshown : Value.display (w.stores.value? c.store d.key) = shown) (hasParent : Bool) (t : View κ) :
    c.dispatch d hasParent t w =
      ⟨.boundContent,
        ((w.writeText shown t).2.2.watch c.store d.key (.content t.id) (w.writeText shown t).1).1,
        (w.writeText shown t).2.1,
        ((w.writeText shown t).2.2.watch c.store d.key (.content t.id) (w.writeText shown t).1).2⟩ := by
  subst hshown
  rw [dispatch_of_some hs]
  rfl

theorem dispatch_value (hs : c.strategy? d = some .valueSync)
    (hshown : Value.display (w.stores.value? c.store d.key) = shown) (hasParent : Bool) (t : View κ) :
    c.dispatch d hasParent t w =
      ⟨.bound,
        (w.watch c.store d.key (.field t.id) (t.mapRoot (·.setValue shown))).1.mapRoot
          (·.addListener c.options.inputEvent (.input t.id c.store d.key)),
        false, (w.watch c.store d.key (.field t.id) (t.mapRoot (·.setValue shown))).2⟩ := by
  subst hshown
  rw [dispatch_of_some hs]
  rfl

theorem dispatch_method (hs : c.strategy? d = some .eventBinding) {event : String}
    (hevent : d.event? = some event) {code : κ} (hcode : c.methods.get? d.key = some code)
    (hasParent : Bool) (t : View κ) (w : Wiring κ) :
    c.dispatch d hasParent t w =
      ⟨.bound, t.mapRoot (·.addListener event (.method c.store code)), false, w⟩ := by
  have hmodifier : d.modifier.filter (· ≠ "") = some event := hevent
  rw [dispatch_of_some hs]
  simp only [Strategy.apply, Strategy.applyEventBinding, hmodifier, hcode]

/-- Markup that is injected as text is a finding before the element is replaced (`Injected.fallback`). -/
theorem dispatch_markup (hs : c.strategy? d = some .markupReplace) {injected : Injected}
    (hinjected : Injected.ofText (Value.display (w.stores.value? c.store d.key))
      c.options.markupWrapper = injected) {w₁ : Wiring κ}
    (hw₁ : (if injected.fallback then w.report (.markupFallback d.name d.key) else w) = w₁)
    (t : View κ) :
    c.dispatch d true t w =
      ⟨.detached, (View.ofMarkup w₁.next injected.markup).1, true,
        ({ w₁ with next := (View.ofMarkup w₁.next injected.markup : View κ × NodeId).2 } :
          Wiring κ).discard t⟩ := by
  subst hinjected
  subst hw₁
  rw [dispatch_of_some hs]
  rfl

end Compiler

end ViewBinding
