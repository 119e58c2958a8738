import ViewBinding.Compiler
import ViewBinding.Proofs.Guards.Owned
import ViewBinding.Proofs.View.Fresh
import ViewBinding.Visit

/-!
# What binding keeps, by induction

Whatever a strategy, the compile pass or a binding of a text does to some views, it does by a few
elementary changes: a node's content is written, a node hears or watches something, a finding is
noted, new nodes are numbered, views are taken out.  So a relation between views before and after that
each of these changes satisfies, and that can be put together from the parts of a view, is satisfied by
all that is bound.

* `Wiring.Bindwise` — what such a relation must satisfy; `Bindwise.apply`, `Bindwise.dispatch` and
  `Bindwise.compile` — the induction over `Strategy.apply`, `Compiler.dispatch` and
  `Compiler.compile`.
* `World.Settlewise` — the same for a relation between worlds, once the view that was worked on is
  settled in its place: `Settlewise.refresh`, `Settlewise.compile` and their like.
* `Visit.Preserves` — what the changes of a visit must keep for the whole visit to keep it.
-/

namespace ViewBinding

open Json (Value)

variable {κ : Type}

/-! ## Roots and children -/

namespace Tree

variable {α : Type} (f : α → α) (t : Tree α)

theorem id_mapRoot : (t.mapRoot f).id = t.id := by
  obtain ⟨n, a, ts⟩ := t
  rfl

theorem val_mapRoot : (t.mapRoot f).val = f t.val := by
  obtain ⟨n, a, ts⟩ := t
  rfl

@[simp] theorem children_mapRoot : (t.mapRoot f).children = t.children := by
  obtain ⟨n, a, ts⟩ := t
  rfl

end Tree

theorem Wiring.id_writeText (w : Wiring κ) (text : String) (t : View κ) :
    (w.writeText text t).1.id = t.id := by
  obtain ⟨id, n, row⟩ := t
  simp only [writeText, View.setText]
  split
  · rfl
  · split <;> rfl

theorem Wiring.children_watch (w : Wiring κ) (store : StoreId) (key : String)
    (observer : Observer κ) (t : View κ) : (w.watch store key observer t).1.children = t.children := by
  unfold watch
  split
  · rfl
  · exact t.children_mapRoot _

/-- Setting a text content that replaces no children leaves them alone (`View.setText`). -/
theorem View.children_setText (fresh : NodeId) (text : String) (t : View κ)
    (h : (t.setText fresh text).replaced = false) : (t.setText fresh text).view.children = t.children := by
  obtain ⟨id, n, row⟩ := t
  unfold setText at h ⊢
  grind [Tree.children]

/-- A strategy that replaces no children leaves them alone, also one of a client. -/
theorem Strategy.children_apply (s : Strategy) (cx : Setting κ) (binding : Binding)
    (t : View κ) (w : Wiring κ) (h : (s.apply cx binding true t w).replaced = false) :
    (s.apply cx binding true t w).view.children = t.children := by
  cases s with
  | textSync =>
    exact (Wiring.children_watch _ _ _ _ _).trans (View.children_setText _ _ t h)
  | valueSync =>
    simp only [apply, applyValueSync, Tree.children_mapRoot, Wiring.children_watch]
  | eventBinding =>
    simp only [apply, applyEventBinding]
    split
    · rfl
    · split
      · rfl
      · exact t.children_mapRoot _
  | markupReplace => exact absurd h (by simp [apply, applyMarkupReplace])
  | once => exact View.children_setText _ _ t h
  | mark outcome => exact t.children_mapRoot _

namespace Compiler

variable (c : Compiler κ)

theorem children_dispatch (d : Directive) (t : View κ) (w : Wiring κ)
    (h : (c.dispatch d true t w).replaced = false) :
    (c.dispatch d true t w).view.children = t.children := by
  unfold dispatch at h ⊢
  split
  · rfl
  · next s hs =>
    rw [hs] at h
    exact s.children_apply _ _ t w h

/-- Directives that replace no children leave them alone. -/
theorem children_dispatchAll (ds : List Directive) (e : ElementPass κ)
    (h : (c.dispatchAll ds e).replaced = false) :
    e.replaced = false ∧ (c.dispatchAll ds e).view.children = e.view.children := by
  induction ds generalizing e with
  | nil => exact ⟨h, rfl⟩
  | cons d ds ih =>
    rw [dispatchAll] at h ⊢
    split
    · next hgone =>
      rw [if_pos hgone] at h
      exact ⟨h, rfl⟩
    · next hgone =>
      rw [if_neg hgone] at h
      obtain ⟨hon, hchildren⟩ := ih (c.dispatchOn e d) h
      obtain ⟨he, hd⟩ := Bool.or_eq_false_iff.1 hon
      exact ⟨he, hchildren.trans (c.children_dispatch d e.view e.pass.wiring hd)⟩

end Compiler

/-! ## Wiring -/

/-- What a relation between some views with a wiring, before and after, must satisfy for all that is
bound to satisfy it: views can be worked on one after the other and below a node, and each elementary
change of a view or its wiring satisfies it. -/
structure Wiring.Bindwise (P : Forest (Node κ) → Wiring κ → Forest (Node κ) → Wiring κ → Prop) :
    Prop where
  refl : ∀ row w, P row w row w
  trans : ∀ {a a' b : Forest (Node κ)} {w w₁ w₂ : Wiring κ}, P a w a' w₁ → P a' w₁ b w₂ → P a w b w₂
  append : ∀ {a a' b b' : Forest (Node κ)} {w w₁ w₂ : Wiring κ},
    P a w a' w₁ → P b w₁ b' w₂ → P (a ++ b) w (a' ++ b') w₂
  below : ∀ {row row' : Forest (Node κ)} {w w₁ : Wiring κ} (id : NodeId) (n : Node κ),
    P row w row' w₁ → P [.node id n row] w [.node id n row'] w₁
  setPayload : ∀ (t : View κ) (text : String) (w : Wiring κ), P [t] w [t.mapRoot (·.setPayload text)] w
  setValue : ∀ (t : View κ) (value : String) (w : Wiring κ), P [t] w [t.mapRoot (·.setValue value)] w
  setAttribute : ∀ (t : View κ) (name value : String) (w : Wiring κ),
    P [t] w [t.mapRoot (·.setAttribute name value)] w
  /-- A root hears an event. -/
  listen : ∀ (t : View κ) (event : String) (listener : Listener κ) (w : Wiring κ),
    P [t] w [t.mapRoot (·.addListener event listener)] w
  /-- A root is given the guard of an observer that shows its value there, if anywhere (`target?`). -/
  watch : ∀ (w : Wiring κ) (store : StoreId) (key : String) {observer : Observer κ} {t : View κ},
    (∀ n, observer.target? = some n → n = t.id) →
      P [t] w [(w.watch store key observer t).1] (w.watch store key observer t).2
  note : ∀ row (w : Wiring κ) ds, P row w row { w with diagnostics := ds }
  /-- A number is used up. -/
  skip : ∀ row (w : Wiring κ), P row w row { w with next := w.next + 1 }
  /-- There is a new view with the next numbers. -/
  ofMarkup : ∀ (w : Wiring κ) (m : Markup), P [] w [(View.ofMarkup w.next m).1]
    { w with next := (View.ofMarkup w.next m : View κ × NodeId).2 }
  /-- A view is taken out, and nothing binds it any more. -/
  discard : ∀ (w : Wiring κ) (t : View κ), P [t] w [] (w.discard t)
  /-- Views are taken out as they are. -/
  remove : ∀ (w : Wiring κ) row, P row w [] { w with removed := w.removed ++ row }

namespace Wiring.Bindwise

variable {P : Forest (Node κ) → Wiring κ → Forest (Node κ) → Wiring κ → Prop} (hP : Bindwise P)
include hP

theorem mapChildren {t : View κ} {row' : Forest (Node κ)} {w w₁ : Wiring κ}
    (h : P t.children w row' w₁) : P [t] w [t.mapChildren fun _ => row'] w₁ := by
  obtain ⟨id, n, row⟩ := t
  exact hP.below id n h

theorem report (row : Forest (Node κ)) (w : Wiring κ) (d : Diagnostic) : P row w row (w.report d) :=
  hP.note row w _

theorem discardAll (row : Forest (Node κ)) (w : Wiring κ) : P row w [] (w.discardAll row) := by
  induction row generalizing w with
  | nil => exact hP.refl [] w
  | cons t ts ih => exact hP.append (hP.discard w t) (ih (w.discard t))

/-- A new text with the next number, or none for no text. -/
theorem textRow (w : Wiring κ) (text : String) :
    P [] w (View.textRow w.next text) { w with next := w.next + 1 } := by
  unfold View.textRow
  split
  · exact hP.skip [] w
  · exact hP.ofMarkup w (.text text)

/-- The children of a node make room for at most one new text. -/
theorem makeRoom {row : Forest (Node κ)} {w w₁ : Wiring κ} (text : String)
    (hgone : P row { w with next := w.next + 1 } [] w₁) :
    P row w (View.textRow w.next text) w₁ := by
  have hnew := hP.append (hP.textRow w text) hgone
  rwa [List.nil_append, List.append_nil] at hnew

/-- A text content is written (`write_text`), and the former children are discarded. -/
theorem writeText (w : Wiring κ) (text : String) (t : View κ) :
    P [t] w [(w.writeText text t).1] (w.writeText text t).2.2 := by
  obtain ⟨id, n, row⟩ := t
  simp only [Wiring.writeText, View.setText]
  split
  · exact hP.trans (hP.setPayload _ text w) (hP.skip _ w)
  · split
    · exact hP.skip _ w
    · exact hP.below id n (hP.makeRoom text (hP.discardAll row _))

/-- A text content is written (`set_text_content`), and the former children are taken out as they are. -/
theorem setText (w : Wiring κ) (text : String) (t : View κ) :
    P [t] w [(t.setText w.next text).view]
      { w with next := w.next + 1, removed := w.removed ++ (t.setText w.next text).removed } := by
  obtain ⟨id, n, row⟩ := t
  simp only [View.setText]
  split
  · rw [List.append_nil]
    exact hP.trans (hP.setPayload _ text w) (hP.skip _ w)
  · split
    · rw [List.append_nil]
      exact hP.skip _ w
    · exact hP.below id n (hP.makeRoom text (hP.remove _ row))

theorem bindMarker (w : Wiring κ) (store : StoreId) (delimiters : String × String) (t : View κ) :
    P [t] w [(w.bindMarker store delimiters t).2.1] (w.bindMarker store delimiters t).2.2 := by
  unfold Wiring.bindMarker
  split
  · exact hP.refl _ w
  · split
    · exact hP.refl _ w
    · refine hP.trans (hP.setPayload t _ w) (hP.watch w store _ fun n hn => ?_)
      exact (t.id_mapRoot _).symm ▸ (Option.some.inj hn).symm

/-! ## Strategies -/

/-- **Whatever a strategy does**, builtin or not, it does by changes that satisfy the relation. -/
theorem apply (s : Strategy) (cx : Setting κ) (binding : Binding) (hasParent : Bool) (t : View κ)
    (w : Wiring κ) :
    P [t] w [(s.apply cx binding hasParent t w).view] (s.apply cx binding hasParent t w).wiring := by
  cases s with
  | textSync =>
    refine hP.trans (hP.writeText w _ t) (hP.watch _ cx.store binding.key fun n hn => ?_)
    exact (w.id_writeText _ t).symm ▸ (Option.some.inj hn).symm
  | valueSync =>
    refine hP.trans (hP.trans (hP.setValue t _ w) (hP.watch w cx.store binding.key fun n hn => ?_))
      (hP.listen _ _ _ _)
    exact (t.id_mapRoot _).symm ▸ (Option.some.inj hn).symm
  | eventBinding =>
    simp only [Strategy.apply, Strategy.applyEventBinding]
    split
    · exact hP.report _ w _
    · split
      · exact hP.report _ w _
      · exact hP.listen t _ _ w
  | markupReplace =>
    simp only [Strategy.apply, Strategy.applyMarkupReplace]
    split
    · exact hP.refl _ w
    · generalize hw : (if (Injected.ofText (Value.display binding.value)
        cx.options.markupWrapper).fallback then w.report (.markupFallback binding.name binding.key)
          else w) = w₁
      have hreport : P [t] w [t] w₁ := by
        rw [← hw]
        split
        · exact hP.report _ w _
        · exact hP.refl _ w
      -- the new view is there first, and then the old one goes
      exact hP.trans hreport (hP.append (hP.ofMarkup w₁ (Injected.ofText (Value.display binding.value)
        cx.options.markupWrapper).markup) (hP.discard _ t))
  | once => exact hP.setText w _ t
  | mark outcome =>
    simp only [Strategy.apply, Strategy.applyMark]
    split
    · exact hP.trans (hP.setAttribute t _ _ w) (hP.report _ w _)
    · exact hP.setAttribute t _ _ w

/-! ## The compile pass -/

section

variable (c : Compiler κ)

theorem dispatch (d : Directive) (hasParent : Bool) (t : View κ) (w : Wiring κ) :
    P [t] w [(c.dispatch d hasParent t w).view] (c.dispatch d hasParent t w).wiring := by
  unfold Compiler.dispatch
  split
  · exact hP.report _ w _
  · exact hP.apply _ _ _ _ _ _

theorem dispatchAll (ds : List Directive) (e : ElementPass κ) :
    P [e.view] e.pass.wiring [(c.dispatchAll ds e).view] (c.dispatchAll ds e).pass.wiring := by
  induction ds generalizing e with
  | nil => exact hP.refl _ _
  | cons d ds ih =>
    rw [Compiler.dispatchAll]
    split
    · exact hP.refl _ _
    · exact hP.trans (hP.dispatch c d true e.view e.pass.wiring) (ih (c.dispatchOn e d))

theorem compileText (t : View κ) (p : Pass κ) :
    P [t] p.wiring [(c.compileText t p).1] (c.compileText t p).2.wiring :=
  hP.bindMarker p.wiring c.store c.options.delimiters t

theorem compileWritten (row : Forest (Node κ)) (p : Pass κ) :
    P row p.wiring (c.compileWritten row p).1 (c.compileWritten row p).2.wiring := by
  induction row generalizing p with
  | nil => exact hP.refl _ _
  | cons t ts ih =>
    exact hP.append (hP.compileText c t { p with visitedNodes := p.visitedNodes + 1 }) (ih _)

mutual

theorem compileNode (t : View κ) (p : Pass κ) :
    P [t] p.wiring [(c.compileNode t p).1] (c.compileNode t p).2.wiring := by
  obtain ⟨id, n, row⟩ := t
  rw [Compiler.compileNode]
  split
  · exact hP.compileText c _ { p with visitedNodes := p.visitedNodes + 1 }
  · have hall := hP.dispatchAll c (n.directives c.options)
      { view := .node id n row, pass := { p with visitedNodes := p.visitedNodes + 1 } }
    have hchildren := c.children_dispatchAll (n.directives c.options)
      { view := .node id n row, pass := { p with visitedNodes := p.visitedNodes + 1 } }
    simp only
    split
    · exact hall
    · split
      · exact hP.trans hall (hP.mapChildren (hP.compileWritten c _ _))
      · next hreplaced =>
        -- what is compiled below are the children that the view still has
        have hrow := (hchildren (by simpa using hreplaced)).2
        refine hP.trans hall (hP.mapChildren ?_)
        rw [hrow]
        exact compileRow row _

/-- **A compile pass** comes to changes that satisfy the relation, element by element (`compileNode`). -/
theorem compileRow (row : Forest (Node κ)) (p : Pass κ) :
    P row p.wiring (c.compileRow row p).1 (c.compileRow row p).2.wiring := by
  cases row with
  | nil =>
    rw [Compiler.compileRow]
    exact hP.refl _ _
  | cons t ts =>
    rw [Compiler.compileRow]
    exact hP.append (compileNode t p) (compileRow ts _)

end

theorem compile {root view : View κ} {w after : Wiring κ} {report : Report}
    (h : c.compile root w = .ok (report, view, after)) : P [root] w [view] after := by
  simp only [Compiler.compile, bind, Except.bind, pure, Except.pure] at h
  split at h
  · exact absurd h (by simp)
  · split at h
    · exact absurd h (by simp)
    · simp only [Except.ok.injEq, Prod.mk.injEq] at h
      rw [← h.2.1, ← h.2.2]
      exact hP.trans (hP.note _ w []) (hP.mapChildren (hP.compileRow c root.children
        { wiring := { w with diagnostics := [] } }))

end

end Wiring.Bindwise

/-! ## Worlds -/

/-- What a relation between worlds must satisfy besides: a view that was worked on stands in its place
(`World.settle`). -/
structure World.Settlewise (P : Forest (Node κ) → Wiring κ → Forest (Node κ) → Wiring κ → Prop)
    (Q : World κ → World κ → Prop) : Prop extends Wiring.Bindwise P where
  same : ∀ w, Q w w
  settle : ∀ {w : World κ} {n : NodeId} {t view : View κ} {wiring : Wiring κ},
    w.forest.find? n = some t → P [t] w.wiring [view] wiring → Q w (w.settle n view wiring)
  /-- A value field is written in its place. -/
  showField : ∀ (w : World κ) (n : NodeId) (value : String), Q w (w.updateNode n (·.setValue value))
  /-- A text is written in its place. -/
  showText : ∀ (w : World κ) (n : NodeId) (text : String), Q w (w.updateNode n (·.setPayload text))

namespace World.Settlewise

variable {P : Forest (Node κ) → Wiring κ → Forest (Node κ) → Wiring κ → Prop}
  {Q : World κ → World κ → Prop} (hQ : Settlewise P Q) (w : World κ)
include hQ

theorem setText (n : NodeId) (text : String) : Q w (w.setText n text).2 := by
  unfold World.setText
  split
  · exact hQ.same w
  · next t ht => exact hQ.settle ht (hQ.toBindwise.setText w.wiring text t)

/-- **An observer shows a new value** at its node, whichever kind of `Observer` it is. -/
theorem refresh (observer : Observer κ) (value : Value) : Q w (w.refresh observer value) := by
  cases observer with
  | content n =>
    simp only [World.refresh]
    split
    · exact hQ.same w
    · next t ht => exact hQ.settle ht (hQ.writeText w.wiring _ t)
  | field n => exact hQ.showField w n _
  | marker n template marker => exact hQ.showText w n _
  | client code => exact hQ.same w
  | retained code => exact hQ.same w

theorem bindText (store : StoreId) (delimiters : String × String) (n : NodeId) :
    Q w (w.bindText store delimiters n).2 := by
  unfold World.bindText
  split
  · exact hQ.same w
  · next t ht => exact hQ.settle ht (hQ.bindMarker w.wiring store delimiters t)

theorem retain (store : StoreId) (key : String) (code : κ) (n : NodeId) :
    Q w (w.retain store key (.retained code) n) := by
  unfold World.retain
  split
  · exact hQ.same w
  · next t ht =>
    exact hQ.settle ht (hQ.watch w.wiring store key fun _ hn => absurd hn (by simp [Observer.target?]))

theorem applyAt (n : NodeId) {f : Bool → View κ → Wiring κ → Applied κ}
    (hf : ∀ hasParent t w, P [t] w [(f hasParent t w).view] (f hasParent t w).wiring) :
    Q w (w.applyAt n f).2.2 := by
  unfold World.applyAt
  split
  · exact hQ.same w
  · next t ht => exact hQ.settle ht (hf _ t w.wiring)

/-- **A view is compiled** in its place. -/
theorem compile {c : Compiler κ} {n : NodeId} {report : Report} {after : World κ}
    (h : w.compile c n = .ok (report, after)) : Q w after := by
  unfold World.compile at h
  split at h
  · exact absurd h (by simp)
  · next t ht =>
    cases hpass : c.compile t w.wiring with
    | error e => simp [hpass, bind, Except.bind] at h
    | ok result =>
      obtain ⟨r, view, wiring⟩ := result
      simp only [hpass, bind, Except.bind, pure, Except.pure, Except.ok.injEq, Prod.mk.injEq] at h
      rw [← h.2]
      exact hQ.settle ht (hQ.toBindwise.compile c hpass)

end World.Settlewise

/-! ## Visits -/

namespace Visit

variable {κ : Type} {P : World κ → Prop}

/-- Whether something is kept by what a visit does to the view (`Visit.change`). -/
structure Preserves (P : World κ → Prop) : Prop where
  detach : ∀ {w : World κ} (id : NodeId), P w → P { w with forest := w.forest.detach id }
  add : ∀ {w : World κ} (parent : NodeId) (m : Markup), P w → P (addTo w parent m)

namespace Preserves

theorem change (hP : Preserves P) (v : Visit) (tag : String) (id : NodeId) {w : World κ} (hw : P w) :
    P (v.change tag id w) := by
  have hdetach := @hP.detach
  have hadd := @hP.add
  simp only [Visit.change]
  grind

mutual

/-- A visit of a node keeps what each of its changes keeps. -/
theorem node (hP : Preserves P) (v : Visit) : ∀ (t : View κ) {w : World κ}, P w → P (v.node t w).2
  | .node id n row, w, hw => by
    rw [Visit.node]
    split
    · exact hw
    · next tag _ _ _ =>
      have hchange := hP.change v tag id hw
      simp only
      split
      · exact hchange
      · exact rowOf hP v row hchange

/-- A visit of a row keeps what each of its changes keeps. -/
theorem rowOf (hP : Preserves P) (v : Visit) :
    ∀ (row : Forest (Node κ)) {w : World κ}, P w → P (v.rowOf row w).2
  | [], w, hw => by
    rw [Visit.rowOf]
    exact hw
  | t :: ts, w, hw => by
    rw [Visit.rowOf]
    exact rowOf hP v ts (node hP v t hw)

end

end Preserves

end Visit

end ViewBinding
