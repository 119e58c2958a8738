import ViewBinding.Proofs.Live.Operating
import ViewBinding.Proofs.Table.Ordered
import ViewBinding.Proofs.View.Fresh

/-!
# Sessions that present a template

`Session.Presents` says what a session is like before a template in it is compiled: the template is
all there is of views, nobody observes its store, and there are no methods.

* `presents_showing` — every piece of markup that is a template can be presented.
* `Presents.live` — once the template is compiled, its view follows the store.
* `Live.bound_iff` — the value fields that the pass bound are the slots among them.
-/

namespace ViewBinding

open Json (Value)

/-! ## Before the pass -/

namespace Session

/-- A session in which a template stands under a name, with nothing else that could interfere: no
other view, no observer of the current store, and no method. -/
structure Presents (s : Session) (name : String) (t : View Client) (options : Options) : Prop where
  named : s.nodes.get? name = some t.id
  alone : s.world.forest = [t]
  distinct : t.ids.Nodup
  below : ∀ i ∈ t.ids, i < s.world.next
  element : t.val.isElement = true
  unheard : t.val.listeners = []
  template : View.isTemplateRow options t.children = true
  stored : ∃ st : Store Client, s.world.stores[s.store]? = some st ∧
    ∀ key, st.observersOf key = []
  methods : s.methods = []

/-- A session with a model and the view of a piece of markup (`build`). -/
def showing (model : Value) (name : String) (m : Markup) : Session :=
  ((start model []).run (.command (.handle (.build name m)))).2

theorem showing_eq (model : Value) (name : String) {m : Markup} (hm : m.isElement = true) :
    showing model name m =
      { start model [] with
        world :=
          { forest := [(View.ofMarkup 0 m).1]
            stores := [Store.ofValue model]
            next := (View.ofMarkup 0 m : View Client × NodeId).2 }
        nodes := [(name, 0)] } := by
  cases m with
  | text payload => simp [Markup.isElement] at hm
  | element tag attributes children => rfl

theorem model_showing (data : Table Value) (name : String) {m : Markup} (hm : m.isElement = true) :
    (showing (.object data) name m).model = .object data := by
  rw [showing_eq _ name hm]
  rfl

/-- Every piece of markup that is a template can be presented, with every model. -/
theorem presents_showing (model : Value) (name : String) {m : Markup} {options : Options}
    (hm : m.isElement = true) (htemplate : View.isTemplateRow options
      (View.ofMarkup 0 m : View Client × NodeId).1.children = true) :
    (showing model name m).Presents name (View.ofMarkup 0 m).1 options := by
  obtain ⟨count, hids, hnext⟩ := View.ids_ofMarkup (κ := Client) 0 m
  rw [showing_eq model name hm]
  cases m with
  | text payload => simp [Markup.isElement] at hm
  | element tag attributes children =>
    exact
      { named := by simp [Table.get?, View.ofMarkup, Tree.id]
        alone := rfl
        distinct := hids ▸ List.nodup_range'
        below := fun i hi => by
          rw [hids, List.mem_range'_1] at hi
          rw [hnext]
          exact hi.2
        element := rfl
        unheard := rfl
        template := htemplate
        stored := ⟨Store.ofValue model, rfl, fun key => by cases model <;> rfl⟩
        methods := rfl }

/-- Other nodes may have names too. -/
theorem Presents.assign {s : Session} {name : String} {t : View Client} {options : Options}
    (h : s.Presents name t options) {other : String} (hne : name ≠ other) (n : NodeId) :
    (s.assign other n).Presents name t options :=
  { h with named := (Table.get?_insert_of_ne hne n s.nodes).trans h.named }

/-! ## After the pass -/

/-- The session once the template under a name was compiled with the standard strategies
(`Registry.standard`). -/
def compiled (s : Session) (name : String) (options : Options) : Session :=
  (s.run (.command (.bind (.compile name options .standard)))).2

/-- What the pass makes of the children of a template. -/
def passOver (s : Session) (t : View Client) (options : Options) :
    Forest (Node Client) × Pass Client :=
  (s.compiler options .standard).compileRow t.children { wiring := s.world.wiring }

namespace Presents

variable {s : Session} {name : String} {t : View Client} {options : Options}

/-- What stays as it is from the pass on. -/
def layout (h : s.Presents name t options) : Layout where
  options := options
  store := s.store
  root := t
  first := s.world.next
  names := s.nodes
  distinct := h.distinct
  below := h.below
  template := h.template
  held := List.any_eq_true.2 ⟨(name, t.id), Table.mem_of_get? h.named, by simp⟩

theorem view?_eq (h : s.Presents name t options) : s.view? name = some t := by
  rw [view?, h.named, Option.bind_some, h.alone, Forest.find?, t.find?_self]

/-- The pass over a template alone: its view is all that is left, with what was taken out. -/
theorem compiled_eq (h : s.Presents name t options) (hvalid : options.flaw? = none) :
    s.compiled name options =
      Session.sweep { s with
        history := []
        world :=
          { forest := .node t.id t.val (s.passOver t options).1 ::
              (s.passOver t options).2.wiring.removed
            stores := (s.passOver t options).2.wiring.stores
            next := (s.passOver t options).2.wiring.next } } := by
  let fresh : Session := { s with history := [] }
  obtain ⟨report, hbind⟩ : ∃ report, fresh.bind (.compile name options .standard) = _ :=
    bind_compile .standard h.view?_eq h.element hvalid
  have hroot : t.mapChildren (fun _ => (s.passOver t options).1) =
      .node t.id t.val (s.passOver t options).1 := by
    cases t
    rfl
  have hworld : s.world.settle t.id (t.mapChildren fun _ => (s.passOver t options).1)
        (s.passOver t options).2.wiring =
      { forest := .node t.id t.val (s.passOver t options).1 ::
          (s.passOver t options).2.wiring.removed
        stores := (s.passOver t options).2.wiring.stores
        next := (s.passOver t options).2.wiring.next } := by
    rw [World.settle, h.alone, Forest.expand_singleton, hroot]
    rfl
  have hrun : s.run (.command (.bind (.compile name options .standard))) =
      (.report report, Session.sweep { fresh with
        world := s.world.settle t.id (t.mapChildren fun _ => (s.passOver t options).1)
          (s.passOver t options).2.wiring }) := by
    refine run_eq ?_
    rw [Action.command, act, perform, hbind]
    rfl
  rw [compiled, hrun, hworld]

/-- What the pass over a template binds. -/
theorem passOver_binds (h : s.Presents name t options) {st : Store Client}
    (hst : s.world.stores[s.store]? = some st) :
    ShowsRow options s.store s.world.next (upToDate st.get?) t.children (s.passOver t options).1 ∧
      Wired s.store (View.slotsRow options t.children) (View.hiddenRow options t.children)
        s.world.wiring (s.passOver t options).2.wiring :=
  compileRow_binds (c := s.compiler options .standard) rfl h.methods t.children
    { wiring := s.world.wiring } h.template ⟨st, hst, fun _ => rfl⟩ (Nat.le_refl _)

/-- **The pass.** Once the template is compiled with valid options, its view follows the store (`Live`),
the values of which are as before. -/
theorem live (h : s.Presents name t options) (hvalid : options.flaw? = none) :
    ∃ st st' : Store Client, s.world.stores[s.store]? = some st ∧ st'.data = st.data ∧
      Live h.layout st' (upToDate st'.get?) (s.compiled name options) := by
  obtain ⟨st, hst, hunobserved⟩ := h.stored
  obtain ⟨hrow, hwired⟩ := h.passOver_binds hst
  obtain ⟨st', hst', hdata, hobserved⟩ := hwired.stored st hst
  obtain ⟨more, hremoved, hclear⟩ := hwired.removed
  have hget : st'.get? = st.get? := by
    funext key
    rw [Store.get?, Store.get?, hdata]
  refine ⟨st, st', hst, hdata, ?_⟩
  rw [h.compiled_eq hvalid]
  refine Live.sweep ⟨rfl, rfl, hst', fun key => ?_, hwired.next_le, ?_⟩
  · rw [hobserved, hunobserved]
    rfl
  · refine ⟨(s.passOver t options).1, more, ?_, hget ▸ hrow, fun x hx => ?_⟩
    · rw [hremoved]
      rfl
    · obtain ⟨hlisteners, hguards, hhidden⟩ := hclear x hx
      exact ⟨hlisteners, hguards, Or.inl hhidden⟩

end Presents

/-! ## What the pass bound -/

/-- Whether the value field of the element of a name is bound to a key of the current store: typing into it
is listened to by the binding that takes the text into the key (`Listener.input`). -/
def Bound (s : Session) (field key : String) : Prop :=
  ∃ u, s.view? field = some u ∧ ∃ r ∈ u.val.listeners, r.listener = .input u.id s.store key

end Session

/-- The value fields that are bound are the slots among them. -/
theorem Live.bound_iff {L : Layout} {st : Store Client} {ok : Slot → String → Prop} {s : Session}
    (h : Live L st ok s) (hroot : L.root.val.listeners = []) {field key : String} :
    s.Bound field key ↔
      ∃ sl ∈ L.slots, sl.part = .field ∧ sl.key = key ∧ L.names.get? field = some sl.node := by
  constructor
  · rintro ⟨u, hu, r, hr, hlistener⟩
    obtain ⟨hname, hfound⟩ := Session.view?_eq_some hu
    obtain ⟨us, removed, hforest, hrow, hclear⟩ := h.displays
    have hmem := Forest.mem_nodes_of_find? hfound
    rw [hforest, Forest.nodes, Tree.nodes, List.cons_append, List.mem_cons, List.mem_append] at hmem
    rcases hmem with heq | hmem | hmem
    · rw [(Prod.mk.inj heq).2, hroot] at hr
      exact absurd hr (by simp)
    · obtain ⟨key', hlistener', hslot⟩ := hrow.listener_slot _ hmem r hr
      obtain rfl : key' = key := by
        rw [hlistener] at hlistener'
        exact (Listener.input.inj hlistener').2.2.symm
      exact ⟨_, hslot, rfl, rfl, h.names ▸ hname⟩
    · rw [(hclear _ hmem).1] at hr
      exact absurd hr (by simp)
  · rintro ⟨sl, hsl, hpart, rfl, hname⟩
    obtain ⟨u, hfound, -, r, hlisteners, -, hlistener⟩ := h.field_found hsl hpart
    refine ⟨u, h.view?_eq hname hfound, r, by simp [hlisteners], ?_⟩
    rw [hlistener, Forest.find?_id hfound, h.current]

end ViewBinding
