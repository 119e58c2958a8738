import ViewBinding.Proofs.Live.Starting

/-!
# Live update equals compiling afresh

However a store is written to, and whatever is typed into the fields that are bound to it, the view
of a template is what compiling a fresh copy of the template would give with the values that the store
has by then.

* `Live.view` — the picture of an up-to-date view is the one that is to be rendered.
* `live_update_eq_recompile` — the comparison, after any sequence of operations.
-/

namespace ViewBinding

open Json (Value)

namespace Live

variable {L : Layout} {st : Store Client} {ok : Slot → String → Prop} {s : Session}

theorem value?_eq (h : Live L st ok s) (key : String) : s.value? none key = st.get? key := by
  rw [Session.value?, Session.storeIn, Option.getD_none, h.current, Stores.value?, h.stored,
    Option.bind_some]

theorem model_eq (h : Live L st ok s) : s.model = .object st.data := by
  rw [Session.model, h.current, h.stored]
  rfl

/-- **The picture of an up-to-date view** is that of a pass that never was: the one that `renderBelow`
draws of the template and the values. -/
theorem view (h : Live L st (upToDate st.get?) s) {name : String}
    (hname : L.names.get? name = some L.root.id) :
    ∃ t', s.view? name = some t' ∧ t'.picture.Alike
      ((⟨L.options, .standard, st.get?⟩ : Rendering).renderBelow L.root.picture) := by
  obtain ⟨us, removed, hforest, hrow, -⟩ := h.displays
  refine ⟨.node L.root.id L.root.val us, ?_, ?_⟩
  · rw [Session.view?, h.names, hname, Option.bind_some, hforest, Forest.find?, Tree.find?,
      if_pos rfl]
  · have hrow := hrow.solidRow_pictureRow (fun sl x hx => hx) L.template
    revert hrow
    cases L.root
    intro hrow
    exact Picture.Alike.node hrow

/-- The value of a bound field is that of its key, as `Value.display` shows it. -/
theorem field_value (h : Live L st (upToDate st.get?) s) {field : String} {sl : Slot}
    (hsl : sl ∈ L.slots) (hpart : sl.part = .field) (hname : L.names.get? field = some sl.node) :
    ∃ u, s.view? field = some u ∧ u.val.value = Value.display (st.get? sl.key) := by
  obtain ⟨u, hfound, hshown, -⟩ := h.field_found hsl hpart
  exact ⟨u, h.view?_eq hname hfound, hshown⟩

end Live

namespace Session

variable {s : Session} {name : String} {t : View Client} {options : Options}

theorem exists_model_eq (s : Session) : ∃ data, s.model = .object data := by
  unfold model
  cases s.world.stores[s.store]? with
  | none => exact ⟨[], rfl⟩
  | some st => exact ⟨st.data, rfl⟩

/-- Whether an operation, if it types, does so into a field that is bound. -/
def Admits (s : Session) : Operation → Prop
  | .write _ _ => True
  | .type field _ => ∃ key, s.Bound field key

/-- Whether a session has what an operation was to bring about: a written key has the value, and a key
to which a field is bound has the text that was typed there. -/
def Took (before after : Session) : Operation → Prop
  | .write key value => ∃ v, after.value? none key = some v ∧ v.same value = true
  | .type field text => ∀ key, before.Bound field key →
    after.value? none key = some (.string text)

variable {L : Layout} {st : Store Client} {before : Session}

/-- An operation that is admitted sets a key of the layout. -/
theorem Admits.sets (h : Live L st (upToDate st.get?) before) (hroot : L.root.val.listeners = [])
    {op : Operation} (hop : before.Admits op) : ∃ key value, Live.Sets L op key value := by
  cases op with
  | write key value => exact ⟨key, value, .write key value⟩
  | type field text =>
    obtain ⟨key, hbound⟩ := hop
    obtain ⟨sl, hsl, hpart, rfl, hname⟩ := (h.bound_iff hroot).1 hbound
    exact ⟨sl.key, .string text, .type text hsl hpart hname⟩

/-- What was set last is what the store holds (`Took`). -/
theorem took_of_run (hbefore : Live L st (upToDate st.get?) before)
    (hroot : L.root.val.listeners = []) {st' : Store Client} {s : Session}
    (h : Live L st' (upToDate st'.get?) s) (op : Operation) :
    before.Took (s.run (op.action L.options.inputEvent)).2 op := by
  cases op with
  | write key value =>
    have hafter := h.run (.write key value)
    have hholds := Live.holds_setStore st' key value
    rw [Store.holds] at hholds
    split at hholds
    · next v hv => exact ⟨v, (hafter.value?_eq key).trans hv, hholds⟩
    · exact absurd hholds (by simp)
  | type field text =>
    intro key hbound
    obtain ⟨sl, hsl, hpart, rfl, hname⟩ := (hbefore.bound_iff hroot).1 hbound
    have hafter := h.run (.type text hsl hpart hname)
    exact (hafter.value?_eq sl.key).trans (Live.get?_of_holds (Live.holds_setStore _ _ _))

/-- **Live update equals compiling afresh.**  Take a session that presents a template, compile it with
valid options, and then set any keys and type any texts into fields that the pass bound, as often as
you like.  What the view looks like after that is, up to empty texts, what the view of a fresh copy of
the template looks like once that is compiled with the model as it is by then; every bound field has
the value of its key; and what the last operation wrote or typed is in the store. -/
theorem live_update_eq_recompile (h : s.Presents name t options) (hvalid : options.flaw? = none)
    (ops : List Operation) (hops : ∀ op ∈ ops, (s.compiled name options).Admits op) :
    let before := s.compiled name options
    let after := before.runAll options.inputEvent ops
    ∃ live, after.view? name = some live ∧
      (∀ (s₂ : Session) (name₂ : String) (t₂ : View Client), s₂.Presents name₂ t₂ options →
        t₂.picture = t.picture → s₂.model = after.model →
        ∃ fresh, (s₂.compiled name₂ options).view? name₂ = some fresh ∧
          live.picture.Alike fresh.picture) ∧
      (∀ field key, before.Bound field key →
        ∃ u, after.view? field = some u ∧
          u.val.value = Value.display (after.value? none key)) ∧
      ∀ op, ops.getLast? = some op → before.Took after op := by
  intro before after
  obtain ⟨-, st, -, -, hbefore⟩ := h.live hvalid
  have hsets : ∀ op ∈ ops, ∃ key value, Live.Sets h.layout op key value :=
    fun op hop => Admits.sets hbefore h.unheard (hops op hop)
  obtain ⟨st', hafter⟩ := hbefore.runAll ops hsets
  obtain ⟨live, hview, halike⟩ := hafter.view h.named
  refine ⟨live, hview, ?_, ?_, ?_⟩
  · intro s₂ name₂ t₂ h₂ hpicture hmodel
    obtain ⟨st₂, st₂', hst₂, hdata, hcompiled⟩ := h₂.live hvalid
    obtain ⟨fresh, hfresh, halike₂⟩ := hcompiled.view h₂.named
    have hget : st₂'.get? = st'.get? := by
      have hobject : s₂.model = .object st'.data := hmodel.trans hafter.model_eq
      rw [Session.model, hst₂] at hobject
      have hsame : st₂.data = st'.data := Value.object.inj hobject
      funext key
      rw [Store.get?, Store.get?, hdata, hsame]
    refine ⟨fresh, hfresh, halike.trans ?_⟩
    rw [hget] at halike₂
    exact (hpicture ▸ halike₂).symm
  · intro field key hbound
    obtain ⟨sl, hsl, hpart, rfl, hname⟩ := (hbefore.bound_iff h.unheard).1 hbound
    obtain ⟨u, hu, hvalue⟩ := hafter.field_value hsl hpart hname
    exact ⟨u, hu, hvalue.trans (congrArg Value.display (hafter.value?_eq sl.key).symm)⟩
  · intro op hlast
    obtain ⟨earlier, rfl⟩ := List.getLast?_eq_some_iff.1 hlast
    obtain ⟨st'', hlive⟩ := hbefore.runAll earlier fun op hop =>
      hsets op (List.mem_append_left _ hop)
    show before.Took (before.runAll options.inputEvent (earlier ++ [op])) op
    rw [runAll_append]
    exact took_of_run hbefore h.unheard hlive op

/-- A paragraph, an input and a text that follow a name. -/
def nameForm : Markup :=
  .element "div" []
    [.element "p" [⟨"v-text", "name"⟩] [.text "nobody"],
     .element "input" [⟨"v-model", "name"⟩] [],
     .text "Hello \x7b\x7b name \x7d\x7d!"]

/-- A session with that view, where the input has a name of its own. -/
def form : Session :=
  (showing (.ofMembers [("name", .string "Ada")]) "root" nameForm).assign "field" 3

/-- A name is set in the `form`, and another one is typed: a copy that is compiled with the latter looks
the same. -/
theorem form_follows_name :
    let after := (form.compiled "root" {}).runAll "input"
      [.write "name" (.string "Bo"), .type "field" "Eve"]
    let copy := showing after.model "copy" nameForm
    ∃ live fresh, after.view? "root" = some live ∧
      (copy.compiled "copy" {}).view? "copy" = some fresh ∧ live.picture.Alike fresh.picture ∧
      after.value? none "name" = some (.string "Eve") := by
  intro after copy
  have htemplate : View.isTemplateRow {}
      (View.ofMarkup 0 nameForm : View Client × NodeId).1.children = true := rfl
  have hform : form.Presents "root" (View.ofMarkup 0 nameForm).1 {} :=
    (presents_showing _ "root" rfl htemplate).assign (by decide) 3
  have hcopy : copy.Presents "copy" (View.ofMarkup 0 nameForm).1 {} :=
    presents_showing _ "copy" rfl htemplate
  have hvalid : ({} : Options).flaw? = none := rfl
  have hbound : (form.compiled "root" {}).Bound "field" "name" := by
    obtain ⟨-, st, -, -, hlive⟩ := hform.live hvalid
    have hslot : ⟨3, "name", .field⟩ ∈ hform.layout.slots := by
      show _ ∈ View.slotsRow {} (View.ofMarkup 0 nameForm : View Client × NodeId).1.children
      decide
    exact (hlive.bound_iff hform.unheard).2 ⟨_, hslot, rfl, rfl, Table.get?_insert_self _ _ _⟩
  have hops : ∀ op ∈ [Operation.write "name" (.string "Bo"), .type "field" "Eve"],
      (form.compiled "root" {}).Admits op := by
    intro op hop
    rw [List.mem_cons, List.mem_singleton] at hop
    rcases hop with rfl | rfl
    · trivial
    · exact ⟨"name", hbound⟩
  have hmodel : copy.model = after.model := by
    obtain ⟨data, hdata⟩ := after.exists_model_eq
    show (showing after.model "copy" nameForm).model = after.model
    rw [hdata]
    exact model_showing data "copy" rfl
  obtain ⟨live, hlive, hfresh, -, htook⟩ := live_update_eq_recompile hform hvalid _ hops
  obtain ⟨fresh, hcopied, halike⟩ := hfresh copy "copy" _ hcopy rfl hmodel
  have htyped := htook (.type "field" "Eve") rfl "name" hbound
  exact ⟨live, fresh, hlive, hcopied, halike, htyped⟩

end Session

end ViewBinding
