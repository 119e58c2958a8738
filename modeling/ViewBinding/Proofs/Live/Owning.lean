import ViewBinding.Proofs.Compile.Freezing
import ViewBinding.Proofs.Guards.Aimed
import ViewBinding.Proofs.World.Content

/-!
# A content that its node owns

Binding the text content of an element makes it the owner of its content: nothing is bound there, no other
observer shows a value there, and so the content is what the bound key says.  One case is different.  An
element that shows the value already, through a single text, keeps that text, and with it whatever binds
it.

* `Owning` — a node that owns its content, where only data-only code is left.
* `Tracks` — what holds between a session and a later one for the content of such a node;
  `Tracks.refresh` is the step where an observer shows a value.
* `steady_owning` — no value, no event and no name takes the content from its owner.
* `text_directive_owns_content` — what binding a content comes to, and what follows for all that runs later.
-/

namespace ViewBinding

open Json (Value)
open List

namespace Session

variable {n : NodeId} {s s₁ s₂ s' : Session} {new new₁ new₂ : List Happening}

/-! ## Who shows values where -/

/-- Whether no observer shows its value at a node of a row (`target?`). -/
def Spares (s : Session) (row : Forest (Node Client)) : Prop :=
  s.world.stores.All fun o => ∀ m, o.target? = some m → m ∉ Forest.ids row

/-- Whether the content of a node follows a key of a store, as `v-text` lets it. -/
def ContentFollows (s : Session) (n : NodeId) (store : StoreId) (key : String) : Prop :=
  ∃ st : Store Client, s.world.stores[store]? = some st ∧ ∃ id, (id, .content n) ∈ st.observersOf key

/-- A session in which a node that is an element, if it is still there, owns its content: nothing in the
content is bound, no observer shows a value there, and only data-only code is left (`DataOnly`). -/
structure Owning (n : NodeId) (s : Session) : Prop where
  aimed : s.Aimed
  old : n < s.world.next
  dataOnly : s.DataOnly
  element : ∀ t, s.world.forest.find? n = some t → t.val.isElement = true
  free : ∀ t : View Client, s.world.forest.find? n = some t → t.Free
  spared : ∀ t, s.world.forest.find? n = some t → s.Spares t.children

/-! ## What a run does to the content -/

/-- What holds between a session and a later one, where `new` happened in between: the content of a node,
if it is still there, is the same, or it shows a value that was written to a key which the content
follows. -/
structure Tracks (n : NodeId) (s : Session) (new : List Happening) (s' : Session) : Prop where
  aimed : s'.Aimed
  next : s.world.next ≤ s'.world.next
  observers : s'.world.stores.Within s.world.stores
  listeners : Unheard (Forest.nodes s'.world.forest) (Forest.nodes s.world.forest)
  history : s'.history = new ++ s.history
  content : ∀ t', s'.world.forest.find? n = some t' → ∃ t, s.world.forest.find? n = some t ∧
    t'.val.isElement = t.val.isElement ∧ (t'.children = t.children ∨ ∃ number store key value fresh,
      .wrote number store key value ∈ new ∧ s.ContentFollows n store key ∧ s.world.next ≤ fresh ∧
        t'.children = View.textRow fresh (Value.display (some value)))

theorem ContentFollows.within {store : StoreId} {key : String} (h : s₁.ContentFollows n store key)
    (hwithin : s₁.world.stores.Within s.world.stores) : s.ContentFollows n store key := by
  obtain ⟨st₁, hst₁, id, hentry⟩ := h
  obtain ⟨st, hst, hsubset⟩ := hwithin store st₁ hst₁
  exact ⟨st, hst, id, hsubset key hentry⟩

/-- No content follows a key that has no observers. -/
theorem ContentFollows.observed {store : StoreId} {key : String} (h : s.ContentFollows n store key) :
    ∃ st ∈ s.world.stores, st.observersOf key ≠ [] := by
  obtain ⟨st, hst, id, hentry⟩ := h
  exact ⟨st, List.mem_of_getElem? hst, List.ne_nil_of_mem hentry⟩

namespace Tracks

/-- Where a node that is left has the content that it had. -/
theorem of_content (haimed : s'.Aimed) (hnext : s.world.next ≤ s'.world.next)
    (hobservers : s'.world.stores.Within s.world.stores)
    (hlisteners : Unheard (Forest.nodes s'.world.forest) (Forest.nodes s.world.forest))
    (hhistory : s'.history = new ++ s.history)
    (hcontent : ∀ t', s'.world.forest.find? n = some t' → ∃ t, s.world.forest.find? n = some t ∧
      t'.val.isElement = t.val.isElement ∧ t'.children = t.children) : s.Tracks n new s' where
  aimed := haimed
  next := hnext
  observers := hobservers
  listeners := hlisteners
  history := hhistory
  content t' ht' :=
    let ⟨t, ht, hkind, hsame⟩ := hcontent t' ht'
    ⟨t, ht, hkind, Or.inl hsame⟩

/-- Only the history, and who is held, matter less than the world. -/
theorem of_world (haimed : s'.Aimed) (hworld : s'.world = s.world)
    (hhistory : s'.history = new ++ s.history) : s.Tracks n new s' :=
  of_content haimed (Nat.le_of_eq (by rw [hworld])) (hworld ▸ Stores.Within.refl _)
    (hworld ▸ Unheard.refl _) hhistory fun t' ht' => ⟨t', hworld ▸ ht', rfl, rfl⟩

theorem trans (h₁ : s.Tracks n new₁ s₁) (h₂ : s₁.Tracks n new₂ s₂) :
    s.Tracks n (new₂ ++ new₁) s₂ where
  aimed := h₂.aimed
  next := Nat.le_trans h₁.next h₂.next
  observers := h₂.observers.trans h₁.observers
  listeners := h₂.listeners.trans h₁.listeners
  history := by rw [h₂.history, h₁.history, List.append_assoc]
  content t₂ ht₂ := by
    obtain ⟨t₁, ht₁, hkind₂, hlater⟩ := h₂.content t₂ ht₂
    obtain ⟨t, ht, hkind₁, hearlier⟩ := h₁.content t₁ ht₁
    refine ⟨t, ht, hkind₂.trans hkind₁, ?_⟩
    rcases hlater with hsame | ⟨number, store, key, value, fresh, hwrote, hfollows, hfresh, hrow⟩
    · rw [hsame]
      refine hearlier.imp_right ?_
      rintro ⟨number, store, key, value, fresh, hwrote, hrest⟩
      exact ⟨number, store, key, value, fresh, List.mem_append_right _ hwrote, hrest⟩
    · exact Or.inr ⟨number, store, key, value, fresh, List.mem_append_left _ hwrote,
        hfollows.within h₁.observers, Nat.le_trans h₁.next hfresh, hrow⟩

/-- Whoever shows a value in the session shows none in the content later on: a new text is nobody's
place. -/
theorem spares (h : s.Tracks n new s') (hs : Owning n s) {t' : View Client}
    (ht' : s'.world.forest.find? n = some t') : s.Spares t'.children := by
  obtain ⟨t, ht, -, hsame | ⟨_, _, _, _, fresh, _, _, hfresh, hrow⟩⟩ := h.content t' ht'
  · rw [hsame]
    exact hs.spared t ht
  · intro st hst key entry hentry m hm hin
    rw [hrow] at hin
    have hlt := hs.aimed.target_lt hst hentry hm
    rw [View.eq_of_mem_ids_textRow hin] at hlt
    exact absurd hfresh (Nat.not_le.2 hlt)

/-- A node that owns its content goes on owning it, across whatever `Tracks` it. -/
theorem owning (h : s.Tracks n new s') (hs : Owning n s) : Owning n s' where
  aimed := h.aimed
  old := Nat.lt_of_lt_of_le hs.old h.next
  dataOnly :=
    { observers := Stores.All.within hs.dataOnly.observers h.observers
      listeners := fun x hx r hr => by
        rcases h.listeners x hx with hnone | ⟨y, hy, heq⟩
        · rw [hnone] at hr
          exact absurd hr List.not_mem_nil
        · exact hs.dataOnly.listeners y hy r (heq ▸ hr) }
  element t' ht' := by
    obtain ⟨t, ht, hkind, -⟩ := h.content t' ht'
    exact hkind.trans (hs.element t ht)
  free t' ht' := by
    obtain ⟨t, ht, -, hsame | ⟨_, _, _, _, fresh, _, _, _, hrow⟩⟩ := h.content t' ht'
    · exact (hs.free t ht).of_children hsame
    · unfold View.Free
      rw [hrow]
      exact View.free_textRow fresh _
  spared t' ht' := (h.spares hs ht').within h.observers

/-- An observer that was there shows a value; if it shows it as the content, the value was written to a
key which the content follows. -/
theorem refresh (h : s.Tracks n new s₁) (hs : Owning n s) {st : Store Client}
    (hst : st ∈ s.world.stores) {k : String} {entry : Nat × Observer Client}
    (hentry : entry ∈ st.observersOf k) (value : Value)
    (hwrote : entry.2 = .content n → ∃ number store key, .wrote number store key value ∈ new ∧
      s.ContentFollows n store key) :
    s.Tracks n new { s₁ with world := s₁.world.refresh entry.2 value } where
  aimed := h.aimed.step (.refresh s₁ entry.2 value)
  next := Nat.le_trans h.next (s₁.world.advances_refresh entry.2 value).next
  observers := (s₁.world.within_refresh entry.2 value).trans h.observers
  listeners :=
    (World.unheard_refresh h.aimed.accounted.world.distinct entry.2 value).trans h.listeners
  history := h.history
  content t₂ ht₂ := by
    have hs₁ := h.owning hs
    have hd := h.aimed.accounted.world.distinct
    cases hfound : s₁.world.forest.find? n with
    | none =>
      have hgone := World.find?_refresh_or hd entry.2 value hs₁.old fun v hv =>
        absurd (hfound.symm.trans hv) (by simp)
      rw [hfound, Option.map_none, or_self] at hgone
      exact absurd (hgone.symm.trans ht₂) (by simp)
    | some t₁ =>
      obtain ⟨u, hu, hkind, hrow⟩ := World.children_refresh hd hs₁.old hfound (hs₁.element t₁ hfound)
        (hs₁.free t₁ hfound) entry.2 value (h.spares hs hfound st hst k entry hentry)
      obtain rfl : u = t₂ := Option.some.inj (hu.symm.trans ht₂)
      obtain ⟨t, ht, hkind₁, hearlier⟩ := h.content t₁ hfound
      refine ⟨t, ht, hkind.trans ((hs₁.element t₁ hfound).symm.trans hkind₁), ?_⟩
      rcases hrow with hsame | ⟨hcontent, hnew⟩
      · rw [hsame]
        exact hearlier
      · obtain ⟨number, store, key, hin, hfollows⟩ := hwrote hcontent
        exact Or.inr ⟨number, store, key, value, _, hin, hfollows, h.next, hnew⟩

end Tracks

/-! ## One change -/

namespace Owning

theorem tracks_of_world (h : Owning n s) (hworld : s'.world = s.world) (hnodes : s'.nodes = s.nodes)
    (hguards : s'.guards = s.guards) (hhistory : s'.history = new ++ s.history) : s.Tracks n new s' :=
  .of_world (h.aimed.of_eq hworld hnodes hguards) hworld hhistory

theorem tracks_busy (h : Owning n s) (nodes : List NodeId) (stores : List StoreId) :
    s.Tracks n [] { s with busyNodes := nodes, busyStores := stores } :=
  h.tracks_of_world rfl rfl rfl rfl

theorem tracks_record (h : Owning n s) (x : Happening) : s.Tracks n [x] (s.record x) :=
  h.tracks_of_world rfl rfl rfl rfl

theorem tracks_write (h : Owning n s) (store : StoreId) (key : String) (value : Value) :
    s.Tracks n [.wrote s.deliveries store key value] (s.write store key value) :=
  .of_content ((h.aimed.write store key value).of_eq rfl rfl rfl) (Nat.le_refl _)
    (Stores.within_update _ store fun _ _ => List.Subset.refl _) (Unheard.refl _) rfl
    fun t' ht' => ⟨t', ht', rfl, rfl⟩

theorem tracks_sweep (h : Owning n s) : s.Tracks n [] s.sweep := by
  refine .of_content (h.aimed.step (.sweep s)) (Nat.le_refl _) (Stores.within_endGuards _ _)
    (fun x hx => Or.inr ⟨x, World.nodes_sweepRow _ _ x hx, rfl⟩) rfl fun t' ht' => ?_
  rcases World.find?_sweep h.aimed.accounted.world.distinct s.holdsNode n with heq | ⟨hnone, -⟩
  · exact ⟨t', heq.symm.trans ht', rfl, rfl⟩
  · exact absurd (hnone.symm.trans ht') (by simp)

theorem tracks_handle (h : Owning n s) (x : Handle) : s.Tracks n [] (s.handle x).2 := by
  have haimed := h.aimed.step (.handle s x)
  obtain ⟨nodes, heq | ⟨m, heq⟩⟩ := s.handle_cases x
  · rw [heq] at haimed ⊢
    exact .of_world haimed rfl rfl
  · rw [heq] at haimed ⊢
    exact .of_content haimed (View.le_ofMarkup _ m) (Stores.Within.refl _) (s.world.unheard_build m) rfl
      fun t' ht' => ⟨t', (World.find?_build m h.old).symm.trans ht', rfl, rfl⟩

end Owning

/-! ## Runs -/

/-- What some run of a session comes to that leaves the content of a node alone, but for values that the
content follows. -/
def Tracking (n : NodeId) (s s' : Session) : Prop := ∃ new, s.Tracks n new s'

/-- A value is set.  Whoever is told was there when it was written. -/
theorem tracking_set {call : Caller} (hcall : Keeps call (Owning n) (Tracking n)) {store : StoreId}
    {key : String} {value : Value} (hs : Owning n s)
    (h : Session.set call store key value s = some s') : s.Tracking n s' := by
  rcases set_cases h with ⟨rfl, -⟩ | ⟨st, after, hst, -, hafter, rfl⟩
  · exact ⟨[], hs.tracks_of_world rfl rfl rfl rfl⟩
  · -- since the write, all that was told was told with it in the history
    have hwritten : s.Tracks n [.wrote s.deliveries store key value]
        { s.write store key value with busyStores := store :: s.busyStores } := by
      have hwrite := hs.tracks_write store key value
      exact hwrite.trans ((hwrite.owning hs).tracks_busy s.busyNodes (store :: s.busyStores))
    obtain ⟨rest, ⟨-, new, -, hlast⟩, -⟩ := deliver_exit
      (I := fun rest s₁ => rest ⊆ st.observersOf key ∧
        ∃ new, .wrote s.deliveries store key value ∈ new ∧ s.Tracks n new s₁)
      (fun {id observer rest s₁ s₂} hI _ htell => by
        obtain ⟨hrest, new, hwrote, hs₁⟩ := hI
        refine ⟨fun entry hin => hrest (List.mem_cons_of_mem _ hin), ?_⟩
        have hentry : (id, observer) ∈ st.observersOf key := hrest List.mem_cons_self
        have htold := hs₁.trans
          ((hs₁.owning hs).tracks_record (.told s.deliveries store ⟨id, key⟩ value))
        have hwrote' := List.mem_append_right [Happening.told s.deliveries store ⟨id, key⟩ value] hwrote
        have hclient : ∀ {code}, Client.DataOnly code →
            call none code value (s₁.record (.told s.deliveries store ⟨id, key⟩ value)) = some s₂ →
            ∃ new, .wrote s.deliveries store key value ∈ new ∧ s.Tracks n new s₂ := fun hdataOnly hrun => by
          obtain ⟨more, hmore⟩ := hcall none _ value _ _ hdataOnly (htold.owning hs) hrun
          exact ⟨_, List.mem_append_right more hwrote', htold.trans hmore⟩
        have hshown : some { s₁.record (.told s.deliveries store ⟨id, key⟩ value) with
              world := s₁.world.refresh observer value }.sweep = some s₂ →
            ∃ new, .wrote s.deliveries store key value ∈ new ∧ s.Tracks n new s₂ := fun heq => by
          have hrefresh := htold.refresh hs (List.mem_of_getElem? hst) hentry value
            fun hcontent => ⟨_, _, _, hwrote', st, hst, id, hcontent ▸ hentry⟩
          rw [← Option.some.inj heq]
          exact ⟨_, hwrote', hrefresh.trans (hrefresh.owning hs).tracks_sweep⟩
        have hdataOnly := hs.dataOnly.observers st (List.mem_of_getElem? hst) key _ hentry
        cases observer with
        | client code => exact hclient hdataOnly htell
        | retained code => exact hclient hdataOnly htell
        | content m => exact hshown htell
        | field m => exact hshown htell
        | marker m template marker => exact hshown htell)
      ⟨List.Subset.refl _, _, List.mem_singleton_self _, hwritten⟩ hafter
    exact ⟨_, hlast.trans ((hlast.owning hs).tracks_busy s.busyNodes s.busyStores)⟩

/-- **No value, no event and no name** takes the content from a node that owns it. -/
theorem steady_owning (n : NodeId) : Steady (Owning n) (Tracking n) where
  listeners h := h.dataOnly.listeners
  keeps hs := fun ⟨_, h⟩ => h.owning hs
  trans := fun ⟨_, h₁⟩ ⟨_, h₂⟩ => ⟨_, h₁.trans h₂⟩
  busy nodes stores h := ⟨[], h.tracks_busy nodes stores⟩
  record x _ h := ⟨[x], h.tracks_record x⟩
  begin x _ h := ⟨[x _], h.tracks_of_world rfl rfl rfl rfl⟩
  set hcall _ _ _ _ _ h hset := tracking_set hcall h hset
  sweep h := ⟨[], h.tracks_sweep⟩
  handle x h := ⟨[], h.tracks_handle x⟩

/-- Whatever comes later, the node goes on owning its content. -/
theorem Owning.onward (hs : Owning n s) (h : Onward s s') : Owning n s' := by
  induction h with
  | refl => exact hs
  | forget h ih =>
    exact ⟨ih.aimed.of_eq rfl rfl rfl, ih.old, ⟨ih.dataOnly.observers, ih.dataOnly.listeners⟩, ih.element,
      ih.free, ih.spared⟩
  | act h hasks hact ih =>
    obtain ⟨new, htracks⟩ :=
      (steady_owning n).act ((steady_owning n).invoke depth) _ hasks ih hact
    exact htracks.owning ih

/-- The observer of the content shows a value. -/
theorem Owning.tell_content (hs : Owning n s) {t t' : View Client}
    (ht : s.world.forest.find? n = some t) {call : Caller} {value : Value}
    (htell : tell call (.content n) value s = some s') (ht' : s'.world.forest.find? n = some t') :
    t'.textContent = Value.display (some value) ∧ t'.Free := by
  have helement := hs.element t ht
  obtain ⟨u, hu, hwritten⟩ := World.find?_refresh_content ht helement value
  obtain rfl := Option.some.inj htell
  have hd : (s.world.refresh (.content n) value).forest.Distinct :=
    (hs.aimed.step (.refresh s (.content n) value)).accounted.world.distinct
  obtain rfl : u = t' := by
    rcases World.find?_sweep hd _ n with heq | ⟨hnone, -⟩
    · exact Option.some.inj (hu.symm.trans (heq.symm.trans ht'))
    · exact absurd (hnone.symm.trans ht') (by simp)
  exact ⟨hwritten.textContent_eq helement, hwritten.free_iff.2 fun _ => hs.free t ht⟩

/-- An action leaves the content as it is, or shows there what it wrote to a key that the content
follows. -/
theorem Owning.act (hs : Owning n s) {t : View Client} (ht : s.world.forest.find? n = some t)
    {scope : Option StoreId} {a : Action} {reply : Reply} (hasks : a.Asks Command.isOutward)
    (hact : Session.act (invoke depth) scope a s = some (reply, s')) :
    ∃ new, s'.history = new ++ s.history ∧
      ∀ t' : View Client, s'.world.forest.find? n = some t' → t'.Free ∧
        (t'.children = t.children ∨ ∃ number store key value, .wrote number store key value ∈ new ∧
          s.ContentFollows n store key ∧ t'.textContent = Value.display (some value)) := by
  obtain ⟨new, htracks⟩ := (steady_owning n).act ((steady_owning n).invoke depth) a hasks hs hact
  refine ⟨new, htracks.history, fun t' ht' => ⟨(htracks.owning hs).free t' ht', ?_⟩⟩
  obtain ⟨v, hv, hkind, hsame | ⟨number, store, key, value, fresh, hwrote, hfollows, -, hnew⟩⟩ :=
    htracks.content t' ht'
  · exact Or.inl (Option.some.inj (ht.symm.trans hv) ▸ hsame)
  · refine Or.inr ⟨number, store, key, value, hwrote, hfollows, ?_⟩
    rw [View.textContent_of_element (hkind.trans (hs.element v hv)), hnew, View.rowChars_textRow]

/-! ## Binding a content -/

/-- What holds between a session with a view that is an element, and the session `after` with the view
`bound` that stands there when its content is bound and shows a text. -/
structure ContentBound (s : Session) (t : View Client) (text : String) (after : Session)
    (bound : View Client) : Prop where
  nodes : after.nodes = s.nodes
  found : after.world.forest.find? t.id = some bound
  element : bound.val.isElement = true
  rewritten : ∃ u : View Client, View.Rewritten s.world.next text t u ∧ bound.children = u.children
  observers : ∀ p : Observer Client → Prop, s.world.stores.All p → p (.content t.id) →
    after.world.stores.All p

/-- Binding a content comes to that, whatever stood there before. -/
theorem exists_contentBound {name : String} {t : View Client} (ht : s.view? name = some t)
    (helement : t.val.isElement = true) (key directive : String) (modifier : Option String)
    (value : Option Value) (options : Options) : ∃ after bound,
      s.bind (.apply name .textSync key modifier directive value options) =
        (.applied .boundContent [], after) ∧
      ContentBound s t (Value.display (value.or (s.value? none key))) after bound := by
  have hfound := (view?_eq_some ht).2
  let text := Value.display (value.or (s.value? none key))
  let written := s.world.wiring.writeText text t
  let bound := written.2.2.watch s.store key (.content t.id) written.1
  have hid : bound.1.id = t.id :=
    (Wiring.root_watch _ _ _ _ _).1.trans (s.world.wiring.id_writeText text t)
  have hwritten : View.Rewritten s.world.next text t written.1 :=
    View.rewritten_setText s.world.next text helement
  have hdiagnostics : bound.2.diagnostics = [] :=
    (Wiring.diagnostics_watch _ _ _ _ _).trans (Wiring.diagnostics_writeText _ _ _)
  refine ⟨{ s with world := s.world.settle t.id bound.1 bound.2 }, bound.1, ?_,
    { nodes := rfl
      found := World.find?_settle hfound hid bound.2
      element := (Wiring.root_watch _ _ _ _ _).2.trans (hwritten.val_eq ▸ helement)
      rewritten := ⟨written.1, hwritten, Wiring.children_watch _ _ _ _ _⟩
      observers := fun p hp ho => Wiring.all_watch
        (hp.within (s.world.wiring.within_writeText text t)) s.store key ho written.1 }⟩
  simp only [Session.bind, changeAt, ht, Session.applyAt, World.applyAt, hfound]
  rw [← hdiagnostics]
  rfl

namespace ContentBound

variable {t bound : View Client} {text : String} {after : Session}

theorem textContent_eq (h : ContentBound s t text after bound) (helement : t.val.isElement = true) :
    bound.textContent = text := by
  obtain ⟨u, hwritten, hrow⟩ := h.rewritten
  rw [View.textContent_of_element h.element, hrow,
    ← View.textContent_of_element (hwritten.val_eq ▸ helement)]
  exact hwritten.textContent_eq helement

/-- Nothing in the content is bound, unless a text was kept in which something was. -/
theorem free_iff (h : ContentBound s t text after bound) :
    bound.Free ↔ (View.showsAlready text t.children = true → t.Free) := by
  obtain ⟨u, hwritten, hrow⟩ := h.rewritten
  rw [← hwritten.free_iff]
  exact ⟨fun hfree => hfree.of_children hrow.symm, fun hfree => hfree.of_children hrow⟩

/-- No observer shows a value in the content, unless a text was kept where one did. -/
theorem spares (h : ContentBound s t text after bound) (haimed : s.Aimed)
    (hdistinct : after.world.forest.Distinct)
    (hclear : View.showsAlready text t.children = true → s.Spares t.children) :
    after.Spares bound.children := by
  obtain ⟨u, hwritten, hrow⟩ := h.rewritten
  have hroot : t.id ∉ Forest.ids bound.children := by
    have hunique := hdistinct.found h.found
    rw [← Forest.find?_id h.found]
    obtain ⟨id, n, row⟩ := bound
    rw [Tree.ids_node, List.nodup_cons] at hunique
    exact hunique.1
  refine h.observers _ ?_ fun m hm => Option.some.inj hm ▸ hroot
  rw [hrow]
  cases hwritten with
  | same hshown => exact hclear hshown
  | new hnew =>
    -- a new text is nobody's place
    intro st hst k entry hentry m hm hin
    obtain ⟨id, n, row⟩ := t
    rw [View.eq_of_mem_ids_textRow hin] at hm
    exact absurd (haimed.target_lt hst hentry hm) (Nat.lt_irrefl _)

/-- The node owns its content then, if only data-only code is left. -/
theorem owning (h : ContentBound s t text after bound) (haimed : s.Aimed) (hafter : after.Aimed)
    (hclear : View.showsAlready text t.children = true → t.Free ∧ s.Spares t.children)
    (hdataOnly : after.sweep.DataOnly) : Owning t.id after.sweep := by
  have honly : ∀ v : View Client, after.sweep.world.forest.find? t.id = some v → v = bound := by
    intro v hv
    rcases World.find?_sweep hafter.accounted.world.distinct after.holdsNode t.id with heq | ⟨hnone, -⟩
    · exact Option.some.inj (hv.symm.trans (heq.trans h.found))
    · exact absurd (hnone.symm.trans hv) (by simp)
  have hspared := h.spares haimed hafter.accounted.world.distinct fun hshown => (hclear hshown).2
  exact
    { aimed := hafter.step (.sweep after)
      old := hafter.accounted.world.lt_next (Forest.mem_ids_of_find? h.found)
      dataOnly := hdataOnly
      element := fun v hv => honly v hv ▸ h.element
      free := fun v hv => honly v hv ▸ h.free_iff.2 fun hshown => (hclear hshown).1
      spared := fun v hv => by
        rw [honly v hv]
        exact hspared.within (Stores.within_endGuards _ _) }

end ContentBound

/-- **A text directive and the content of its node.**  Take any session that can be reached, and an
element in it that has a name, and bind its text content to a key.  Then it shows the value.  Nothing in
its content is bound, unless the element showed the value already, through a single text in which
something was bound: that text is kept with all that binds it.

Suppose that nothing was bound there in that case, and no observer showed a value there, and that values
and events reach only code that reads and writes stores.  Then whatever values are set to whatever stores,
and wherever events are fired afterwards, nothing in the content is ever bound.  Whenever the observer of
the content is told of a value, the content shows it.  An action leaves the content as it is unless it
writes a key that the content follows, and then the content shows a value that was written to such a
key. -/
theorem text_directive_owns_content {model : Value} {methods : List (String × Client)} {s : Session}
    (hreachable : Moves (start model methods) s) {name : String} {t : View Client}
    (ht : s.view? name = some t) (helement : t.val.isElement = true) {key directive : String}
    {modifier : Option String} {value : Option Value} {options : Options} {scope : Option StoreId}
    {reply : Reply} {s₁ : Session}
    (hact : act (invoke depth) scope
      (.command (.bind (.apply name .textSync key modifier directive value options))) s =
        some (reply, s₁)) :
    let text := Value.display (value.or (s.value? none key))
    reply = .applied .boundContent [] ∧
    (∃ t₁ : View Client, s₁.view? name = some t₁ ∧ t₁.id = t.id ∧ t₁.textContent = text ∧
      (t₁.Free ↔ (View.showsAlready text t.children = true → t.Free))) ∧
    ((View.showsAlready text t.children = true → t.Free ∧ s.Spares t.children) → s₁.DataOnly →
      ∀ s₂, Onward s₁ s₂ → ∀ t₂ : View Client, s₂.world.forest.find? t.id = some t₂ → t₂.Free ∧
        (∀ (call : Caller) v s₃ (t₃ : View Client), tell call (.content t.id) v s₂ = some s₃ →
          s₃.world.forest.find? t.id = some t₃ →
            t₃.textContent = Value.display (some v) ∧ t₃.Free) ∧
        ∀ scope a reply s₃, a.Asks Command.isOutward →
          act (invoke depth) scope a s₂ = some (reply, s₃) →
          ∃ new, s₃.history = new ++ s₂.history ∧
            ∀ t₃ : View Client, s₃.world.forest.find? t.id = some t₃ → t₃.Free ∧
              (t₃.children = t₂.children ∨ ∃ number store key v, .wrote number store key v ∈ new ∧
                s₂.ContentFollows t.id store key ∧ t₃.textContent = Value.display (some v))) := by
  intro text
  have haimed : s.Aimed := hreachable.aimed
  have hname := (view?_eq_some ht).1
  obtain ⟨after, bound, hbind, hbound⟩ :=
    exists_contentBound ht helement key directive modifier value options
  have hperform : s.perform (invoke depth) scope
      (.bind (.apply name .textSync key modifier directive value options)) =
        some (.applied .boundContent [], after) := congrArg some hbind
  obtain ⟨rfl, rfl⟩ := Prod.mk.inj (Option.some.inj ((act_command hperform).symm.trans hact))
  have hafter : after.Aimed := by
    have hstep := haimed.step (.bind s (.apply name .textSync key modifier directive value options))
    rwa [hbind] at hstep
  have hview : after.sweep.view? name = some bound := by
    have hentry : (name, t.id) ∈ after.nodes := hbound.nodes ▸ Table.mem_of_get? hname
    have hname₁ : after.nodes.get? name = some t.id := hbound.nodes ▸ hname
    exact (congrArg (Option.bind · _) hname₁).trans
      ((find?_sweep_of_mem hafter.accounted.world.distinct hentry).trans hbound.found)
  refine ⟨rfl, ⟨bound, hview, Forest.find?_id hbound.found, hbound.textContent_eq helement,
    hbound.free_iff⟩, fun hclear hdataOnly s₂ honward t₂ ht₂ => ?_⟩
  have howning := (hbound.owning haimed hafter hclear hdataOnly).onward honward
  exact ⟨howning.free t₂ ht₂, fun call v s₃ t₃ htell ht₃ => howning.tell_content ht₂ htell ht₃,
    fun scope a reply s₃ hasks hact₂ => howning.act ht₂ hasks hact₂⟩

/-- An element with a text that shows one of two keys. -/
def markedText (a b : String) : Session :=
  (start (.ofMembers [("a", .string a), ("b", .string b)]) []).runs
    [.command (.handle (.build "root" (.element "p" [] [.text "\x7b\x7b b \x7d\x7d"]))),
      .command (.handle (.find "text" "root" none 0)),
      .command (.bind (.text "text" ("\x7b\x7b", "\x7d\x7d")))]

theorem moves_markedText (a b : String) :
    Moves (start (.ofMembers [("a", .string a), ("b", .string b)]) []) (markedText a b) :=
  moves_runs _ _

/-- The content of the element is bound to the other key. -/
def bindContent : Action := .command (.bind (.apply "root" .textSync "a" none "v-text" none {}))

/-- The key that the text shows is set. -/
def setShownKey : Action := .command (.set "b" (.string "y"))

/-- Where the keys have different values, the element `root` shows another one than that of `a`. -/
theorem view_markedText_differing : Value.display ((markedText "z" "x").value? none "a") = "z" ∧
    ∃ t : View Client, (markedText "z" "x").view? "root" = some t ∧ t.id = 0 ∧
      t.val.isElement = true ∧ View.showsAlready "z" t.children = false := by
  have hroot : ((markedText "z" "x").view? "root").map (fun t =>
      (t.id, t.val.isElement, View.showsAlready "z" t.children)) = some (0, true, false) := by
    decide +kernel
  obtain ⟨t, ht, hfields⟩ := Option.map_eq_some_iff.1 hroot
  obtain ⟨hid, hfields⟩ := Prod.mk.inj hfields
  exact ⟨by decide +kernel, t, ht, hid, Prod.mk.inj hfields⟩

/-- Where they have the same value, it shows that one already, through a text that is bound. -/
theorem view_markedText_same : Value.display ((markedText "x" "x").value? none "a") = "x" ∧
    ∃ t : View Client, (markedText "x" "x").view? "root" = some t ∧
      t.val.isElement = true ∧ View.showsAlready "x" t.children = true ∧ ¬ View.Free t := by
  have hroot : ((markedText "x" "x").view? "root").map (fun t => (t.val.isElement,
      View.showsAlready "x" t.children,
      (Forest.nodes t.children).all fun x => x.2.guards.isEmpty)) = some (true, true, false) := by
    decide +kernel
  obtain ⟨t, ht, hfields⟩ := Option.map_eq_some_iff.1 hroot
  obtain ⟨helement, hsame, hguards⟩ := by simpa using hfields
  refine ⟨by decide +kernel, t, ht, helement, hsame, fun hfree => ?_⟩
  obtain ⟨i, n, hx, hheld⟩ := hguards
  exact hheld (hfree _ hx).2

/-- Both actions run where the values differ.  In between there is only data-only code, and nobody
observes `b` any more, the only key that is written. -/
theorem runs_markedText_differing : ∃ reply s₁ reply₂ s₂,
    act (invoke depth) none bindContent (markedText "z" "x") = some (reply, s₁) ∧ s₁.DataOnly ∧
      (∀ st ∈ s₁.world.stores, st.observersOf "b" = []) ∧
      act (invoke depth) none setShownKey s₁ = some (reply₂, s₂) ∧
      Happening.writtenKeys s₂.history = ["b"] ∧ s₂.outer? "root" = some "<p>z</p>" := by
  have hlater : ((act (invoke depth) none bindContent (markedText "z" "x")).bind fun r =>
      (act (invoke depth) none setShownKey r.2).map fun r' =>
        (Happening.writtenKeys r'.2.history, r'.2.outer? "root")) =
      some (["b"], some "<p>z</p>") := by
    decide +kernel
  have hbound : ((act (invoke depth) none bindContent (markedText "z" "x")).map fun r =>
      (r.2.world.stores.all (fun st => st.observers.all fun row =>
        row.2.all fun entry => entry.2.target?.isSome),
      (Forest.nodes r.2.world.forest).all (fun x => x.2.listeners.isEmpty),
      r.2.world.stores.all fun st => (st.observersOf "b").isEmpty)) = some (true, true, true) := by
    decide +kernel
  obtain ⟨⟨reply, s₁⟩, hact, hset⟩ := Option.bind_eq_some_iff.1 hlater
  obtain ⟨⟨reply₂, s₂⟩, hact₂, hafter⟩ := Option.map_eq_some_iff.1 hset
  obtain ⟨hkeys, houter⟩ := Prod.mk.inj hafter
  rw [hact, Option.map_some, Option.some.injEq, Prod.mk.injEq, Prod.mk.injEq] at hbound
  obtain ⟨hobservers, hsilent, hnobody⟩ := hbound
  have hdataOnly : s₁.DataOnly := dataOnly_of_targets hobservers fun x hx r hr => by
    rw [List.isEmpty_iff.1 (List.all_eq_true.1 hsilent x hx)] at hr
    exact absurd hr List.not_mem_nil
  exact ⟨reply, s₁, reply₂, s₂, hact, hdataOnly,
    fun st hst => List.isEmpty_iff.1 (List.all_eq_true.1 hnobody st hst), hact₂, hkeys, houter⟩

/-- They run where the values are the same, and the element follows `b`. -/
theorem runs_markedText_same : ∃ reply s₁ reply₂ s₂,
    act (invoke depth) none bindContent (markedText "x" "x") = some (reply, s₁) ∧
      act (invoke depth) none setShownKey s₁ = some (reply₂, s₂) ∧
      s₂.outer? "root" = some "<p>y</p>" := by
  have hlater : ((act (invoke depth) none bindContent (markedText "x" "x")).bind fun r =>
      (act (invoke depth) none setShownKey r.2).map fun r' => r'.2.outer? "root") =
      some (some "<p>y</p>") := by
    decide +kernel
  obtain ⟨⟨reply, s₁⟩, hact, hset⟩ := Option.bind_eq_some_iff.1 hlater
  obtain ⟨⟨reply₂, s₂⟩, hact₂, houter⟩ := Option.map_eq_some_iff.1 hset
  exact ⟨reply, s₁, reply₂, s₂, hact, hact₂, houter⟩

/-- Bound to a key of another value, the element owns its content, and what the text showed is set without
effect.  Bound to a key of the same value, it keeps the text with what binds it, and goes on showing what
the text does. -/
theorem content_owned_unless_shown :
    (∃ t₁ reply s₁ reply₂ s₂, act (invoke depth) none bindContent (markedText "z" "x") = some (reply, s₁) ∧
      s₁.view? "root" = some t₁ ∧ View.Free t₁ ∧
      act (invoke depth) none setShownKey s₁ = some (reply₂, s₂) ∧
      (∀ t₂ : View Client, s₂.world.forest.find? 0 = some t₂ → t₂.children = t₁.children) ∧
      s₂.outer? "root" = some "<p>z</p>") ∧
    ∃ t₁ reply s₁ reply₂ s₂, act (invoke depth) none bindContent (markedText "x" "x") = some (reply, s₁) ∧
      s₁.view? "root" = some t₁ ∧ View.textContent t₁ = "x" ∧ ¬ View.Free t₁ ∧
      act (invoke depth) none setShownKey s₁ = some (reply₂, s₂) ∧ s₂.outer? "root" = some "<p>y</p>" := by
  constructor
  · obtain ⟨hshown, t, ht, hid, helement, hnew⟩ := view_markedText_differing
    obtain ⟨reply, s₁, reply₂, s₂, hact, hdataOnly, hnobody, hact₂, hkeys, houter⟩ :=
      runs_markedText_differing
    obtain ⟨-, ⟨t₁, ht₁, hid₁, -, -⟩, howned⟩ :=
      text_directive_owns_content (moves_markedText _ _) ht helement hact
    rw [Option.none_or, hshown] at howned
    have hfound₁ : s₁.world.forest.find? t.id = some t₁ := hid₁ ▸ (view?_eq_some ht₁).2
    obtain ⟨hfree, -, hlast⟩ := howned (fun h => absurd (h.symm.trans hnew) (by simp)) hdataOnly s₁ .refl t₁
      hfound₁
    obtain ⟨new, hhistory, hcontent⟩ := hlast none setShownKey reply₂ s₂ ⟨rfl, fun _ => trivial⟩ hact₂
    refine ⟨t₁, reply, s₁, reply₂, s₂, hact, ht₁, hfree, hact₂, fun t₂ ht₂ => ?_, houter⟩
    obtain ⟨-, hsame | ⟨number, store, key, v, hwrote, hfollows, -⟩⟩ := hcontent t₂ (hid ▸ ht₂)
    · exact hsame
    · have hkey : key ∈ Happening.writtenKeys s₂.history := Happening.mem_writtenKeys.2
        ⟨number, store, v, hhistory ▸ List.mem_append_left _ hwrote⟩
      obtain rfl : key = "b" := List.mem_singleton.1 (hkeys ▸ hkey)
      obtain ⟨st, hst, hobserved⟩ := hfollows.observed
      exact absurd (hnobody st hst) hobserved
  · obtain ⟨hshown, t, ht, helement, hsame, hbound⟩ := view_markedText_same
    obtain ⟨reply, s₁, reply₂, s₂, hact, hact₂, houter⟩ := runs_markedText_same
    obtain ⟨-, ⟨t₁, ht₁, -, htext, hfree⟩, -⟩ :=
      text_directive_owns_content (moves_markedText _ _) ht helement hact
    rw [Option.none_or, hshown] at htext hfree
    exact ⟨t₁, reply, s₁, reply₂, s₂, hact, ht₁, htext, fun hclear => hbound (hfree.1 hclear hsame), hact₂,
      houter⟩

end Session

end ViewBinding
