import ViewBinding.Proofs.Compile.Linking
import ViewBinding.Proofs.Compile.Record
import ViewBinding.Proofs.Guards.Sessions
import ViewBinding.Proofs.Session.Sound

/-!
# Values do not decide what is bound

Two passes over the same view, against stores that differ in their values only, report the same but
for markup that is injected as text, subscribe the same and leave the same guards on the nodes.  For
each of the two passes all that is foreseen from the view and the options (`Foreseen`), so nothing
that a value brings into the view is bound.

There is one thing that a value decides.  A single text below an element with a text directive stays
if it shows the value already, and its listeners with it; otherwise it is replaced, and they are gone
(`Compiler.waveringRow`, `Compiler.showsAll`).

* `Compiler.mem_hearingRow_congr` — beside such texts, the listeners do not depend on the values.
* `exists_foreseen` — what a pass does, foreseen.
* `values_do_not_bind` — two passes against different values.
* `value_keeps_listener` — two values, one of which leaves a text its listener.
-/

namespace ViewBinding

open Json (Value)
open List

variable {κ : Type}

/-! ## What is reported -/

namespace Compiler

variable (c : Compiler κ)

/-- Apart from markup injected as text (`W-MARKUP-FALLBACK`), the finding about a directive does not depend
on a value. -/
theorem filter_finding? (data : String → Option Value) (d : Directive) :
    (c.finding? data d).filter (·.code ≠ Diagnostic.fallbackCode) =
      if c.binds d then none else some (c.complaint d) := by
  have hcomplaint : (c.complaint d).code ≠ Diagnostic.fallbackCode := by
    unfold complaint
    split
    · exact (by decide : Diagnostic.unknownDirectiveCode ≠ Diagnostic.fallbackCode)
    · split
      · exact (by decide : Diagnostic.missingHandlerCode ≠ Diagnostic.fallbackCode)
      · exact (by decide : Diagnostic.missingEventCode ≠ Diagnostic.fallbackCode)
  unfold finding?
  split
  · split
    · simp [Diagnostic.markupFallback]
    · rfl
  · simp [hcomplaint]

theorem filter_diagnostics_tally (data₁ data₂ : String → Option Value) (stops : List (Stop κ)) :
    (c.tally data₁ stops).diagnostics.filter (·.code ≠ Diagnostic.fallbackCode) =
      (c.tally data₂ stops).diagnostics.filter (·.code ≠ Diagnostic.fallbackCode) := by
  simp only [tally, List.filter_filterMap, filter_finding?]

end Compiler

/-! ## Texts that waver -/

/-- Whether a row is a single text. -/
def View.isSingleText : Forest (Node κ) → Bool
  | [.node _ n _] => !n.isElement
  | _ => false

theorem View.isSingleText_of_showsAlready {text : String} {row : Forest (Node κ)}
    (h : View.showsAlready text row = true) : View.isSingleText row = true := by
  unfold View.showsAlready at h
  split at h
  · next id n below =>
    cases hn : n.isElement with
    | false => simp [View.isSingleText, hn]
    | true => simp [Compiler.payload?_of_element hn] at h
  · exact absurd h (by simp)

namespace Compiler

variable (c : Compiler κ)

mutual

/-- The elements with a text directive that a pass meets at or below a node, and below which there is a
single text (`isSingleText`); each with the row below it. -/
def wavering : View κ → List (Node κ × Forest (Node κ))
  | .node _ n row =>
    if !n.isElement || (n.directives c.options).any c.replaces then []
    else if !(n.directives c.options).any c.ownsContent then waveringRow row
    else if View.isSingleText row then [(n, row)] else []

/-- The elements with a text directive that a pass meets in a row, and below which there is a single
text; each with the row below it. -/
def waveringRow : Forest (Node κ) → List (Node κ × Forest (Node κ))
  | [] => []
  | t :: ts => wavering t ++ waveringRow ts

end

variable {c}

/-- A row that is no single text does not show a value already (`showsAll`). -/
theorem showsAll_eq_false {data : String → Option Value} {n : Node κ} {row : Forest (Node κ)}
    (howned : (n.directives c.options).any c.ownsContent = true)
    (hrow : View.isSingleText row = false) : c.showsAll data n row = false := by
  by_contra hall
  rw [Bool.not_eq_false, showsAll, List.all_eq_true] at hall
  obtain ⟨d, hd, hown⟩ := List.any_eq_true.1 howned
  have hkeeps := hall d hd
  rw [keepsRow, hown, Bool.not_true, Bool.false_or] at hkeeps
  rw [View.isSingleText_of_showsAlready hkeeps] at hrow
  exact absurd hrow (by simp)

variable (data data' : String → Option Value)

mutual

theorem mem_hearing_congr : ∀ {t : View κ} {x : NodeId × List (Registered κ)}, x ∈ c.hearing data t →
    (∀ y ∈ c.wavering t, x.1 ∉ Forest.ids y.2) → x ∈ c.hearing data' t
  | .node id n row, x, hx, hsteady => by
    rw [hearing] at hx ⊢
    rw [wavering] at hsteady
    cases hn : n.isElement with
    | false => simpa [hn] using hx
    | true =>
      cases hreplaced : (n.directives c.options).any c.replaces with
      | true => simpa [hn, hreplaced] using hx
      | false =>
        simp only [hn, hreplaced, Bool.not_true, Bool.or_self, Bool.false_eq_true, if_false,
          List.mem_cons] at hx hsteady ⊢
        refine hx.imp_right fun hx => ?_
        cases howned : (n.directives c.options).any c.ownsContent with
        | false =>
          simp only [howned, Bool.not_false, if_true] at hx hsteady ⊢
          exact mem_hearingRow_congr hx hsteady
        | true =>
          simp only [howned, Bool.not_true, Bool.false_eq_true, if_false] at hx hsteady ⊢
          cases hrow : View.isSingleText row with
          | false =>
            rw [showsAll_eq_false howned hrow] at hx ⊢
            exact hx
          | true =>
            -- below a single text nothing is steady
            have hbelow : x.1 ∈ Forest.ids row := by
              have hfst := List.mem_map_of_mem (f := Prod.fst) hx
              split at hfst
              · rwa [View.map_fst_listening] at hfst
              · rwa [View.map_fst_silent] at hfst
            rw [hrow, if_pos rfl] at hsteady
            exact absurd hbelow (hsteady (n, row) List.mem_cons_self)

/-- Beside texts that waver (`wavering`), the listeners of a node after a pass do not depend on the values.
-/
theorem mem_hearingRow_congr : ∀ {row : Forest (Node κ)} {x : NodeId × List (Registered κ)},
    x ∈ c.hearingRow data row → (∀ y ∈ c.waveringRow row, x.1 ∉ Forest.ids y.2) →
      x ∈ c.hearingRow data' row
  | [], x, hx, _ => by simp [hearingRow] at hx
  | t :: ts, x, hx, hsteady => by
    rw [hearingRow, List.mem_append] at hx ⊢
    rw [waveringRow] at hsteady
    refine hx.imp (fun hx => ?_) fun hx => ?_
    · exact mem_hearing_congr hx fun y hy => hsteady y (List.mem_append_left _ hy)
    · exact mem_hearingRow_congr hx fun y hy => hsteady y (List.mem_append_right _ hy)

end

mutual

theorem mem_hearing_of_wavering : ∀ {t : View κ} {y : Node κ × Forest (Node κ)}, y ∈ c.wavering t →
    ∀ x ∈ (if c.showsAll data y.1 y.2 then View.listening y.2 else View.silent y.2),
      x ∈ c.hearing data t
  | .node id n row, y, hy, x, hx => by
    rw [wavering] at hy
    rw [hearing]
    cases hn : n.isElement with
    | false => simp [hn] at hy
    | true =>
      cases hreplaced : (n.directives c.options).any c.replaces with
      | true => simp [hn, hreplaced] at hy
      | false =>
        simp only [hn, hreplaced, Bool.not_true, Bool.or_self, Bool.false_eq_true, if_false] at hy ⊢
        refine List.mem_cons_of_mem _ ?_
        cases howned : (n.directives c.options).any c.ownsContent with
        | false =>
          simp only [howned, Bool.not_false, if_true] at hy ⊢
          exact mem_hearingRow_of_wavering hy x hx
        | true =>
          simp only [howned, Bool.not_true, Bool.false_eq_true, if_false] at hy ⊢
          split at hy
          · obtain rfl := List.mem_singleton.1 hy
            exact hx
          · exact absurd hy (by simp)

/-- A text that wavers keeps its listeners if it shows the values already, and else loses them. -/
theorem mem_hearingRow_of_wavering : ∀ {row : Forest (Node κ)} {y : Node κ × Forest (Node κ)},
    y ∈ c.waveringRow row →
      ∀ x ∈ (if c.showsAll data y.1 y.2 then View.listening y.2 else View.silent y.2),
        x ∈ c.hearingRow data row
  | [], y, hy, x, _ => by simp [waveringRow] at hy
  | t :: ts, y, hy, x, hx => by
    rw [hearingRow, List.mem_append]
    rw [waveringRow, List.mem_append] at hy
    exact hy.imp (fun hy => mem_hearing_of_wavering hy x hx)
      fun hy => mem_hearingRow_of_wavering hy x hx

end

section

variable {data data'} {t : View κ} {i : NodeId} {l l' : List (Registered κ)}

/-- Every node is to have one list of listeners. -/
theorem hearingBelow_unique (hd : t.ids.Nodup) (hl : (i, l) ∈ c.hearingBelow data t)
    (hl' : (i, l') ∈ c.hearingBelow data t) : l = l' := by
  rw [← map_fst_hearingBelow (c := c) data t] at hd
  exact congrArg Prod.snd (List.inj_on_of_nodup_map hd hl hl' rfl)

/-- Beside texts that waver, every node is to have the same listeners whatever the values are. -/
theorem hearingBelow_congr (hd : t.ids.Nodup) (hl : (i, l) ∈ c.hearingBelow data t)
    (hl' : (i, l') ∈ c.hearingBelow data' t)
    (hsteady : ∀ y ∈ c.waveringRow t.children, i ∉ Forest.ids y.2) : l = l' := by
  refine hearingBelow_unique hd ?_ hl'
  refine List.mem_cons.2 ((List.mem_cons.1 hl).imp_right fun hin => ?_)
  exact mem_hearingRow_congr data data' hin hsteady

theorem hearingBelow_of_wavering (hd : t.ids.Nodup) (hl : (i, l) ∈ c.hearingBelow data t)
    {y : Node κ × Forest (Node κ)} (hy : y ∈ c.waveringRow t.children) {n : Node κ}
    (hn : (i, n) ∈ Forest.nodes y.2) :
    l = if c.showsAll data y.1 y.2 then n.listeners else [] := by
  refine hearingBelow_unique hd hl (List.mem_cons_of_mem _ ?_)
  refine mem_hearingRow_of_wavering data hy _ ?_
  split
  · exact View.mem_listening hn
  · exact View.mem_silent (Forest.mem_ids.2 ⟨_, hn, rfl⟩)

end

end Compiler

/-! ## What is left on a node -/

/-- Whether a guard is for a subscription to a store with a number from `k` on. -/
def Guard.since (store : StoreId) (k : Nat) (g : Guard) : Bool :=
  g.store = store ∧ k ≤ g.subscription.id

theorem Ledger.filter_eq_nil {l : Ledger} {i : NodeId} (h : i ∉ l.map Prod.fst) :
    (l.flatMap fun x => x.2.map fun g => (x.1, g)).filter (fun x => x.1 = i) = [] := by
  refine List.filter_eq_nil_iff.2 fun y hy => ?_
  obtain ⟨x, hx, hxy⟩ := List.mem_flatMap.1 hy
  obtain ⟨g, -, rfl⟩ := List.mem_map.1 hxy
  have hne : x.1 ≠ i := fun heq => h (heq ▸ List.mem_map_of_mem hx)
  simpa using hne

/-- The guards that a node holds are those that are listed with it. -/
theorem View.filter_held {row : Forest (Node κ)} (hd : row.Distinct) {i : NodeId} {n : Node κ}
    (hn : (i, n) ∈ Forest.nodes row) :
    (View.held row).filter (fun x => x.1 = i) = n.guards.map fun g => (i, g) := by
  have hin : (i, n.guards) ∈ View.ledger row := List.mem_map.2 ⟨(i, n), hn, rfl⟩
  have hunique : ((View.ledger row).map Prod.fst).Nodup := View.ids_ledger row ▸ hd
  obtain ⟨before, after, hsplit⟩ := List.append_of_mem hin
  rw [hsplit, List.map_append, List.map_cons, List.nodup_append, List.nodup_cons] at hunique
  obtain ⟨-, ⟨hafter, -⟩, hdisjoint⟩ := hunique
  have hbefore : i ∉ before.map Prod.fst := fun h => hdisjoint i h i List.mem_cons_self rfl
  rw [View.held, hsplit, List.flatMap_append, List.flatMap_cons, List.filter_append,
    List.filter_append, Ledger.filter_eq_nil hbefore, Ledger.filter_eq_nil hafter, List.nil_append,
    List.append_nil]
  exact List.filter_eq_self.2 fun x hx => by
    obtain ⟨g, -, rfl⟩ := List.mem_map.1 hx
    simp

/-- The observers that a plan adds are those with new numbers. -/
theorem Planned.filter_observersOf {store : StoreId} {k : Nat} {plan : List (Option (Link κ))}
    {ended : List Guard} {a b : Stores κ} (h : Planned store k plan ended a b)
    (hdue : a.Due store k) :
    ∃ st : Store κ, b[store]? = some st ∧ st.nextId = k + plan.length ∧ ∀ key,
      (st.observersOf key).filter (fun entry => k ≤ entry.1) =
        observersFor key (numbered k plan) := by
  obtain ⟨before, hbefore, rfl, hbelow⟩ := hdue
  obtain ⟨st, hst, hnext, hobservers⟩ := h store before hbefore
  refine ⟨st, hst, by rw [hnext, if_pos rfl], fun key => ?_⟩
  have hold : (remaining ended store key (before.observersOf key)).filter
      (fun entry => before.nextId ≤ entry.1) = [] := by
    refine List.filter_eq_nil_iff.2 fun entry hentry => ?_
    simpa using hbelow key entry (mem_remaining.1 hentry).1
  have hnew : (observersFor key (numbered before.nextId plan)).filter
      (fun entry => before.nextId ≤ entry.1) = observersFor key (numbered before.nextId plan) := by
    refine List.filter_eq_self.2 fun entry hentry => ?_
    obtain ⟨x, hx, -, rfl⟩ := mem_observersFor.1 hentry
    simpa using (bounds_of_mem_numbered hx).1
  rw [hobservers, if_pos rfl, List.filter_append, hold, hnew, List.nil_append]

/-- The guards of a world with old numbers are told from those of a pass. -/
theorem World.Accounted.tells {w : World κ} {kept : List Guard} (h : w.Accounted kept)
    {store : StoreId} {k : Nat} (hdue : w.stores.Due store k) :
    Tells (Guard.since store k) store k (View.ledger w.forest).guards where
  old g hg := by
    obtain ⟨st, hst, rfl, -⟩ := hdue
    obtain ⟨issuer, hissuer, hlt⟩ := h.owned.issued g (List.mem_append_left _ hg)
    simp only [Guard.since, decide_eq_false_iff_not, not_and, Nat.not_le]
    rintro rfl
    rwa [Option.some.inj (hst.symm.trans hissuer)]
  fresh j key hj := by simp [Guard.since, hj]

/-- What a world is made of once a view was bound: the view, what was taken out, and the rest. -/
theorem World.nodes_settle {w : World κ} {n : NodeId} {t : View κ} (hd : w.forest.Distinct)
    (ht : w.forest.find? n = some t) (view : View κ) (wiring : Wiring κ) :
    Forest.nodes (w.settle n view wiring).forest ~
      Forest.nodes (view :: wiring.removed) ++ Forest.nodes (w.forest.erase n) := by
  have hplaced := Forest.nodes_expand (fun _ => [view]) hd ht
  rw [Forest.nodes_singleton] at hplaced
  rw [World.settle, Forest.nodes_append, Forest.nodes]
  refine (hplaced.append_right _).trans ?_
  rw [List.append_assoc, List.append_assoc]
  exact perm_append_comm.append_left _

namespace Linked

variable {c : Compiler κ} {data : String → Option Value} {fresh : Guard → Bool} {k : Nat}
  {row row' more : Forest (Node κ)} {w w' : Wiring κ}

/-- The new guards in a view and in what was taken out, if the root holds none. -/
theorem filter_held (h : Linked c data fresh k row w row' more w') (id : NodeId) {n : Node κ}
    (hold : ∀ g ∈ n.guards, fresh g = false) :
    (View.held (.node id n row' :: more)).filter (fun x => fresh x.2) =
      (numbered k (c.planRow row)).map fun x => (x.2.node, Link.guard c.store x) := by
  rw [View.held_node, List.filter_append, List.filter_append, View.filter_old hold, List.nil_append,
    h.held, View.held_of_unbound h.clear, List.filter_nil, List.append_nil]

/-- The new guards that a node holds are those of its links. -/
theorem filter_guards (h : Linked c data fresh k row w row' more w') {id : NodeId} {n : Node κ}
    (hold : ∀ g ∈ n.guards, fresh g = false) (hd : Forest.Distinct (.node id n row' :: more))
    {i : NodeId} {m : Node κ} (hm : (i, m) ∈ Forest.nodes (.node id n row' :: more)) :
    m.guards.filter fresh =
      ((numbered k (c.planRow row)).filter fun x => x.2.node = i).map (Link.guard c.store) := by
  have hhere := congrArg (List.filter fun x : NodeId × Guard => x.1 = i) (h.filter_held id hold)
  rw [List.filter_comm, View.filter_held hd hm, List.filter_map, List.filter_map] at hhere
  have hguards := congrArg (List.map Prod.snd) hhere
  rw [List.map_map, List.map_map] at hguards
  simpa [Function.comp_def] using hguards

end Linked

/-- A store with other values. -/
theorem Store.becomes_withData (st : Store κ) (data : Table Value) :
    st.Becomes { st with data := data } where
  nextId_le := Nat.le_refl _
  observers key := (Store.Becomes.refl st).observers key
  sound h := ⟨h.ordered, h.bounded, h.inhabited⟩

/-! ## What is foreseen of a pass -/

namespace Session

/-- What is foreseen of a pass below the root of a view, where the values are known and subscriptions
are numbered from `k` on: the report, the observers that end and those that are new, and the new guards
and the listeners of every node there was.  Nothing binds a node that is new or was taken out. -/
structure Foreseen (s : Session) (c : Compiler Client) (t : View Client)
    (data : String → Option Value) (k : Nat) (report : Report) (s' : Session) : Prop where
  report : report = c.tally data (c.itineraryRow t.children)
  observers : ∃ st : Store Client, s'.world.stores[c.store]? = some st ∧
    st.nextId = k + (c.planRow t.children).length ∧ ∀ key,
      (st.observersOf key).filter (fun entry => k ≤ entry.1) =
        observersFor key (numbered k (c.planRow t.children))
  nodes : ∀ i ∈ t.ids, ∃ n, s'.world.node? i = some n ∧
    n.guards.filter (Guard.since c.store k) =
      ((numbered k (c.planRow t.children)).filter fun x => x.2.node = i).map (Link.guard c.store) ∧
    (i, n.listeners) ∈ c.hearingBelow data t
  new : ∀ i n, s.world.next ≤ i → s'.world.node? i = some n → n.Unbound
  planned : Planned c.store k (c.planRow t.children) (c.endedRow data t.children) s.world.stores
    s'.world.stores
  out : ∀ i ∈ Forest.ids (c.takenOutRow data t.children), ∀ n, s'.world.node? i = some n → n.Unbound

/-- **A pass does what is foreseen.** Compiling an element with valid options and builtin strategies, where
the store is known, does to the session what `Foreseen` tells before. -/
theorem exists_foreseen {s : Session} (haccounted : s.Accounted) {name : String} {t : View Client}
    {options : Options} {registry : Registry} {data : String → Option Value} {k : Nat}
    (ht : s.view? name = some t) (hroot : t.val.isElement = true) (hvalid : options.flaw? = none)
    (hbuiltin : registry.Builtin) (hdue : s.world.stores.Due s.store k)
    (hhold : s.world.stores.Hold s.store data) :
    ∃ report s', s.bind (.compile name options registry) = (.report report, s') ∧
      s.Foreseen (s.compiler options registry) t data k report s' := by
  have hd := haccounted.world.distinct
  have hfound := (view?_eq_some ht).2
  have hparts := Forest.perm_of_find? hd hfound
  obtain ⟨id, n, row⟩ := t
  have hhere : ∀ i ∈ Tree.ids (.node id n row), i < s.world.next := fun i hi =>
    haccounted.world.lt_next (Forest.ids_subset_of_find? hd hfound hi)
  have htells := haccounted.world.tells hdue
  have hguards : ∀ g ∈ n.guards ++ (View.ledger row).guards,
      g ∈ (View.ledger s.world.forest).guards := by
    intro g hg
    rw [← View.guards_of_node id n row] at hg
    exact View.guards_subset_of_find? hd hfound hg
  have hold : ∀ g ∈ n.guards, Guard.since s.store k g = false := fun g hg =>
    htells.old g (hguards g (List.mem_append_left _ hg))
  obtain ⟨report, row', more, wiring, hbind, hlinked⟩ := exists_linked ht hroot hvalid hbuiltin hdue
    hhold (htells.mono (Nat.le_refl k) fun g hg => hguards g (List.mem_append_right _ hg))
  have hremoved : wiring.removed = more := hlinked.removed
  have hafter := (haccounted.step (.bind s (.compile name options registry))).world.distinct
  rw [hbind] at hafter
  have hsettled := World.nodes_settle hd hfound (.node id n row') wiring
  rw [hremoved] at hsettled
  have hall : Forest.Distinct (.node id n row' :: more) := by
    have hids := (hsettled.map Prod.fst).nodup_iff.1 hafter
    rw [List.map_append] at hids
    exact (List.nodup_append.1 hids).1
  have hmet := hlinked.met_below id n
  refine ⟨report, _, hbind, ?_, hlinked.planned.filter_observersOf hdue, ?_, ?_, hlinked.planned, ?_⟩
  · rw [report_bind_compile ht hbind, Compiler.report_compileRow hbuiltin _ _ hhold]
    simp [Report.add, Pass.report, World.wiring]
  · intro i hi
    obtain ⟨⟨j, m⟩, hm, rfl⟩ := Forest.mem_ids.1 (hlinked.ids_below hi)
    refine ⟨m, ?_, hlinked.filter_guards hold hall hm, ?_⟩
    · exact Forest.val?_of_mem hafter (hsettled.symm.subset (List.mem_append_left _ hm))
    · refine (hmet (j, m) hm).resolve_left fun hnew => ?_
      exact absurd (hhere j hi) (Nat.not_lt.2 hnew.1)
  · intro i m hi hm
    rcases List.mem_append.1 (hsettled.subset (Forest.mem_nodes_of_val? hm)) with hin | hin
    · refine ((hmet (i, m) hin).resolve_right fun hknown => ?_).2
      have hfst := List.mem_map_of_mem (f := Prod.fst) hknown
      rw [Compiler.map_fst_hearingBelow] at hfst
      exact absurd (hhere i hfst) (Nat.not_lt.2 hi)
    · have hrest : (i, m) ∈ Forest.nodes s.world.forest :=
        hparts.symm.subset (List.mem_append_right _ hin)
      exact absurd (haccounted.world.lt_next (Forest.mem_ids.2 ⟨_, hrest, rfl⟩)) (Nat.not_lt.2 hi)
  · intro i hi m hm
    obtain ⟨⟨j, m'⟩, hm', rfl⟩ := Forest.mem_ids.1 (hlinked.out i hi)
    have hin : (j, m') ∈ Forest.nodes (.node id n row' :: more) := by
      rw [Forest.nodes]
      exact List.mem_append_right _ hm'
    have hval := Forest.val?_of_mem hafter (hsettled.symm.subset (List.mem_append_left _ hin))
    obtain rfl : m' = m := Option.some.inj (hval.symm.trans hm)
    exact hlinked.clear _ hm'

/-! ## Other values -/

/-- A session with other values in the current store, as if they had been there from the start
(`Store.data`). -/
def withData (s : Session) (data : Table Value) : Session :=
  s.changeStores (·.update s.store fun st => { st with data := data })

theorem Accounted.withData {s : Session} (h : s.Accounted) (data : Table Value) :
    (s.withData data).Accounted :=
  h.changeStores (Stores.last_update _ s.store fun st => st.becomes_withData data) fun howned =>
    howned.update s.store (fun _ => Nat.le_refl _) fun _ _ _ hentry => Or.inr hentry

theorem getElem?_withData {s : Session} {st : Store Client} (hst : s.world.stores[s.store]? = some st)
    (data : Table Value) :
    (s.withData data).world.stores[s.store]? = some { st with data := data } := by
  rw [withData, changeStores, Stores.getElem?_update, hst, Option.map_some, if_pos rfl]

/-- A pass against other values, foreseen (`withData`). -/
theorem exists_foreseen_withData {s : Session} (haccounted : s.Accounted) (hsound : s.Sound)
    {name : String} {t : View Client} {options : Options} {registry : Registry} {st : Store Client}
    (ht : s.view? name = some t) (hroot : t.val.isElement = true) (hvalid : options.flaw? = none)
    (hbuiltin : registry.Builtin) (hst : s.world.stores[s.store]? = some st) (data : Table Value) :
    ∃ report s', (s.withData data).bind (.compile name options registry) = (.report report, s') ∧
      (s.withData data).Foreseen (s.compiler options registry) t data.get? st.nextId report s' := by
  have hfound := getElem?_withData hst data
  have hdue : (s.withData data).world.stores.Due s.store st.nextId :=
    ⟨_, hfound, rfl, (hsound.store hst).bounded⟩
  have hhold : (s.withData data).world.stores.Hold s.store data.get? := ⟨_, hfound, fun _ => rfl⟩
  exact exists_foreseen (haccounted.withData data) ht hroot hvalid hbuiltin hdue hhold

/-- **Values do not decide what is bound.**  Take any session that can be reached and a view the root
of which is an element.  Compiling the view with valid options and builtin strategies, once with some
values in the store and once with others, succeeds both times.  The reports agree but for findings of
markup that is injected as text; the same observers are added, with the same numbers and in the same
order; and every node that was in the view has the same new guards.  It has the same listeners as
well, unless it belongs to a single text below an element with a text directive: there it is left with
the listeners that it had if the text shows the values of all such directives on the element already,
and with none if not.  Nothing binds the nodes that are new. -/
theorem values_do_not_bind {model : Value} {methods : List (String × Client)} {s : Session}
    (hreachable : Moves (start model methods) s) {name : String} {t : View Client} {options : Options}
    {registry : Registry} {st : Store Client} (ht : s.view? name = some t)
    (hroot : t.val.isElement = true) (hvalid : options.flaw? = none) (hbuiltin : registry.Builtin)
    (hst : s.world.stores[s.store]? = some st) (data₁ data₂ : Table Value) (call : Caller)
    (scope : Option StoreId) :
    let c := s.compiler options registry
    let compile := fun data =>
      (s.withData data).perform call scope (.bind (.compile name options registry))
    ∃ r₁ s₁ st₁ r₂ s₂ st₂,
      compile data₁ = some (.report r₁, s₁) ∧ s₁.world.stores[s.store]? = some st₁ ∧
      compile data₂ = some (.report r₂, s₂) ∧ s₂.world.stores[s.store]? = some st₂ ∧
      r₁.visitedNodes = r₂.visitedNodes ∧ r₁.bindings = r₂.bindings ∧
      r₁.interpolations = r₂.interpolations ∧
      r₁.diagnostics.filter (·.code ≠ Diagnostic.fallbackCode) =
        r₂.diagnostics.filter (·.code ≠ Diagnostic.fallbackCode) ∧
      st₁.nextId = st₂.nextId ∧
      (∀ key, (st₁.observersOf key).filter (fun entry => st.nextId ≤ entry.1) =
        (st₂.observersOf key).filter (fun entry => st.nextId ≤ entry.1)) ∧
      (∀ i ∈ t.ids, ∃ n₁ n₂, s₁.world.node? i = some n₁ ∧ s₂.world.node? i = some n₂ ∧
        n₁.guards.filter (Guard.since s.store st.nextId) =
          n₂.guards.filter (Guard.since s.store st.nextId) ∧
        ((∀ y ∈ c.waveringRow t.children, i ∉ Forest.ids y.2) → n₁.listeners = n₂.listeners) ∧
        ∀ y ∈ c.waveringRow t.children, ∀ n, (i, n) ∈ Forest.nodes y.2 →
          n₁.listeners = (if c.showsAll data₁.get? y.1 y.2 then n.listeners else []) ∧
            n₂.listeners = (if c.showsAll data₂.get? y.1 y.2 then n.listeners else [])) ∧
      ∀ i n, s.world.next ≤ i → s₁.world.node? i = some n ∨ s₂.world.node? i = some n → n.Unbound := by
  intro c compile
  have haccounted := hreachable.accounted
  have hsound := hreachable.sound
  have hd : t.ids.Nodup := haccounted.world.distinct.found (view?_eq_some ht).2
  obtain ⟨r₁, s₁, hcompile₁, h₁⟩ :=
    exists_foreseen_withData haccounted hsound ht hroot hvalid hbuiltin hst data₁
  obtain ⟨r₂, s₂, hcompile₂, h₂⟩ :=
    exists_foreseen_withData haccounted hsound ht hroot hvalid hbuiltin hst data₂
  obtain ⟨st₁, hst₁, hnext₁, hobservers₁⟩ := h₁.observers
  obtain ⟨st₂, hst₂, hnext₂, hobservers₂⟩ := h₂.observers
  refine ⟨r₁, s₁, st₁, r₂, s₂, st₂, congrArg some hcompile₁, hst₁, congrArg some hcompile₂, hst₂, ?_⟩
  rw [h₁.report, h₂.report]
  refine ⟨rfl, rfl, rfl, c.filter_diagnostics_tally _ _ _, hnext₁.trans hnext₂.symm,
    fun key => (hobservers₁ key).trans (hobservers₂ key).symm, ?_, ?_⟩
  · intro i hi
    obtain ⟨n₁, hn₁, hguards₁, hears₁⟩ := h₁.nodes i hi
    obtain ⟨n₂, hn₂, hguards₂, hears₂⟩ := h₂.nodes i hi
    refine ⟨n₁, n₂, hn₁, hn₂, hguards₁.trans hguards₂.symm, ?_, ?_⟩
    · exact fun hsteady => Compiler.hearingBelow_congr hd hears₁ hears₂ hsteady
    · exact fun y hy n hn => ⟨Compiler.hearingBelow_of_wavering hd hears₁ hy hn,
        Compiler.hearingBelow_of_wavering hd hears₂ hy hn⟩
  · rintro i n hi (hn | hn)
    · exact h₁.new i n hi hn
    · exact h₂.new i n hi hn

/-- A view with a text that a directive owns, an element that is replaced by markup, and a text with a
marker. -/
def threeBindings : List Action :=
  [.command (.handle (.build "root" (.element "div" []
    [.element "p" [⟨"v-text", "name"⟩] [.text "Ada"], .element "i" [⟨"v-html", "bio"⟩] [],
      .text "Hello \x7b\x7b name \x7d\x7d!"])))]

/-- Values with a directive and with a marker in them are shown, and bind no more than others do in
`threeBindings`. -/
theorem values_with_markers_bind_alike :
    let s := (start (.ofMembers []) []).runs threeBindings
    let compile := fun data =>
      (s.withData data).perform (invoke depth) none (.bind (.compile "root" {} .standard))
    ∃ r₁ s₁ r₂ s₂,
      compile [("bio", .string ""), ("name", .string "Ada")] = some (.report r₁, s₁) ∧
      compile [("bio", .string "<b v-text=name>\x7b\x7b name \x7d\x7d</b>"),
        ("name", .string "\x7b\x7b bio \x7d\x7d")] = some (.report r₂, s₂) ∧
      r₁.visitedNodes = r₂.visitedNodes ∧ r₁.bindings = r₂.bindings ∧
      r₁.interpolations = r₂.interpolations ∧
      ∀ i n, s.world.next ≤ i → s₁.world.node? i = some n ∨ s₂.world.node? i = some n → n.Unbound := by
  intro s compile
  have hreachable : Moves _ s := moves_runs _ threeBindings
  have ht : s.view? "root" = some _ := rfl
  have hst : s.world.stores[s.store]? = some _ := rfl
  have hvalid : ({} : Options).flaw? = none := rfl
  obtain ⟨r₁, s₁, -, r₂, s₂, -, hcompile₁, -, hcompile₂, -, hvisited, hbindings, htexts, -, -, -, -,
    hnew⟩ := values_do_not_bind hreachable ht rfl hvalid Registry.builtin_standard hst
      [("bio", .string ""), ("name", .string "Ada")]
      [("bio", .string "<b v-text=name>\x7b\x7b name \x7d\x7d</b>"),
        ("name", .string "\x7b\x7b bio \x7d\x7d")] (invoke depth) none
  exact ⟨r₁, s₁, r₂, s₂, hcompile₁, hcompile₂, hvisited, hbindings, htexts, hnew⟩

/-- A view with a text that a directive owns, and a client that listens to the text. -/
def listenedText : List Action :=
  [.command (.handle (.build "root" (.element "div" []
      [.element "p" [⟨"v-text", "name"⟩] [.text "Ada"]]))),
    .command (.handle (.find "text" "root" none 0)),
    .command (.listen "text" "click" "mine" fun _ => .done .nothing)]

/-- A value that is shown already leaves the text with its listener, and another value does not
(`set_text_content` replaces the text then). -/
theorem value_keeps_listener :
    let s := (start (.ofMembers []) []).runs listenedText
    let compile := fun data =>
      (s.withData data).perform (invoke depth) none (.bind (.compile "root" {} .standard))
    ∃ t text r₁ s₁ n₁ r₂ s₂ n₂, s.view? "root" = some t ∧ s.nodes.get? "text" = some text ∧
      text ∈ t.ids ∧ compile [("name", .string "Ada")] = some (r₁, s₁) ∧
      compile [("name", .string "Grace")] = some (r₂, s₂) ∧ s₁.world.node? text = some n₁ ∧
      s₂.world.node? text = some n₂ ∧ n₁.listeners ≠ n₂.listeners := by
  intro s compile
  have ht : s.view? "root" = some _ := rfl
  have hin : (s.view? "root").any (fun t => 2 ∈ t.ids) = true := by
    decide +kernel
  have hkept : ((compile [("name", .string "Ada")]).bind fun r =>
      (r.2.world.node? 2).map (·.listeners.length)) = some 1 := by
    decide +kernel
  have hlost : ((compile [("name", .string "Grace")]).bind fun r =>
      (r.2.world.node? 2).map (·.listeners.length)) = some 0 := by
    decide +kernel
  rw [ht, Option.any_some, decide_eq_true_eq] at hin
  obtain ⟨⟨r₁, s₁⟩, hcompile₁, hn₁⟩ := Option.bind_eq_some_iff.1 hkept
  obtain ⟨n₁, hn₁, hlength₁⟩ := Option.map_eq_some_iff.1 hn₁
  obtain ⟨⟨r₂, s₂⟩, hcompile₂, hn₂⟩ := Option.bind_eq_some_iff.1 hlost
  obtain ⟨n₂, hn₂, hlength₂⟩ := Option.map_eq_some_iff.1 hn₂
  refine ⟨_, 2, r₁, s₁, n₁, r₂, s₂, n₂, ht, rfl, hin, hcompile₁, hcompile₂, hn₁, hn₂, fun heq => ?_⟩
  rw [heq, hlength₂] at hlength₁
  exact absurd hlength₁ (by simp)

end Session

end ViewBinding
